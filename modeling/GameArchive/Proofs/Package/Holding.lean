/-
Containers hold what was put into them.

A container that is built opens with its name and its provider, and as long
as 32 bits can count its files and measure its contents, it lists each file
at the place of its contents. These are cut out whole and decrypted with
the key of the same file name that the writer has taken from a path with
slashes of either kind; the filling of the last block is cut off.

Main statement: `build_holds`.
-/
import GameArchive.Proofs.Package.Building
import GameArchive.Proofs.Package.Payload

namespace GameArchive.Package

open Bytes

-- ================================================================== files

namespace Draft

variable (draft : Draft)

/-- What is stored of the first `k` files. -/
def before (k : Nat) : Bytes := (draft.entries.take k).flatMap draft.storedData

/-- What a container has of the file number `k` of a draft: its path, with
slashes; its flag and its size; the place behind the table and the contents
of all files before it; and its contents. -/
structure Holds (c : Container) (k : Nat) (e : DraftEntry) (entry : Entry) :
    Prop where
  path_eq : entry.path = Text.forwardSlashes e.path
  isEncrypted_eq : entry.isEncrypted = e.isEncrypted
  unpackedSize_eq : entry.unpackedSize.toNat = e.data.length
  offset_eq : entry.offset
    = 305 + 288 * draft.entries.length + (draft.before k).length
  readEntry_eq : c.readEntry entry = ⟨[], .ok e.data⟩

/-- The entry of the file number `k`. -/
def entryOf (k : Nat) (e : DraftEntry) : Entry :=
  listed (Container.payloadStart draft.entries.length)
    (draft.before k).length e (draft.storedData e)

/-- Entries are listed in the order of the draft. -/
theorem getElem?_opened (hcount : draft.entries.length < 0x100000000)
    {k : Nat} {e : DraftEntry} (hk : draft.entries[k]? = some e) :
    draft.opened.entries[k]? = some (draft.entryOf k e) := by
  have hcounted : draft.count = draft.entries.length :=
    UInt32.toNat_ofNat_of_lt' hcount
  show ((draft.listing _ 0 draft.entries).take draft.count)[k]? = _
  rw [hcounted, List.take_of_length_le (Nat.le_of_eq (length_listing ..)),
    getElem?_listing, hk, Option.map_some, Nat.zero_add]
  rfl

section

variable {draft} {c : Container} (hprovider : c.provider = draft.provider)
  (k : Nat) (e : DraftEntry)

include hprovider

/-- Reader and writer take the file name from the same path. -/
theorem payloadKey_entryOf :
    c.payloadKey (draft.entryOf k e)
      = Key.ofSecret draft.provider.dataSecret (fileName e.path) := by
  unfold Container.payloadKey
  rw [hprovider]
  exact congrArg (Key.ofSecret _) (Text.fileName_forwardSlashes e.path)

/-- In the clear, stored data are the filled contents. -/
theorem clearOf_storedData :
    c.clearOf (draft.entryOf k e) (draft.storedData e) = filled e := by
  unfold Container.clearOf
  rw [payloadKey_entryOf hprovider]
  exact decipherStrides_storedData draft e

end

section

variable {draft} {k : Nat} {e : DraftEntry}
  (hk : draft.entries[k]? = some e)

include hk

/-- What is stored of a file stands behind what is stored of those before
it. -/
theorem payload_split :
    ∃ after, draft.payload
      = draft.before k ++ (draft.storedData e ++ after) := by
  obtain ⟨hlt, rfl⟩ := List.getElem?_eq_some_iff.mp hk
  refine ⟨(draft.entries.drop (k + 1)).flatMap draft.storedData, ?_⟩
  unfold payload before
  rw [← List.flatMap_cons, List.getElem_cons_drop, ← List.flatMap_append,
    List.take_append_drop]

variable (hpayload : draft.payload.length < 0x100000000)

include hpayload

theorem length_before_lt : (draft.before k).length < 0x100000000 := by
  obtain ⟨after, hsplit⟩ := payload_split hk
  rw [hsplit, List.length_append] at hpayload
  omega

theorem length_storedData_lt :
    (draft.storedData e).length < 0x100000000 := by
  obtain ⟨after, hsplit⟩ := payload_split hk
  rw [hsplit, List.length_append, List.length_append] at hpayload
  omega

theorem offset_entryOf :
    (draft.entryOf k e).offset = (draft.front ++ draft.before k).length := by
  rw [List.length_append, length_front]
  exact congrArg (Container.payloadStart _ + ·)
    (UInt32.toNat_ofNat_of_lt' (length_before_lt hk hpayload))

theorem packedSize_entryOf :
    (draft.entryOf k e).packedSize.toNat = (draft.storedData e).length :=
  UInt32.toNat_ofNat_of_lt' (length_storedData_lt hk hpayload)

theorem unpackedSize_entryOf :
    (draft.entryOf k e).unpackedSize.toNat = e.data.length := by
  refine UInt32.toNat_ofNat_of_lt' (Nat.lt_of_le_of_lt (length_data_le e) ?_)
  rw [← length_storedData draft e]
  exact length_storedData_lt hk hpayload

/-- What is read where enough is left of what is stored. -/
theorem readEntry_left {c : Container} (hopened : c.openedSize = c.file.length)
    {left after : Bytes}
    (hfile : c.file = (draft.front ++ draft.before k) ++ (left ++ after))
    (hleft : min (draft.storedData e).length (left ++ after).length
      = left.length)
    (hslack : (draft.storedData e).length - left.length ≤ 16)
    (hroom : e.data.length ≤ left.length) :
    c.readEntry (draft.entryOf k e)
      = ⟨[], .ok ((c.clearOf (draft.entryOf k e) left).take
          e.data.length)⟩ := by
  have hoffset := offset_entryOf hk hpayload
  have hpacked := packedSize_entryOf hk hpayload
  have hthere : min (draft.entryOf k e).packedSize.toNat
      (left ++ after).length = left.length := by rw [hpacked, hleft]
  rw [Container.readEntry_eq hopened,
    Container.slice_stored hfile hoffset hthere,
    Container.storedSize_eq hfile hoffset hthere, hpacked,
    unpackedSize_entryOf hk hpayload, if_neg (Nat.not_lt.mpr hslack),
    if_neg (Nat.not_lt.mpr hroom)]

/-- Every file is held. -/
theorem holds_opened :
    draft.Holds draft.opened k e (draft.entryOf k e) where
  path_eq := rfl
  isEncrypted_eq := rfl
  unpackedSize_eq := unpackedSize_entryOf hk hpayload
  offset_eq := by
    rw [offset_entryOf hk hpayload, List.length_append, length_front,
      Nat.mul_comm 288]
    rfl
  readEntry_eq := by
    obtain ⟨after, hsplit⟩ := payload_split hk
    have hfile : draft.opened.file
        = (draft.front ++ draft.before k)
          ++ (draft.storedData e ++ after) := by
      rw [List.append_assoc, ← hsplit]
      exact draft.toBytes_eq
    have hall : min (draft.storedData e).length
        (draft.storedData e ++ after).length
          = (draft.storedData e).length := by
      rw [List.length_append]
      exact Nat.min_eq_left (Nat.le_add_right ..)
    have hroom : e.data.length ≤ (draft.storedData e).length := by
      rw [length_storedData]
      exact length_data_le e
    rw [readEntry_left hk hpayload rfl hfile hall (by omega) hroom,
      clearOf_storedData rfl, take_filled]

end

-- ============================================================= round trip

/-- A container can be built from any files whose paths fit their fields.
It opens with its name and its provider and holds all of them in order, as
long as 32 bits can count them and what is stored of them. -/
theorem build_holds (draft : Draft) (hdirectory : FitsField draft.directory)
    (hpaths : ∀ e ∈ draft.entries, FitsField e.path)
    (hcount : draft.entries.length < 0x100000000)
    (hpayload : (draft.entries.flatMap draft.storedData).length
      < 0x100000000) :
    draft.build = .ok draft.toBytes
      ∧ ∃ c, Container.parse draft.name (some draft.provider) draft.toBytes
          = .ok c
        ∧ c.directory = Text.forwardSlashes draft.directory
        ∧ c.entries.length = draft.entries.length
        ∧ ∀ (k : Nat) (e : DraftEntry), draft.entries[k]? = some e →
            ∃ entry, c.entries[k]? = some entry
              ∧ draft.Holds c k e entry := by
  refine ⟨draft.build_eq, draft.opened, parse_toBytes draft hdirectory hpaths,
    rfl, ?_, fun k e hk => ⟨draft.entryOf k e,
      draft.getElem?_opened hcount hk, holds_opened hk hpayload⟩⟩
  rw [length_entries_opened, Nat.mod_eq_of_lt hcount]

/-- A file in the clear, an encrypted one under a path with backslashes and
one that is empty. -/
def sample : Draft :=
  ⟨"a.pkg", .tiancity, usualDirectory,
    [⟨"maps/a.txt", [1, 2, 3], false⟩, ⟨"maps\\b.txt", [4, 5], true⟩,
      ⟨"c.txt", [], true⟩]⟩

/-- Two files, one of them encrypted, in a container of one provider. -/
theorem build_holds_sample :
    (FitsField sample.directory ∧ (∀ e ∈ sample.entries, FitsField e.path)
      ∧ sample.entries.length < 0x100000000
      ∧ (sample.entries.flatMap sample.storedData).length < 0x100000000)
    ∧ sample.build = .ok sample.toBytes
      ∧ ∃ c, Container.parse sample.name (some sample.provider) sample.toBytes
          = .ok c
        ∧ c.directory = Text.forwardSlashes sample.directory
        ∧ c.entries.length = sample.entries.length
        ∧ ∀ (k : Nat) (e : DraftEntry), sample.entries[k]? = some e →
            ∃ entry, c.entries[k]? = some entry
              ∧ sample.Holds c k e entry := by
  have hdirectory : FitsField sample.directory := by decide +kernel
  have hpaths : ∀ e ∈ sample.entries, FitsField e.path := by
    decide +kernel
  have hpayload : (sample.entries.flatMap sample.storedData).length
      < 0x100000000 := by
    show (sample.storedData _ ++ (sample.storedData _
      ++ (sample.storedData _ ++ []))).length < _
    simp only [List.length_append, length_storedData]
    decide
  exact ⟨⟨hdirectory, hpaths, by decide, hpayload⟩,
    build_holds sample hdirectory hpaths (by decide) hpayload⟩

end Draft
end GameArchive.Package
