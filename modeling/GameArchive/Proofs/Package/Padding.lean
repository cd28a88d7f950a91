/-
Contents without the filling of their last block.

A file that ends a few bytes early still opens, since its table is all
there; and as long as no more is missing than what fills up the last block
of the last file, reading that file succeeds, without a warning. But a
block is decrypted whole or not at all. Of the last block, of which bytes
are missing, those that belong to the contents are read as they are stored;
so contents that end in a partial block come back with an encrypted end as
soon as one byte of the filling is missing.

Main statement: `readEntry_unpadded`.
-/
import GameArchive.Proofs.Package.Holding
import GameArchive.Proofs.Package.Payload

namespace GameArchive.Package.Draft

open Bytes

-- ================================================================= losses

variable (draft : Draft) (e : DraftEntry)

/-- What is read of an encrypted file of whose stored contents the last `k`
bytes are missing, all of them filling. -/
def readWithout (k : Nat) : Bytes :=
  if k = 0 then e.data
  else e.data.take (e.data.length / 16 * 16)
    ++ (draft.storedData e).slice (e.data.length / 16 * 16)
      (e.data.length % 16)

/-- Nothing is damaged exactly if nothing is missing or the end of the
contents is stored as it is. -/
theorem readWithout_eq_iff (k : Nat) :
    draft.readWithout e k = e.data
      ↔ k = 0 ∨ (draft.storedData e).slice (e.data.length / 16 * 16)
          (e.data.length % 16)
        = e.data.drop (e.data.length / 16 * 16) := by
  unfold readWithout
  by_cases hnone : k = 0
  · rw [if_pos hnone]
    exact ⟨fun _ => .inl hnone, fun _ => rfl⟩
  · have hsplit := List.take_append_drop (e.data.length / 16 * 16) e.data
    rw [if_neg hnone, or_iff_right hnone]
    calc _ ↔ _ = e.data.take (e.data.length / 16 * 16)
            ++ e.data.drop (e.data.length / 16 * 16) := by rw [hsplit]
      _ ↔ _ := List.append_right_inj _

section

variable {draft e} (hencrypted : e.isEncrypted = true) {k : Nat}
  (hk : k ≤ (draft.storedData e).length - e.data.length)

include hencrypted hk

/-- Less than a block is lost. -/
theorem lost_le : k ≤ 15 := by
  rw [length_storedData, length_filled hencrypted] at hk
  omega

/-- Whole blocks in the clear, what is left of the last block as it is
stored, and all of it cut to the size of the contents. -/
theorem take_blocks :
    ((filled e).take
        (((draft.storedData e).length - k) / 16 * 16)
      ++ ((draft.storedData e).take ((draft.storedData e).length - k)).drop
        (((draft.storedData e).length - k) / 16 * 16)).take e.data.length
      = draft.readWithout e k := by
  have hfilled := length_filled hencrypted
  have hstored := length_storedData draft e
  unfold readWithout
  -- With its filling, the last block is a whole one like the others.
  by_cases hnone : k = 0
  · have hwhole : (draft.storedData e).length / 16 * 16
        = (filled e).length := by omega
    rw [if_pos hnone, hnone, Nat.sub_zero, List.take_length, hwhole,
      List.take_length, List.drop_of_length_le (Nat.le_of_eq hstored),
      List.append_nil, take_filled]
  · have hblocks : ((draft.storedData e).length - k) / 16 * 16
        = e.data.length / 16 * 16 := by omega
    have hinside : e.data.length / 16 * 16 ≤ e.data.length := by omega
    have hclear : (filled e).take (e.data.length / 16 * 16)
        = e.data.take (e.data.length / 16 * 16) := by
      rw [← congrArg (List.take _) (take_filled e), List.take_take,
        Nat.min_eq_left hinside]
    have hsize : (e.data.take (e.data.length / 16 * 16)).length
        = e.data.length / 16 * 16 := by
      rw [List.length_take]
      exact Nat.min_eq_left hinside
    have hpartial : e.data.length - e.data.length / 16 * 16
        = e.data.length % 16 := by omega
    rw [if_neg hnone, hblocks, hclear, List.take_append, hsize, hpartial,
      List.take_of_length_le (by omega), List.drop_take,
      List.take_take, Nat.min_eq_left (by omega)]
    rfl

end

-- =================================================================== last

/-- The container that is opened if the first `n` bytes are there of what is
stored of the file number `i`, and nothing behind them. -/
def openedTo (i n : Nat) : Container :=
  draft.openedOn (draft.before i ++ (draft.storedData e).take n)

section

variable {draft e} {others : List DraftEntry}
  (hentries : draft.entries = others ++ [e])

include hentries

theorem getElem?_last : draft.entries[others.length]? = some e := by
  rw [hentries, List.getElem?_append_right (Nat.le_refl _), Nat.sub_self]
  rfl

/-- What is cut off a container is cut off its last file. -/
theorem toBytes_take {k : Nat} (hk : k ≤ (draft.storedData e).length) :
    draft.toBytes.take (draft.toBytes.length - k)
      = draft.front ++ (draft.before others.length
        ++ (draft.storedData e).take ((draft.storedData e).length - k)) := by
  have hlast : draft.payload
      = draft.before others.length ++ draft.storedData e := by
    unfold payload before
    rw [hentries, List.flatMap_append, List.take_left,
      List.flatMap_singleton]
  rw [toBytes_eq, hlast, ← List.append_assoc, ← List.append_assoc,
    List.length_append, Nat.add_sub_assoc hk, List.take_length_add_append]

/-- The last file is listed last, whatever stands behind the table. -/
theorem getLast?_openedOn (hcount : draft.entries.length < 0x100000000)
    (payload : Bytes) :
    (draft.openedOn payload).entries.getLast?
      = some (draft.entryOf others.length e) := by
  have hsame : (draft.openedOn payload).entries = draft.opened.entries := rfl
  have hlength : draft.opened.entries.length = others.length + 1 := by
    rw [length_entries_opened, Nat.mod_eq_of_lt hcount, hentries,
      List.length_append, List.length_singleton]
  rw [hsame, List.getLast?_eq_getElem?, hlength]
  exact draft.getElem?_opened hcount (getElem?_last hentries)

variable (hpayload : draft.payload.length < 0x100000000)

include hpayload

/-- What is read of the last file of a container that ends `k` bytes
early. -/
theorem readEntry_openedTo (hencrypted : e.isEncrypted = true) {k : Nat}
    (hk : k ≤ (draft.storedData e).length - e.data.length) :
    (draft.openedTo e others.length
        ((draft.storedData e).length - k)).readEntry
        (draft.entryOf others.length e)
      = ⟨[], .ok (draft.readWithout e k)⟩ := by
  have hfew := lost_le hencrypted hk
  have hroom := length_data_le e
  rw [← length_storedData draft e] at hroom
  have hleft : ((draft.storedData e).take
        ((draft.storedData e).length - k)).length
      = (draft.storedData e).length - k := by
    rw [List.length_take]
    exact Nat.min_eq_left (Nat.sub_le ..)
  have hfile : (draft.openedTo e others.length
        ((draft.storedData e).length - k)).file
      = (draft.front ++ draft.before others.length)
        ++ ((draft.storedData e).take ((draft.storedData e).length - k)
          ++ []) := by
    rw [List.append_nil, List.append_assoc]
    rfl
  have hall : min (draft.storedData e).length
        ((draft.storedData e).take ((draft.storedData e).length - k)
          ++ []).length
      = ((draft.storedData e).take
          ((draft.storedData e).length - k)).length := by
    rw [List.append_nil, hleft]
    exact Nat.min_eq_right (Nat.sub_le ..)
  rw [readEntry_left (getElem?_last hentries) hpayload rfl hfile hall
      (by omega) (by omega),
    Container.clearOf_cut _ (draft.entryOf others.length e) hencrypted
      (Nat.sub_le ..),
    clearOf_storedData rfl, take_blocks hencrypted hk]

end

/-- A container whose last file is encrypted is cut by no more than what
fills up the last block of that file. It opens, and the file is read without
an error or a warning; but if anything is missing, then what the contents
have of a last block that is not whole is read as it is stored. -/
theorem readEntry_unpadded (draft : Draft) {others : List DraftEntry}
    {e : DraftEntry} (hentries : draft.entries = others ++ [e])
    (hencrypted : e.isEncrypted = true)
    (hdirectory : FitsField draft.directory)
    (hpaths : ∀ e ∈ draft.entries, FitsField e.path)
    (hcount : draft.entries.length < 0x100000000)
    (hpayload : (draft.entries.flatMap draft.storedData).length
      < 0x100000000) {k : Nat}
    (hk : k ≤ (draft.storedData e).length - e.data.length) :
    k ≤ 15
      ∧ ∃ file c entry, draft.build = .ok file
        ∧ Container.parse draft.name (some draft.provider)
            (file.take (file.length - k)) = .ok c
        ∧ c.entries.getLast? = some entry
        ∧ entry.path = Text.forwardSlashes e.path
        ∧ entry.packedSize.toNat = (draft.storedData e).length
        ∧ entry.unpackedSize.toNat = e.data.length
        ∧ c.readEntry entry = ⟨[], .ok (draft.readWithout e k)⟩
        ∧ (draft.readWithout e k = e.data
          ↔ k = 0 ∨ (draft.storedData e).slice (e.data.length / 16 * 16)
              (e.data.length % 16)
            = e.data.drop (e.data.length / 16 * 16)) := by
  have hlast := getElem?_last hentries
  have hcut := toBytes_take hentries (Nat.le_trans hk (Nat.sub_le ..))
  refine ⟨lost_le hencrypted hk, draft.toBytes,
    draft.openedTo e others.length ((draft.storedData e).length - k),
    draft.entryOf others.length e, draft.build_eq, ?_,
    getLast?_openedOn hentries hcount _, rfl, packedSize_entryOf hlast hpayload,
    unpackedSize_entryOf hlast hpayload,
    readEntry_openedTo hentries hpayload hencrypted hk,
    draft.readWithout_eq_iff e k⟩
  rw [hcut]
  exact parse_front hdirectory hpaths _

/-- A file of two bytes, which takes one block. -/
def oneBlock : DraftEntry := ⟨"a.txt", [0x68, 0x69], true⟩

def oneFile : Draft := ⟨"s.pkg", .nexon, usualDirectory, [oneBlock]⟩

/-- One byte of the filling is missing: two bytes are read, but others. -/
theorem readEntry_unpadded_oneFile :
    (oneFile.entries = [] ++ [oneBlock] ∧ oneBlock.isEncrypted = true
        ∧ FitsField oneFile.directory
        ∧ (∀ e ∈ oneFile.entries, FitsField e.path)
        ∧ oneFile.entries.length < 0x100000000
        ∧ (oneFile.entries.flatMap oneFile.storedData).length < 0x100000000
        ∧ 1 ≤ (oneFile.storedData oneBlock).length - oneBlock.data.length)
      ∧ (1 ≤ 15
        ∧ ∃ file c entry, oneFile.build = .ok file
          ∧ Container.parse oneFile.name (some oneFile.provider)
              (file.take (file.length - 1)) = .ok c
          ∧ c.entries.getLast? = some entry
          ∧ entry.path = Text.forwardSlashes oneBlock.path
          ∧ entry.packedSize.toNat = (oneFile.storedData oneBlock).length
          ∧ entry.unpackedSize.toNat = oneBlock.data.length
          ∧ c.readEntry entry = ⟨[], .ok (oneFile.readWithout oneBlock 1)⟩
          ∧ (oneFile.readWithout oneBlock 1 = oneBlock.data
            ↔ 1 = 0 ∨ (oneFile.storedData oneBlock).slice
                (oneBlock.data.length / 16 * 16) (oneBlock.data.length % 16)
              = oneBlock.data.drop (oneBlock.data.length / 16 * 16)))
      ∧ oneFile.readWithout oneBlock 1 = [0x64, 0xBF] := by
  have hentries : oneFile.entries = [] ++ [oneBlock] := rfl
  have hdirectory : FitsField oneFile.directory := by decide +kernel
  have hpaths : ∀ e ∈ oneFile.entries, FitsField e.path := by
    decide +kernel
  have hpayload : (oneFile.entries.flatMap oneFile.storedData).length
      < 0x100000000 := by
    show (oneFile.storedData oneBlock ++ []).length < _
    rw [List.append_nil, length_storedData]
    decide
  have hk : 1 ≤ (oneFile.storedData oneBlock).length
      - oneBlock.data.length := by
    rw [length_storedData]
    decide
  exact ⟨⟨hentries, rfl, hdirectory, hpaths, by decide, hpayload, hk⟩,
    readEntry_unpadded oneFile hentries rfl hdirectory hpaths (by decide)
      hpayload hk,
    by decide +kernel⟩

end GameArchive.Package.Draft
