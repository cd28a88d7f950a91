/-
Opening what was built.

The records stand in one row, each encrypted for itself; where the contents
of a file begin is the length of what is stored of the files before it,
which the reader never sees and the writer carries along. The header counts
files, and a record measures contents, in 32 bits: a container always
opens, but it has as many files as were put into it only up to there.

Main statements: `parse_front`, `getElem?_listing`.
-/
import GameArchive.Proofs.Package.Contents
import GameArchive.Proofs.Package.Fields

namespace GameArchive.Package.Draft

open Bytes

-- ================================================================== table

/-- The entries of files, the contents of the first of which begin at
`offset` behind `base`. -/
def listing (draft : Draft) (base : Nat) :
    (offset : Nat) → List DraftEntry → List Entry
  | _, [] => []
  | offset, e :: rest =>
    let stored := draft.storedData e
    listed base offset e stored
      :: draft.listing base (offset + stored.length) rest

variable (draft : Draft)

theorem length_listing (base offset : Nat) (entries : List DraftEntry) :
    (draft.listing base offset entries).length = entries.length := by
  induction entries generalizing offset with
  | nil => rfl
  | cons e rest ih =>
      rw [listing, List.length_cons, ih, List.length_cons]

/-- The contents of a file begin behind those of all files before it. -/
theorem getElem?_listing (base offset : Nat) (entries : List DraftEntry)
    (k : Nat) :
    (draft.listing base offset entries)[k]?
      = entries[k]?.map fun e => listed base
          (offset + ((entries.take k).flatMap draft.storedData).length) e
          (draft.storedData e) := by
  induction entries generalizing offset k with
  | nil => rfl
  | cons e rest ih =>
      rw [listing]
      cases k with
      | zero => rfl
      | succ k =>
          rw [List.getElem?_cons_succ, List.getElem?_cons_succ, ih,
            List.take_succ_cons, List.flatMap_cons, List.length_append,
            Nat.add_assoc]

theorem length_table (key : Bytes) (offset : Nat)
    (entries : List DraftEntry) :
    (draft.table key offset entries).length
      = entries.length * Entry.recordSize := by
  induction entries generalizing offset with
  | nil => exact (Nat.zero_mul _).symm
  | cons e rest ih =>
      rw [table, List.length_append, ih, Key.length_encipher, length_record,
        List.length_cons, Nat.succ_mul, Nat.add_comm]

/-- The first records of a table are read as the first of its files. -/
theorem readEntries_table (name : String) (key rest : Bytes) (base : Nat) :
    ∀ {entries : List DraftEntry}, (∀ e ∈ entries, FitsField e.path) →
      ∀ (offset index : Nat) {count : Nat}, count ≤ entries.length →
        Container.readEntries name key base index
          (pieces Entry.recordSize count
            (draft.table key offset entries ++ rest))
          = .ok ((draft.listing base offset entries).take count) := by
  intro entries
  induction entries with
  | nil =>
      intro _ offset index count hcount
      rw [Nat.le_zero.mp hcount]
      rfl
  | cons e entries ih =>
      intro hfits offset index count hcount
      obtain ⟨hfirst, hlater⟩ := List.forall_mem_cons.mp hfits
      cases count with
      | zero => rfl
      | succ count =>
          have hrecord : (Key.encipher key
              (record offset e (draft.storedData e))).length
                = Entry.recordSize := by
            rw [Key.length_encipher, length_record]
          rw [table, List.append_assoc, pieces, List.take_left' hrecord,
            List.drop_left' hrecord, Container.readEntries,
            Key.decipher_encipher, ofRecord?_record hfirst]
          dsimp only
          rw [ih hlater _ _ (Nat.le_of_succ_le_succ hcount)]
          rfl

-- ================================================================ opening

/-- The key of header and table. -/
def headerKey : Bytes := Key.ofSecret draft.provider.headerSecret draft.name

/-- What is stored of all files. -/
def payload : Bytes := draft.entries.flatMap draft.storedData

/-- What stands before it. -/
def front : Bytes :=
  draft.digest ++ (Key.encipher draft.headerKey draft.header
    ++ draft.table draft.headerKey 0 draft.entries)

/-- A container is its front, and then the contents. -/
theorem toBytes_eq : draft.toBytes = draft.front ++ draft.payload := by
  unfold front
  simp only [List.append_assoc]
  rfl

theorem length_digest : draft.digest.length = Container.digestSize := by
  refine length_fillTo ?_
  rw [Key.length_ofSecret]
  decide

/-- The contents begin where the number of entries says. -/
theorem length_front :
    draft.front.length = Container.payloadStart draft.entries.length := by
  unfold front
  rw [List.length_append, List.length_append, length_digest,
    Key.length_encipher, length_header, length_table, ← Nat.add_assoc]
  rfl

/-- The number of files, as the header has it. -/
def count : Nat := (UInt32.ofNat draft.entries.length).toNat

/-- Counting them in a word does not give more entries than there are. -/
theorem count_le : draft.count ≤ draft.entries.length := by
  unfold count
  rw [UInt32.toNat_ofNat']
  exact Nat.mod_le ..

/-- The container that is opened where these bytes stand behind the
table. -/
def openedOn (payload : Bytes) : Container :=
  ⟨draft.name, draft.provider, Text.forwardSlashes draft.directory,
    (draft.listing (Container.payloadStart draft.count) 0 draft.entries).take
      draft.count,
    (draft.front ++ payload).length, draft.front ++ payload, none⟩

/-- The container that is opened. -/
def opened : Container :=
  ⟨draft.name, draft.provider, Text.forwardSlashes draft.directory,
    (draft.listing (Container.payloadStart draft.count) 0 draft.entries).take
      draft.count,
    draft.toBytes.length, draft.toBytes, none⟩

theorem openedOn_payload : draft.openedOn draft.payload = draft.opened := by
  unfold openedOn opened
  rw [toBytes_eq]

section

variable {draft} (hdirectory : FitsField draft.directory)
  (hpaths : ∀ e ∈ draft.entries, FitsField e.path)

include hdirectory hpaths

/-- Whatever stands behind the table, a container opens with the name and
the provider that it was made for. -/
theorem parse_front (payload : Bytes) :
    Container.parse draft.name (some draft.provider) (draft.front ++ payload)
      = .ok (draft.openedOn payload) := by
  have hheader : (Key.encipher draft.headerKey draft.header).length
      = Container.headerSize := by
    rw [Key.length_encipher, length_header]
  have hsize : Container.payloadStart draft.count
      ≤ (draft.front ++ payload).length := by
    have hmul := Nat.mul_le_mul_right Entry.recordSize draft.count_le
    rw [List.length_append, length_front]
    unfold Container.payloadStart
    omega
  have hfront : draft.front ++ payload
      = draft.digest ++ (Key.encipher draft.headerKey draft.header
        ++ (draft.table draft.headerKey 0 draft.entries ++ payload)) := by
    unfold front
    simp only [List.append_assoc]
  have hslice : (draft.front ++ payload).slice Container.digestSize
      Container.headerSize = Key.encipher draft.headerKey draft.header := by
    rw [hfront]
    exact (slice_behind draft.length_digest _ 0 _).trans
      (slice_head hheader _)
  have hdrop : (draft.front ++ payload).drop Container.tableStart
      = draft.table draft.headerKey 0 draft.entries ++ payload := by
    rw [hfront]
    refine (drop_behind draft.length_digest _ Container.headerSize).trans ?_
    exact List.drop_left' hheader
  -- Each field is found where the front has it, and the checks pass.
  unfold Container.parse
  rw [if_neg (Nat.not_lt.mpr (Nat.le_trans (Nat.le_add_right ..) hsize))]
  dsimp only
  unfold Container.openWith
  dsimp only
  rw [hslice, show Key.ofSecret draft.provider.headerSecret draft.name
    = draft.headerKey from rfl, Key.decipher_encipher, take_header,
    pathOf?_pathField hdirectory]
  dsimp only
  rw [u32At_header, show (UInt32.ofNat draft.entries.length).toNat
    = draft.count from rfl, if_neg (Nat.not_lt.mpr hsize), hdrop,
    readEntries_table draft _ _ _ _ hpaths 0 0 draft.count_le]
  rfl

end

/-- A container opens with the name and the provider that it was made
for. -/
theorem parse_toBytes (hdirectory : FitsField draft.directory)
    (hpaths : ∀ e ∈ draft.entries, FitsField e.path) :
    Container.parse draft.name (some draft.provider) draft.toBytes
      = .ok draft.opened := by
  rw [← openedOn_payload, ← parse_front hdirectory hpaths, toBytes_eq]

/-- Files beyond what 32 bits can count are not in the container. -/
theorem length_entries_opened :
    draft.opened.entries.length = draft.entries.length % 0x100000000 := by
  show ((draft.listing _ 0 draft.entries).take draft.count).length = _
  rw [List.length_take, length_listing, Nat.min_eq_left draft.count_le]
  exact UInt32.toNat_ofNat'

end GameArchive.Package.Draft
