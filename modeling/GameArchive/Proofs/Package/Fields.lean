/-
What a record of a container says.

A path that fits its field is followed there by a zero and has none in
itself, so the reader finds its end; the slashes are then turned back. The
numbers stand behind the field, at the same places in the header and in
every record.

Main statements: `pathOf?_pathField`, `ofRecord?_record`.
-/
import GameArchive.Package.Draft
import GameArchive.Proofs.Bytes.Reading
import GameArchive.Proofs.Text.Slashes

namespace GameArchive

namespace Bytes

/-- What was filled up has the size that was asked for, unless it was longer
before. -/
theorem length_fillTo {size : Nat} {data : Bytes} (h : data.length ≤ size) :
    (data.fillTo size).length = size := by
  unfold fillTo
  rw [List.length_append, length_zeros]
  omega

/-- Up to the first zero there is only what was there before. -/
theorem beforeZero_fillTo {data : Bytes} (h : ∀ b ∈ data, b ≠ 0)
    (size : Nat) : (data.fillTo size).beforeZero = data :=
  (beforeZero_append_zeros data _).trans (beforeZero_eq_self h)

end Bytes

namespace Package

open Bytes

-- ================================================================== paths

/-- A path that leaves a field room for a zero at its end, and has no
control byte. -/
structure FitsField (path : String) : Prop where
  length_le : (ofString path).length ≤ 260
  printable : ∀ b ∈ ofString path, 0x20 ≤ b ∧ b ≠ 0x7F

/-- The bytes of a path are those of printable characters and of characters that
take several bytes. -/
theorem isPathByte_iff {b : UInt8} :
    Entry.isPathByte b = true ↔ 0x20 ≤ b ∧ b ≠ 0x7F := by
  unfold Entry.isPathByte
  rw [Bool.and_eq_true, decide_eq_true_iff, bne_iff_ne]

/-- The check for a field is exactly that a path fits it. -/
theorem fitsField_iff {path : String} :
    ((ofString path).length.ble 260 && (ofString path).all Entry.isPathByte)
        = true ↔ FitsField path := by
  rw [Bool.and_eq_true, Nat.ble_eq, List.all_eq_true]
  simp only [isPathByte_iff]
  exact ⟨fun h => ⟨h.1, h.2⟩, fun h => ⟨h.length_le, h.printable⟩⟩

instance (path : String) : Decidable (FitsField path) :=
  decidable_of_iff _ fitsField_iff

namespace Draft

/-- A field has its size, whatever the path is. -/
theorem length_pathField (path : String) :
    (pathField path).length = Entry.pathSize := by
  refine length_fillTo ?_
  rw [List.length_take]
  exact Nat.le_trans (Nat.min_le_left ..) (by decide)

/-- A path that fits is not cut off. -/
theorem pathField_eq {path : String} (h : FitsField path) :
    pathField path
      = (ofString (Text.backslashes path)).fillTo Entry.pathSize := by
  have hlength := Text.length_ofString_backslashes path
  show fillTo Entry.pathSize
    ((ofString (Text.backslashes path)).take (Entry.pathSize - 1)) = _
  rw [List.take_of_length_le (hlength ▸ h.length_le)]

/-- A path is read with slashes, however it was written. -/
theorem pathOf?_pathField {path : String} (h : FitsField path) :
    Entry.pathOf? (pathField path) = some (Text.slashed path) := by
  have hlength := Text.length_ofString_backslashes path
  have hbytes : (ofString (Text.backslashes path)).all Entry.isPathByte
      = true :=
    Text.all_ofString_backslashes rfl
      (List.all_eq_true.mpr fun b hb => isPathByte_iff.mpr (h.printable b hb))
  have hend : ∀ b ∈ ofString (Text.backslashes path), b ≠ 0 := by
    rintro b hb rfl
    cases List.all_eq_true.mp hbytes 0 hb
  have hroom : (ofString (Text.backslashes path)).length
      < (pathField path).length := by
    rw [length_pathField, hlength]
    exact Nat.lt_succ_of_le h.length_le
  have hread : (pathField path).beforeZero
      = ofString (Text.backslashes path) := by
    rw [pathField_eq h, beforeZero_fillTo hend]
  unfold Entry.pathOf?
  dsimp only
  rw [hread, hbytes, decide_eq_true hroom, Text.ofBytes_ofString]
  exact congrArg some (Subtype.ext (Text.forwardSlashes_backslashes path))

-- ================================================================ records

/-- The entry that a record is read as, where contents begin at `base`. -/
def listed (base offset : Nat) (e : DraftEntry) (stored : Bytes) : Entry :=
  ⟨Text.forwardSlashes e.path, base + (UInt32.ofNat offset).toNat,
    UInt32.ofNat stored.length, UInt32.ofNat e.data.length, e.isEncrypted,
    Text.notMem_forwardSlashes e.path⟩

theorem length_record (offset : Nat) (e : DraftEntry) (stored : Bytes) :
    (record offset e stored).length = Entry.recordSize := by
  refine length_fillTo ?_
  simp [length_pathField, Entry.pathSize, Entry.recordSize]

/-- A record is read as the entry it was written for; its path says slashes the
usual way. -/
theorem ofRecord?_record {e : DraftEntry} (h : FitsField e.path)
    (base offset : Nat) (stored : Bytes) :
    Entry.ofRecord? base (record offset e stored)
      = some (listed base offset e stored) := by
  have hpath := length_pathField e.path
  have hword := fun n => length_ofNat 4 n
  unfold record fillTo
  simp only [List.append_assoc]
  unfold Entry.ofRecord?
  rw [List.take_left' hpath, pathOf?_pathField h]
  dsimp only
  rw [← Nat.add_zero Entry.pathSize, u32At_behind hpath,
    Nat.add_zero Entry.pathSize, u32At_behind hpath, u32At_behind hpath,
    byteAt_behind hpath, u32At_ofNat, u32At_behind (hword _) _ 0, u32At_ofNat,
    u32At_behind (hword _) _ 4, u32At_behind (hword _) _ 0, u32At_ofNat,
    byteAt_behind (hword _) _ 9, byteAt_behind (hword _) _ 5,
    byteAt_behind (hword _) _ 1]
  unfold listed
  cases e.isEncrypted <;> rfl

-- ================================================================= headers

variable (draft : Draft)

theorem length_header : draft.header.length = Container.headerSize := by
  refine length_fillTo ?_
  simp [length_pathField, Entry.pathSize, Container.headerSize]

theorem take_header :
    draft.header.take Entry.pathSize = pathField draft.directory := by
  unfold header fillTo
  rw [List.append_assoc, List.take_left' (length_pathField _)]

/-- Behind the directory, the header has the number of entries. -/
theorem u32At_header :
    draft.header.u32At (Entry.pathSize + 4)
      = UInt32.ofNat draft.entries.length := by
  unfold header fillTo
  simp only [List.append_assoc]
  rw [u32At_behind (length_pathField _),
    u32At_behind (length_ofNat 4 1) _ 0, u32At_ofNat]

end Draft
end Package
end GameArchive
