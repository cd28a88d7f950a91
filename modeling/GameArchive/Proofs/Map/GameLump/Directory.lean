/-
The directory of a game lump, read back.

Reading asks three things of a lump: that it is long enough for a count,
that the count is not below zero, and that so many entries follow it.
`HasDirectory` says the same of the entries and not of the reading, so what
is written as a directory is known by its entries.

Main statement: `readDirectory_ok_iff`.
-/
import GameArchive.Map.GameLump
import GameArchive.Proofs.Bytes.Pieces

namespace GameArchive.Map

open Bytes

-- ============================================================ one entry

namespace GameEntry

theorem length_toBytes (e : GameEntry) : e.toBytes.length = size := rfl

/-- An entry reads back, whatever follows it. -/
theorem read_toBytes (e : GameEntry) (rest : Bytes) :
    read (e.toBytes ++ rest) = e := by
  simp only [read, toBytes, List.append_assoc, u32At_head, u16At_head,
    u16At_behind_word, u16At_behind_half, u32At_behind_word,
    u32At_behind_half]

end GameEntry

-- ======================================================== the directory

/-- A game lump begins with the number of its entries, and with them. -/
structure HasDirectory (data : Bytes) (directory : List GameEntry) :
    Prop where
  inside : 4 + 16 * directory.length ≤ data.length
  counted : data.i32At 0 = directory.length
  entry : ∀ (k : Nat) (hk : k < directory.length),
    directory[k] = GameEntry.read (data.slice (4 + 16 * k) 16)

/-- A directory that lies inside is read entry by entry. -/
theorem readDirectory_eq (data : Bytes) (h4 : ¬ data.length < 4)
    (hcount : ¬ data.i32At 0 < 0)
    (hinside : ¬ data.length < 4 + 16 * (data.i32At 0).toNat) :
    readDirectory data
      = .ok ((List.range (data.i32At 0).toNat).map fun k =>
          GameEntry.read (data.slice (4 + 16 * k) 16)) := by
  unfold readDirectory GameEntry.size
  dsimp only
  rw [if_neg h4, if_neg hcount, if_neg hinside, pieces_eq_map,
    List.map_map]
  refine congrArg Except.ok (List.map_congr_left fun k _ => ?_)
  rw [Function.comp, slice_drop, Nat.mul_comm]

/-- A directory is read exactly where there is one. -/
theorem readDirectory_ok_iff {data : Bytes} {directory : List GameEntry} :
    readDirectory data = .ok directory ↔ HasDirectory data directory := by
  constructor
  · intro h
    -- Each check that is not passed is an error.
    by_cases h4 : data.length < 4
    · unfold readDirectory at h
      rw [if_pos h4] at h
      cases h
    by_cases hcount : data.i32At 0 < 0
    · unfold readDirectory at h
      rw [if_neg h4, if_pos hcount] at h
      cases h
    by_cases hinside : data.length < 4 + 16 * (data.i32At 0).toNat
    · unfold readDirectory GameEntry.size at h
      rw [if_neg h4, if_neg hcount, if_pos hinside] at h
      cases h
    rw [readDirectory_eq data h4 hcount hinside] at h
    cases h
    refine ⟨?_, ?_, ?_⟩
    · rw [List.length_map, List.length_range]
      omega
    · rw [List.length_map, List.length_range]
      omega
    · intro k hk
      rw [List.getElem_map, List.getElem_range]
  · rintro ⟨hinside, hcounted, hentry⟩
    have hnat : (data.i32At 0).toNat = directory.length := by
      rw [hcounted]
      rfl
    rw [readDirectory_eq data (by omega) (by omega) (by omega), hnat]
    refine congrArg Except.ok (List.ext_getElem ?_ fun k hk hk' => ?_)
    · rw [List.length_map, List.length_range]
    · rw [List.getElem_map, List.getElem_range]
      exact (hentry k hk').symm

/-- A lump with a directory is not empty. -/
theorem HasDirectory.isEmpty_eq {data : Bytes} {directory : List GameEntry}
    (h : HasDirectory data directory) : data.isEmpty = false := by
  have hinside := h.inside
  rw [List.isEmpty_eq_false_iff]
  exact List.ne_nil_of_length_pos (by omega)

/-- A lump has no other directory. -/
theorem HasDirectory.unique {data : Bytes} {directory other : List GameEntry}
    (h : HasDirectory data directory) (h' : HasDirectory data other) :
    directory = other :=
  Except.ok.inj ((readDirectory_ok_iff.mpr h).symm.trans
    (readDirectory_ok_iff.mpr h'))

/-- A directory as it is written: the number of entries, and the entries. -/
def writtenDirectory (directory : List GameEntry) : Bytes :=
  Bytes.ofNat 4 directory.length ++ directory.flatMap GameEntry.toBytes

/-- A directory takes sixteen bytes for each entry, and four for their
number. -/
theorem length_writtenDirectory (directory : List GameEntry) :
    (writtenDirectory directory).length = 4 + 16 * directory.length := by
  unfold writtenDirectory
  rw [List.length_append, length_ofNat,
    length_flatMap_const GameEntry.length_toBytes]
  rfl

/-- What is written as a directory is one, whatever follows it. -/
theorem hasDirectory_written {directory : List GameEntry}
    (hcount : directory.length < 0x80000000) (rest : Bytes) :
    HasDirectory (writtenDirectory directory ++ rest) directory where
  inside := by
    rw [List.length_append, length_writtenDirectory]
    exact Nat.le_add_right _ _
  counted := by
    have hread := i32At_ofNat (c := directory.length) (by omega) (by omega)
      (directory.flatMap GameEntry.toBytes ++ rest)
    rw [Int.emod_eq_of_lt (by omega) (by omega), Int.toNat_natCast] at hread
    unfold writtenDirectory
    rw [List.append_assoc]
    exact hread
  entry := by
    intro k hk
    have hslice :=
      slice_flatMap_const GameEntry.length_toBytes directory rest hk
    unfold GameEntry.size at hslice
    unfold writtenDirectory
    rw [List.append_assoc, slice_behind (length_ofNat 4 _), hslice,
      ← List.append_nil directory[k].toBytes, GameEntry.read_toBytes]

end GameArchive.Map
