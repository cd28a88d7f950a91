/-
Map headers read back.

The directory of a header lies between three words, and its entries are
all of one length, so the entry of a lump is found by counting. Main
statement: `parse?_toBytes`.
-/
import GameArchive.Map.Header
import GameArchive.Proofs.Bytes.Pieces

namespace GameArchive.Map

open Bytes

variable {a : Bytes} {n : Nat}

-- ======================================================== one entry

namespace LumpHeader

theorem length_toBytes (h : LumpHeader) : h.toBytes.length = size := rfl

/-- The header of a lump is read behind some bytes like at the start. -/
theorem read_behind (ha : a.length = n) (b : Bytes) (k : Nat) :
    read (a ++ b) (n + k) = read b k := by
  unfold read
  simp only [Nat.add_assoc, u32At_behind ha]

/-- An entry reads back, whatever follows it. -/
theorem read_toBytes (h : LumpHeader) (rest : Bytes) :
    read (h.toBytes ++ rest) 0 = h := by
  simp only [read, toBytes, List.append_assoc, Nat.zero_add, u32At_head,
    u32At_behind_word]

end LumpHeader

-- ==================================================== the directory

/-- An entry among others reads back. -/
theorem LumpHeader.read_flatMap (lumps : List LumpHeader) (rest : Bytes) :
    ∀ {i : Nat} (hi : i < lumps.length),
      LumpHeader.read (lumps.flatMap LumpHeader.toBytes ++ rest)
        (LumpHeader.size * i) = lumps[i] := by
  induction lumps with
  | nil => intro i hi; cases hi
  | cons h lumps ih =>
      intro i hi
      rw [List.flatMap_cons, List.append_assoc]
      cases i with
      | zero => exact h.read_toBytes _
      | succ i =>
          rw [Nat.mul_succ, Nat.add_comm,
            LumpHeader.read_behind h.length_toBytes]
          exact ih (Nat.lt_of_succ_lt_succ hi)

-- ======================================================== the header

namespace Header

theorem length_toBytes (h : Header) : h.toBytes.length = size := by
  unfold toBytes
  simp only [List.length_append, length_ofUInt32,
    length_flatMap_const LumpHeader.length_toBytes, Vector.length_toList]
  rfl

/-- A header reads back, whatever follows it. -/
theorem read_toBytes (h : Header) (rest : Bytes) :
    read (h.toBytes ++ rest) = h := by
  let directory := h.lumps.toList.flatMap LumpHeader.toBytes
  have hdata : h.toBytes ++ rest = ofUInt32 h.ident ++ (ofUInt32 h.version
      ++ (directory ++ (ofUInt32 h.revision ++ rest))) := by
    simp [toBytes, directory]
  have hdirectory : directory.length = 1024 := by
    rw [length_flatMap_const LumpHeader.length_toBytes,
      Vector.length_toList]
    rfl
  have hrevision : u32At (directory ++ (ofUInt32 h.revision ++ rest)) 1024
      = h.revision :=
    (u32At_behind hdirectory _ 0).trans (u32At_head _ _)
  have hlumps : ∀ i (hi : i < 64),
      LumpHeader.read (h.toBytes ++ rest) (8 + LumpHeader.size * i)
        = h.lumps[i] := by
    intro i hi
    rw [hdata,
      show 8 + LumpHeader.size * i = 4 + (4 + LumpHeader.size * i) from by
        omega,
      LumpHeader.read_behind (length_ofUInt32 h.ident),
      LumpHeader.read_behind (length_ofUInt32 h.version),
      LumpHeader.read_flatMap _ _ (by rw [Vector.length_toList]; exact hi)]
    exact Vector.getElem_toList _
  have hvector : (read (h.toBytes ++ rest)).lumps = h.lumps := by
    refine Vector.ext fun i hi => ?_
    unfold read
    rw [Vector.getElem_ofFn]
    exact hlumps i hi
  have hwords : (read (h.toBytes ++ rest)).ident = h.ident
      ∧ (read (h.toBytes ++ rest)).version = h.version
      ∧ (read (h.toBytes ++ rest)).revision = h.revision := by
    unfold read
    rw [hdata]
    simp [hrevision]
  generalize read (h.toBytes ++ rest) = h' at hvector hwords
  obtain ⟨ident, version, lumps, revision⟩ := h'
  obtain ⟨rfl, rfl, rfl⟩ := hwords
  exact congrArg (Header.mk h.ident h.version · h.revision) hvector

/-- A header that was written is read again, whatever follows it. -/
theorem parse?_toBytes (h : Header) (rest : Bytes) :
    parse? (h.toBytes ++ rest) = some h := by
  unfold parse?
  rw [if_neg, read_toBytes]
  rw [List.length_append, length_toBytes]
  omega

end Header
end GameArchive.Map
