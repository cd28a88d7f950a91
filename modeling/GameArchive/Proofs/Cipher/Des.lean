/-
Undoing DES.

A round adds to one half what it makes of the other, and exchanges them.
Run once more with the halves exchanged, the same round adds the same again
and takes it away; so the round keys in reverse order undo a run, whatever
a round makes of a half. The permutations before and after the rounds undo
each other.

Main statement: `lawful_cipher`.
-/
import GameArchive.Cipher.Des
import GameArchive.Proofs.Cipher.Mode

namespace GameArchive.Des

-- ========================================================== permutations

/-- Tables that undo each other do so on bits. -/
theorem pick_pick {n : Nat} {t u : Vector (Fin n) n}
    (h : ∀ i : Fin n, t.get (u.get i) = i) (v : Bits n) :
    (v.pick t).pick u = v := by
  ext i hi
  have hplace : t[u[i]] = ⟨i, hi⟩ := h ⟨i, hi⟩
  simp only [Bits.pick, Vector.getElem_map, Fin.getElem_fin] at hplace ⊢
  simp only [hplace]

/-- The permutation before the rounds undoes the one behind them, so a run can
begin where another one has ended. -/
theorem pick_final_initial (v : Bits 64) :
    (v.pick finalPermutation).pick initialPermutation = v :=
  pick_pick (by decide +kernel) v

theorem pick_initial_final (v : Bits 64) :
    (v.pick initialPermutation).pick finalPermutation = v :=
  pick_pick (by decide +kernel) v

-- ================================================================ rounds

/-- A round run on exchanged halves undoes itself. -/
theorem round_round (halves : Bits 32 × Bits 32) (key : Bits 48) :
    round (round halves key).swap key = halves.swap := by
  obtain ⟨left, right⟩ := halves
  exact Prod.ext rfl
    (cancels_xor_bit.vector 32 left (roundFunction key right))

/-- All rounds are taken back in reverse order, on halves that have changed
places. -/
theorem foldl_round_reverse (keys : List (Bits 48))
    (halves : Bits 32 × Bits 32) :
    keys.reverse.foldl round (keys.foldl round halves).swap
      = halves.swap := by
  rw [List.foldl_reverse]
  exact foldr_foldl_undo round_round keys halves

/-- Two halves that were joined are cut apart again. -/
theorem halves_append (l r : Bits 32) :
    ((l ++ r : Bits 64).take 32, (l ++ r : Bits 64).drop 32) = (l, r) := by
  refine Prod.ext (Vector.ext fun i hi => ?_) (Vector.ext fun i hi => ?_)
  · exact (Vector.getElem_take _).trans (Vector.getElem_append_left hi)
  · refine (Vector.getElem_drop _).trans ?_
    exact (Vector.getElem_append_right (by omega) (by omega)).trans (by simp)

/-- A block that was cut apart is joined again. -/
theorem append_halves (v : Bits 64) :
    ((v.take 32 : Bits 32) ++ (v.drop 32 : Bits 32) : Bits 64) = v := by
  ext i hi
  rcases Nat.lt_or_ge i 32 with hlow | hhigh
  · exact (Vector.getElem_append_left hlow).trans (Vector.getElem_take _)
  · refine (Vector.getElem_append_right (by omega) hhigh).trans ?_
    refine (Vector.getElem_drop _).trans ?_
    simp only [Nat.add_sub_cancel' hhigh]

/-- The same rounds in reverse order undo a run. -/
theorem runRounds_reverse (keys : List (Bits 48)) (block : Bits 64) :
    runRounds keys.reverse (runRounds keys block) = block := by
  let halves := keys.foldl round ((block.pick initialPermutation).take 32,
    (block.pick initialPermutation).drop 32)
  have hback : keys.reverse.foldl round (halves.2, halves.1)
      = ((block.pick initialPermutation).drop 32,
          (block.pick initialPermutation).take 32) :=
    foldl_round_reverse keys _
  have hrun : runRounds keys block
      = Bits.pick (halves.2 ++ halves.1 : Bits 64) finalPermutation := rfl
  rw [hrun]
  unfold runRounds
  dsimp only
  rw [pick_final_initial, halves_append, hback]
  dsimp only
  rw [append_halves, pick_initial_final]

-- ================================================================= bytes

/-- Within the vector, no bit is made up. -/
theorem getD_eq {n i : Nat} (v : Bits n) (hi : i < n) :
    v.getD i false = v[i] := by
  have hsize : i < v.toArray.size := by
    rw [v.size_toArray]
    exact hi
  unfold Vector.getD
  rw [Array.getD_eq_getD_getElem?, Array.getElem?_eq_getElem hsize]
  rfl

/-- A number of eight bits, from its list of bits. -/
theorem number_eq {n : Nat} (v : Bits n) (start : Nat) :
    v.number start 8 = ((List.range 8).map fun j =>
      v.getD (start + j) false).foldl
        (fun sum bit => 2 * sum + bit.toNat) 0 := by
  rw [List.foldl_map]
  rfl

/-- The byte of a number of eight bits has these bits. -/
theorem testBit_number {n : Nat} (v : Bits n) (start : Nat) {j : Nat}
    (hj : j < 8) :
    (UInt8.ofNat (v.number start 8)).toNat.testBit (7 - j)
      = v.getD (start + j) false := by
  have hall : ∀ a b c d e f g h : Bool, ∀ j < 8,
      (UInt8.ofNat ([a, b, c, d, e, f, g, h].foldl
        (fun sum bit => 2 * sum + bit.toNat) 0)).toNat.testBit (7 - j)
        = [a, b, c, d, e, f, g, h].getD j false := by
    decide +kernel
  rw [number_eq]
  refine (hall _ _ _ _ _ _ _ _ j hj).trans ?_
  show ((List.range 8).map fun j => v.getD (start + j) false).getD j false
    = v.getD (start + j) false
  simp [List.getD_eq_getElem?_getD, hj]

/-- A block is read, bit by bit, from the bytes it was written as. -/
theorem ofBytes_toBytes (v : Bits 64) : Bits.ofBytes v.toBytes = v := by
  ext i hi
  have hbyte : v.toBytes.getD (i / 8) 0
      = UInt8.ofNat (v.number (8 * (i / 8)) 8) := by
    have hrow : i / 8 < 8 := by omega
    simp [Bits.toBytes, List.getD_eq_getElem?_getD, hrow]
  rw [Bits.ofBytes, Vector.getElem_ofFn, hbyte,
    testBit_number v _ (Nat.mod_lt i (by decide)), Nat.div_add_mod]
  exact getD_eq v hi

/-- A byte is the number of its bits. -/
theorem number_testBit (x : UInt8) :
    ((List.range 8).map fun j => x.toNat.testBit (7 - j)).foldl
      (fun sum bit => 2 * sum + bit.toNat) 0 = x.toNat := by
  have hall : ∀ n < 256,
      ((List.range 8).map fun j => n.testBit (7 - j)).foldl
        (fun sum bit => 2 * sum + bit.toNat) 0 = n := by
    decide +kernel
  exact hall x.toNat x.toNat_lt

/-- Eight bytes are written, byte by byte, as they were read. -/
theorem toBytes_ofBytes {block : Bytes} (h : block.length = 8) :
    (Bits.ofBytes block).toBytes = block := by
  refine List.ext_getElem ?_ fun i hi hblock => ?_
  · rw [Bits.toBytes, List.length_map, List.length_range, h]
  · rw [h] at hblock
    have hbits : ((List.range 8).map fun j =>
          (Bits.ofBytes block).getD (8 * i + j) false)
        = (List.range 8).map fun j => block[i].toNat.testBit (7 - j) := by
      refine List.map_congr_left fun j hj => ?_
      have hj : j < 8 := List.mem_range.mp hj
      have hdiv : (8 * i + j) / 8 = i := by omega
      have hmod : (8 * i + j) % 8 = j := by omega
      rw [getD_eq _ (show 8 * i + j < 64 by omega), Bits.ofBytes,
        Vector.getElem_ofFn, hdiv, hmod, List.getD_eq_getElem?_getD,
        List.getElem?_eq_getElem (by omega)]
      rfl
    simp only [Bits.toBytes, List.getElem_map, List.getElem_range]
    rw [number_eq, hbits, number_testBit, UInt8.ofNat_toNat]

/-- DES is undone by its inverse, under any key. -/
theorem lawful_cipher (key : Bytes) : (cipher key).Lawful := by
  have hforth (block : Bits 64) :
      runRounds (roundKeys key) (runRounds (roundKeys key).reverse block)
        = block := by
    have hback := runRounds_reverse (roundKeys key).reverse block
    rwa [List.reverse_reverse] at hback
  exact BlockCipher.lawful_of_state (fun _ => rfl) ofBytes_toBytes
    toBytes_ofBytes (runRounds_reverse (roundKeys key)) hforth

end GameArchive.Des
