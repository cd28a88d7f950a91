/-
Undoing Blowfish.

The last two round words are added to the halves after the rounds. Between
two rounds, the same could be done with the two words that come next: a
block "closed" in this way is what the words in reverse order work on. One
round of them opens it by one word further back, so a run of sixteen ends
at the block closed before the first round, whatever the tables hold.

Main statement: `lawful_cipher`.
-/
import GameArchive.Cipher.Blowfish
import GameArchive.Proofs.Cipher.Mode

namespace GameArchive.Blowfish

-- ================================================================ rounds

section

variable (boxes : Array UInt32)

/-- Halves exchanged, with two words added to them. -/
def close (halves : UInt32 × UInt32) (a b : UInt32) : UInt32 × UInt32 :=
  (halves.2 ^^^ b, halves.1 ^^^ a)

/-- A round on a closed block takes back the last round. -/
theorem round_close (halves : UInt32 × UInt32) (v a b : UInt32) :
    round boxes (close (round boxes halves v) a b) b = close halves v a := by
  have hleft : ∀ x y z : UInt32, ((x ^^^ y) ^^^ z) ^^^ y = x ^^^ z := by
    intro x y z
    rw [UInt32.xor_assoc x, UInt32.xor_comm y, ← UInt32.xor_assoc x]
    exact cancels_xor_word (x ^^^ z) y
  simp only [round, close, cancels_xor_word _ _, hleft]

/-- Closing with the same two words in reverse order opens a block. -/
theorem close_close (halves : UInt32 × UInt32) (a b : UInt32) :
    close (close halves a b) b a = halves := by
  simp only [close, cancels_xor_word _ _]

/-- All rounds are taken back by the words that closed the block and those
before them, the last first. The two words left over close the block that
the rounds began with. -/
theorem foldl_round_close (back : List UInt32) :
    ∀ (halves : UInt32 × UInt32) {a b u v : UInt32} {front : List UInt32},
      b :: a :: back = front ++ [v, u] →
        front.foldl (round boxes)
            (close (back.reverse.foldl (round boxes) halves) a b)
          = close halves u v := by
  induction back with
  | nil =>
      intro halves a b u v front hfront
      cases front with
      | nil =>
          cases hfront
          rfl
      | cons w front =>
          have hlength := congrArg List.length hfront
          simp only [List.length_cons, List.length_append,
            List.length_nil] at hlength
          omega
  | cons w back ih =>
      intro halves a b u v front hfront
      cases front with
      | nil => cases hfront
      | cons w' front =>
          simp only [List.cons_append, List.cons.injEq] at hfront
          obtain ⟨rfl, hfront⟩ := hfront
          rw [List.foldl_cons, List.reverse_cons, List.foldl_append]
          show front.foldl (round boxes) (round boxes (close (round boxes
            (back.reverse.foldl (round boxes) halves) w) a b) b) = _
          rw [round_close]
          exact ih _ hfront

/-- A run is sixteen rounds, after which the two words left over close the
block. -/
theorem runRounds_append {front : List UInt32} (h : front.length = 16)
    (a b : UInt32) (halves : UInt32 × UInt32) :
    runRounds boxes (front ++ [a, b]) halves
      = close (front.foldl (round boxes) halves) a b := by
  have htake : (front ++ [a, b]).take 16 = front := List.take_left' h
  simp [runRounds, htake, close, List.getD_eq_getElem?_getD, h]

/-- The last two of eighteen words behind the sixteen others. -/
theorem exists_append_pair {words : List UInt32} (h : words.length = 18) :
    ∃ front a b, words = front ++ [a, b] ∧ front.length = 16 := by
  have hrest : (words.drop 16).length = 2 := by
    rw [List.length_drop, h]
  obtain ⟨a, b, hpair⟩ : ∃ a b, words.drop 16 = [a, b] := by
    match words.drop 16, hrest with
    | [a, b], _ => exact ⟨a, b, rfl⟩
  refine ⟨words.take 16, a, b, ?_, ?_⟩
  · rw [← hpair, List.take_append_drop]
  · rw [List.length_take, h]
    rfl

/-- The same rounds with the words in reverse order undo a run. -/
theorem runRounds_reverse {words : List UInt32} (h : words.length = 18)
    (halves : UInt32 × UInt32) :
    runRounds boxes words.reverse (runRounds boxes words halves) = halves := by
  obtain ⟨forth, a, b, rfl, hforth⟩ := exists_append_pair h
  have hback : (forth ++ [a, b]).reverse = b :: a :: forth.reverse := by
    rw [List.reverse_append]
    rfl
  have hcount : (forth ++ [a, b]).reverse.length = 18 := by
    rw [List.length_reverse, h]
  obtain ⟨front, v, u, hfront, hlength⟩ := exists_append_pair hcount
  have hopened := foldl_round_close boxes forth.reverse halves
    (hback.symm.trans hfront)
  rw [List.reverse_reverse] at hopened
  rw [hfront, runRounds_append boxes hforth, runRounds_append boxes hlength,
    hopened, close_close]

end

-- ========================================================== key schedule

namespace Schedule

theorem size_words (count : Nat) :
    (PiDigits.words count).size = count := by
  unfold PiDigits.words
  rw [List.size_toArray, List.length_map, List.length_range]

theorem size_initial : initial.rounds.size = 18 := by
  have hsize := size_words 1042
  unfold initial
  generalize PiDigits.words 1042 = digits at hsize ⊢
  show (digits.extract 0 18).size = 18
  rw [Array.size_extract, hsize]
  rfl

/-- Replacing a pair of words changes their values, not their number. -/
theorem size_stirRounds (state : Schedule × (UInt32 × UInt32)) (i : Nat) :
    (stirRounds state i).1.rounds.size = state.1.rounds.size := by
  simp [stirRounds]

theorem size_foldl_stirRounds (pairs : List Nat) :
    ∀ state : Schedule × (UInt32 × UInt32),
      (pairs.foldl stirRounds state).1.rounds.size
        = state.1.rounds.size := by
  induction pairs with
  | nil => exact fun _ => rfl
  | cons i pairs ih =>
      intro state
      rw [List.foldl_cons, ih, size_stirRounds]

-- Nobody should compute the digits, nor a keyed state.
theorem size_rounds (key : Bytes) : (ofKey key).rounds.size = 18 := by
  have hinitial := size_initial
  unfold ofKey
  generalize initial = start at hinitial ⊢
  extract_lets keyBytes source keyed
  have hkeyed : keyed.rounds.size = 18 := Array.size_mapIdx.trans hinitial
  clear_value keyed
  have hstirred := (size_foldl_stirRounds (List.range 9)
    (keyed, (0, 0))).trans hkeyed
  split
  next s halves hstate =>
    rw [hstate] at hstirred
    split
    exact hstirred

end Schedule

-- ================================================================= bytes

/-- Pushing a byte into a word that has room for it multiplies by 256 and
adds. -/
theorem toNat_push {w : UInt32} (b : UInt8) (h : w.toNat < 0x1000000) :
    ((w <<< 8) ||| b.toUInt32).toNat = 256 * w.toNat + b.toNat := by
  have hshift : (w <<< 8).toNat = w.toNat <<< 8 := by
    rw [UInt32.toNat_shiftLeft]
    refine Nat.mod_eq_of_lt ?_
    show w.toNat <<< 8 < 0x100000000
    rw [Nat.shiftLeft_eq]
    omega
  rw [UInt32.toNat_or, hshift, UInt8.toNat_toUInt32,
    ← Nat.shiftLeft_add_eq_or_of_lt b.toNat_lt, Nat.shiftLeft_eq,
    Nat.mul_comm]

/-- A word is the number of its four bytes, the highest first. -/
theorem toNat_wordOfBytes (a b c d : UInt8) (rest : Bytes) :
    (wordOfBytes (a :: b :: c :: d :: rest)).toNat
      = 256 * (256 * (256 * a.toNat + b.toNat) + c.toNat) + d.toNat := by
  have ha := a.toNat_lt
  have hb := b.toNat_lt
  have hc := c.toNat_lt
  have h1 := toNat_push (w := 0) a (by decide)
  rw [show 256 * (0 : UInt32).toNat + a.toNat = a.toNat from
    Nat.zero_add _] at h1
  have h2 := toNat_push b (Nat.lt_of_le_of_lt (Nat.le_of_eq h1) (by omega))
  rw [h1] at h2
  have h3 := toNat_push c (Nat.lt_of_le_of_lt (Nat.le_of_eq h2) (by omega))
  rw [h2] at h3
  have h4 := toNat_push d (Nat.lt_of_le_of_lt (Nat.le_of_eq h3) (by omega))
  rw [h3] at h4
  exact h4

/-- The bytes of a word are its digits to the base 256. -/
theorem bytesOfWord_toNat (x : UInt32) :
    (bytesOfWord x).map UInt8.toNat = [x.toNat / 0x1000000 % 256,
      x.toNat / 0x10000 % 256, x.toNat / 0x100 % 256, x.toNat % 256] := by
  simp [bytesOfWord, Nat.shiftRight_eq_div_pow]

/-- A word is read from the bytes it was written as, whatever follows. -/
theorem wordOfBytes_bytesOfWord (x : UInt32) (rest : Bytes) :
    wordOfBytes (bytesOfWord x ++ rest) = x := by
  have hx := x.toNat_lt
  have hbytes := bytesOfWord_toNat x
  simp only [bytesOfWord, List.map_cons, List.map_nil, List.cons.injEq]
    at hbytes
  refine UInt32.toNat_inj.mp ((toNat_wordOfBytes _ _ _ _ rest).trans ?_)
  omega

/-- The first four bytes are written as they were read. -/
theorem bytesOfWord_wordOfBytes (a b c d : UInt8) (rest : Bytes) :
    bytesOfWord (wordOfBytes (a :: b :: c :: d :: rest)) = [a, b, c, d] := by
  have ha := a.toNat_lt
  have hb := b.toNat_lt
  have hc := c.toNat_lt
  have hd := d.toNat_lt
  have hword := toNat_wordOfBytes a b c d rest
  have hbytes := bytesOfWord_toNat (wordOfBytes (a :: b :: c :: d :: rest))
  simp only [bytesOfWord, List.map_cons, List.map_nil, List.cons.injEq,
    and_true, ← UInt8.toNat_inj] at hbytes ⊢
  omega

/-- The two halves that a block is read as. -/
def halvesOf (block : Bytes) : UInt32 × UInt32 :=
  (wordOfBytes block, wordOfBytes (block.drop 4))

/-- The block of two halves. -/
def blockOf (halves : UInt32 × UInt32) : Bytes :=
  bytesOfWord halves.1 ++ bytesOfWord halves.2

theorem length_blockOf (halves : UInt32 × UInt32) :
    (blockOf halves).length = 8 := rfl

/-- Halves are read from the block they were written as. -/
theorem halvesOf_blockOf (halves : UInt32 × UInt32) :
    halvesOf (blockOf halves) = halves := by
  have hright : (blockOf halves).drop 4 = bytesOfWord halves.2 ++ [] := rfl
  unfold halvesOf
  rw [hright, wordOfBytes_bytesOfWord, blockOf, wordOfBytes_bytesOfWord]

/-- Eight bytes are written as they were read. -/
theorem blockOf_halvesOf {block : Bytes} (h : block.length = 8) :
    blockOf (halvesOf block) = block := by
  match block, h with
  | [a, b, c, d, e, i, j, k], _ =>
      show bytesOfWord (wordOfBytes [a, b, c, d, e, i, j, k])
        ++ bytesOfWord (wordOfBytes [e, i, j, k]) = [a, b, c, d, e, i, j, k]
      rw [bytesOfWord_wordOfBytes, bytesOfWord_wordOfBytes]
      rfl

/-- Blowfish is undone by its inverse, under any key. -/
theorem lawful_cipher (key : Bytes) : (cipher key).Lawful := by
  let s := Schedule.ofKey key
  have hcount : s.rounds.toList.length = 18 := by
    rw [Array.length_toList, Schedule.size_rounds]
  have hback : ∀ halves, s.decryptHalves (s.encryptHalves halves) = halves :=
    runRounds_reverse s.boxes hcount
  have hforth (halves : UInt32 × UInt32) :
      s.encryptHalves (s.decryptHalves halves) = halves := by
    have hback := runRounds_reverse s.boxes
      (List.length_reverse.trans hcount) halves
    rwa [List.reverse_reverse] at hback
  exact BlockCipher.lawful_of_state length_blockOf halvesOf_blockOf
    blockOf_halvesOf hback hforth

end GameArchive.Blowfish
