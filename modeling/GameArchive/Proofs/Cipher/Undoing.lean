/-
Steps of ciphers, undone one by one.

Whatever a cipher does to a block, it is made of few kinds of steps. A key is
added, and adding it again takes it away, be it to bytes, words, bits, or all
parts of something made of these. Rounds follow each other, one for each key,
and are undone from the last to the first. Neither depends on what a cipher
makes of a block in between.

Main statements: `foldr_foldl_undo`, `foldl_foldr_undo`,
`BlockCipher.lawful_of_state`.
-/
import GameArchive.Cipher.Mode

namespace GameArchive

-- ================================================================== sums

/-- What has been added is taken away by adding it again. -/
abbrev Cancels {α β : Type} (add : α → β → α) : Prop :=
  ∀ (x : α) (y : β), add (add x y) y = x

/-- Bytes are their own opposites, and so are words and bits. -/
theorem cancels_xor_byte : Cancels fun x y : UInt8 => x ^^^ y := by
  intro x y
  show (x ^^^ y) ^^^ y = x
  rw [UInt8.xor_assoc, UInt8.xor_self, UInt8.xor_zero]

theorem cancels_xor_word : Cancels fun x y : UInt32 => x ^^^ y := by
  intro x y
  show (x ^^^ y) ^^^ y = x
  rw [UInt32.xor_assoc, UInt32.xor_self, UInt32.xor_zero]

theorem cancels_xor_bit : Cancels Bool.xor := by
  decide

/-- What can be taken away from the entries of a vector can be taken away
from the vector. -/
theorem Cancels.vector {α : Type} {add : α → α → α} (h : Cancels add)
    (n : Nat) : Cancels fun v w : Vector α n => v.zipWith add w := by
  intro v w
  ext i hi
  rw [Vector.getElem_zipWith, Vector.getElem_zipWith, h]

/-- What can be taken away from an entry can be taken away from a list, if no
entry is left alone. -/
theorem Cancels.list {α : Type} {add : α → α → α} (h : Cancels add)
    {v w : List α} (hlength : v.length = w.length) :
    List.zipWith add (List.zipWith add v w) w = v := by
  induction v generalizing w with
  | nil => rfl
  | cons x v ih =>
      cases w with
      | nil => cases hlength
      | cons y w =>
          rw [List.zipWith_cons_cons, List.zipWith_cons_cons, h,
            ih (Nat.succ.inj hlength)]

-- ================================================================ rounds

section

variable {block key seen : Type} {round : block → key → block}

/-- Rounds are undone from the last to the first. The way back may go by
images of the blocks, such as the same blocks with their halves exchanged. -/
theorem foldr_foldl_undo {back : key → seen → seen} {e : block → seen}
    (h : ∀ (b : block) (k : key), back k (e (round b k)) = e b)
    (keys : List key) (b : block) :
    keys.foldr back (e (keys.foldl round b)) = e b := by
  induction keys generalizing b with
  | nil => rfl
  | cons k keys ih => rw [List.foldl_cons, List.foldr_cons, ih, h]

/-- Rounds redo what was undone from the last to the first. -/
theorem foldl_foldr_undo {back : key → block → block}
    (h : ∀ (b : block) (k : key), round (back k b) k = b)
    (keys : List key) (b : block) :
    keys.foldl round (keys.foldr back b) = b := by
  induction keys with
  | nil => rfl
  | cons k keys ih => rw [List.foldr_cons, List.foldl_cons, h, ih]

end

-- ================================================================ ciphers

/-- A cipher whose two directions map blocks to blocks and undo each
other. -/
structure BlockCipher.Lawful (c : BlockCipher) : Prop where
  length_encrypt : ∀ block, (c.encrypt block).length = c.blockSize
  length_decrypt : ∀ block, (c.decrypt block).length = c.blockSize
  decrypt_encrypt : ∀ {block : Bytes}, block.length = c.blockSize →
    c.decrypt (c.encrypt block) = block
  encrypt_decrypt : ∀ {block : Bytes}, block.length = c.blockSize →
    c.encrypt (c.decrypt block) = block

/-- A cipher that works on what blocks stand for is lawful if blocks stand
for nothing else, and if it is undone there. -/
theorem BlockCipher.lawful_of_state {state : Type} {size : Nat}
    {read : Bytes → state} {write : state → Bytes}
    {forth back : state → state}
    (hlength : ∀ s, (write s).length = size)
    (hread : ∀ s, read (write s) = s)
    (hwrite : ∀ {block : Bytes}, block.length = size →
      write (read block) = block)
    (hback : ∀ s, back (forth s) = s) (hforth : ∀ s, forth (back s) = s) :
    Lawful ⟨size, fun block => write (forth (read block)),
      fun block => write (back (read block))⟩ where
  length_encrypt _ := hlength _
  length_decrypt _ := hlength _
  decrypt_encrypt {block} h := by
    dsimp only
    rw [hread, hback, hwrite h]
  encrypt_decrypt {block} h := by
    dsimp only
    rw [hread, hforth, hwrite h]

end GameArchive
