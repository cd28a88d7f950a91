/-
Texts in the order of their bytes.

The first byte of a character tells how many bytes it has, and it grows with
that number; the other bits follow from the highest to the lowest. So where
the bytes of two characters first differ, the lesser character has the
lesser byte, and texts that come one after the other by their characters do
so by their bytes.

Main statement: `before_of_lt`.
-/
import GameArchive.Proofs.Text.Utf8

namespace GameArchive

/-- Whether bytes come before others: they have the lesser byte where both
first differ, or end there. -/
def Bytes.Before : Bytes → Bytes → Prop :=
  List.Lex fun x y => x.toNat < y.toNat

namespace Text

open Bytes (Before)

/-- The order of byte strings ignores what they have in common in front. -/
theorem before_append {front back back' : Bytes} (h : Before back back') :
    Before (front ++ back) (front ++ back') := by
  induction front with
  | nil => exact h
  | cons byte front ih => exact .cons ih

theorem before_of_first {x y : Nat} {l m : Bytes} (hy : y < 256)
    (hlt : x < y) : Before (UInt8.ofNat x :: l) (UInt8.ofNat y :: m) := by
  apply List.Lex.rel
  rw [toNat_byte (Nat.lt_trans hlt hy), toNat_byte hy]
  exact hlt

/-- The first byte decides unless it is the same, and then the rest does. -/
theorem before_cons {x y : Nat} {l m : Bytes} (hy : y < 256) (hle : x ≤ y)
    (hrest : x = y → Before l m) :
    Before (UInt8.ofNat x :: l) (UInt8.ofNat y :: m) := by
  rcases Nat.lt_or_eq_of_le hle with hlt | rfl
  · exact before_of_first hy hlt
  · exact .cons (hrest rfl)

/-- The bytes of a lesser character come before those of a greater one,
whatever follows. -/
theorem before_of_char_lt {c d : Char} (h : c < d) (u v : Bytes) :
    Before (String.utf8EncodeChar c ++ u) (String.utf8EncodeChar d ++ v) := by
  have hvalid : d.val.toNat < 0xD800
      ∨ (0xDFFF < d.val.toNat ∧ d.val.toNat < 0x110000) := d.valid
  have hlt : c.val.toNat < d.val.toNat := UInt32.lt_iff_toNat_lt.mp h
  unfold String.utf8EncodeChar
  generalize c.val.toNat = n at hlt
  generalize d.val.toNat = m at hlt hvalid
  dsimp only
  -- The greater character has at least as many bytes. If it has more, its
  -- first byte is greater; if not, the bytes are compared one by one.
  split
  case isTrue hone =>
      split
      · exact before_of_first (by omega) (by omega)
      split
      · exact before_of_first (by omega) (by omega)
      split <;> exact before_of_first (by omega) (by omega)
  rw [if_neg (by omega : ¬ m ≤ 127)]
  split
  case isTrue htwo =>
      split
      · refine before_cons (by omega) (by omega) fun hfirst => ?_
        exact before_of_first (by omega) (by omega)
      split <;> exact before_of_first (by omega) (by omega)
  rw [if_neg (by omega : ¬ m ≤ 2047)]
  split
  case isTrue hthree =>
      split
      · refine before_cons (by omega) (by omega) fun hfirst => ?_
        refine before_cons (by omega) (by omega) fun hsecond => ?_
        exact before_of_first (by omega) (by omega)
      · exact before_of_first (by omega) (by omega)
  case isFalse hfour =>
      rw [if_neg (by omega : ¬ m ≤ 65535)]
      refine before_cons (by omega) (by omega) fun hfirst => ?_
      refine before_cons (by omega) (by omega) fun hsecond => ?_
      refine before_cons (by omega) (by omega) fun hthird => ?_
      exact before_of_first (by omega) (by omega)

/-- The order of characters is that of their bytes: an encoding of a larger
character has a larger byte where the two first differ. -/
theorem before_of_lex {chars chars' : List Char}
    (h : List.Lex (· < ·) chars chars') :
    Before (chars.flatMap String.utf8EncodeChar)
      (chars'.flatMap String.utf8EncodeChar) := by
  induction h with
  | @nil c rest =>
      obtain ⟨byte, bytes, hbytes⟩ := List.exists_cons_of_ne_nil
        (String.utf8EncodeChar_ne_nil (c := c))
      rw [List.flatMap_cons, hbytes]
      exact .nil
  | rel hlt => exact before_of_char_lt hlt _ _
  | cons _ ih => exact before_append ih

/-- A text that is less than another has the bytes that come before. -/
theorem before_of_lt {s t : String} (h : s < t) :
    Before (Bytes.ofString s) (Bytes.ofString t) := by
  rw [Bytes.ofString_eq, Bytes.ofString_eq]
  exact before_of_lex (List.lex_lt.mpr (String.lt_iff.mp h))

end Text
end GameArchive
