/-
Text that is written as UTF-8 reads back.

The bytes of a text are those of its characters, one after the other, and
the reader is between characters after each. So it is enough to follow it
through the bytes of one character: the first byte tells how many are to
come and which bits it has, and the second is within the bounds that leave
out longer spellings, surrogates and what is no character.

Main statement: `ofBytes_ofString`.
-/
import GameArchive.Text.Lossy

namespace GameArchive

/-- A text is written character by character. -/
theorem Bytes.ofString_eq (text : String) :
    Bytes.ofString text = text.toList.flatMap String.utf8EncodeChar := by
  show text.toByteArray.data.toList = _
  rw [← String.utf8Encode_toList]
  simp [List.utf8Encode]

namespace Text

-- ============================================================== one byte

theorem toNat_byte {n : Nat} (h : n < 256) : (UInt8.ofNat n).toNat = n :=
  UInt8.toNat_ofNat_of_lt' h

/-- Bytes are the same if the numbers below 256 are. -/
theorem byte_eq_iff {n m : Nat} (hn : n < 256) (hm : m < 256) :
    UInt8.ofNat n = UInt8.ofNat m ↔ n = m := by
  rw [← UInt8.toNat_inj, toNat_byte hn, toNat_byte hm]

section

variable {x : Nat}

/-- A byte below 128 is a character, if none was begun. -/
theorem feed_one (h : x < 0x80) :
    feed none (UInt8.ofNat x) = ([Char.ofNat x], none) := by
  have hbyte := toNat_byte (n := x) (by omega)
  show begin (UInt8.ofNat x) = _
  simp only [begin, UInt8.lt_iff_toNat_lt, hbyte, UInt8.reduceToNat]
  rw [if_pos h]

/-- The first byte of two begins a character, and says how it goes on. -/
theorem feed_two (hlow : 2 ≤ x) (hhigh : x < 0x20) :
    feed none (UInt8.ofNat (x + 0xC0)) = ([], some ⟨1, x, 0x80, 0xBF⟩) := by
  have hbyte := toNat_byte (n := x + 0xC0) (by omega)
  show begin (UInt8.ofNat (x + 0xC0)) = _
  simp only [begin, UInt8.lt_iff_toNat_lt, hbyte, UInt8.reduceToNat]
  rw [if_neg (by omega), if_neg (by omega), if_pos (by omega),
    Nat.add_sub_cancel]

/-- The second byte after the lowest first one leaves out what has two
bytes, and after the last but two it leaves out surrogates. -/
theorem feed_three (h : x < 0x10) :
    feed none (UInt8.ofNat (x + 0xE0)) = ([], some ⟨2, x,
      if x = 0 then 0xA0 else 0x80, if x = 13 then 0x9F else 0xBF⟩) := by
  have hbyte := toNat_byte (n := x + 0xE0) (by omega)
  have hlowest : UInt8.ofNat (x + 0xE0) = 0xE0 ↔ x = 0 :=
    (byte_eq_iff (m := 0xE0) (by omega) (by decide)).trans (by omega)
  have hsurrogates : UInt8.ofNat (x + 0xE0) = 0xED ↔ x = 13 :=
    (byte_eq_iff (m := 0xED) (by omega) (by decide)).trans (by omega)
  show begin (UInt8.ofNat (x + 0xE0)) = _
  simp only [begin, UInt8.lt_iff_toNat_lt, hbyte, UInt8.reduceToNat,
    hlowest, hsurrogates]
  rw [if_neg (by omega), if_neg (by omega), if_neg (by omega),
    if_pos (by omega), Nat.add_sub_cancel]

/-- The second byte after the lowest first one leaves out what has three
bytes, and after the last what is no character. -/
theorem feed_four (h : x < 5) :
    feed none (UInt8.ofNat (x + 0xF0)) = ([], some ⟨3, x,
      if x = 0 then 0x90 else 0x80, if x = 4 then 0x8F else 0xBF⟩) := by
  have hbyte := toNat_byte (n := x + 0xF0) (by omega)
  have hlowest : UInt8.ofNat (x + 0xF0) = 0xF0 ↔ x = 0 :=
    (byte_eq_iff (m := 0xF0) (by omega) (by decide)).trans (by omega)
  have hlast : UInt8.ofNat (x + 0xF0) = 0xF4 ↔ x = 4 :=
    (byte_eq_iff (m := 0xF4) (by omega) (by decide)).trans (by omega)
  show begin (UInt8.ofNat (x + 0xF0)) = _
  simp only [begin, UInt8.lt_iff_toNat_lt, hbyte, UInt8.reduceToNat,
    hlowest, hlast]
  rw [if_neg (by omega), if_neg (by omega), if_neg (by omega),
    if_neg (by omega), if_pos (by omega), Nat.add_sub_cancel]

/-- A further byte within the bounds, if more are to come. -/
theorem feed_more (missing : Nat) {bits : Nat} {low high : UInt8}
    (hx : x < 0x40)
    (hlow : low.toNat ≤ x + 0x80) (hhigh : x + 0x80 ≤ high.toNat) :
    feed (some ⟨missing + 2, bits, low, high⟩) (UInt8.ofNat (x + 0x80))
      = ([], some ⟨missing + 1, 64 * bits + x, 0x80, 0xBF⟩) := by
  have hbyte := toNat_byte (n := x + 0x80) (by omega)
  unfold feed
  simp only [UInt8.le_iff_toNat_le, hbyte]
  rw [if_pos ⟨hlow, hhigh⟩, if_neg (by omega), Nat.add_sub_cancel]
  rfl

/-- The last byte. -/
theorem feed_last (bits : Nat) (hx : x < 0x40) :
    feed (some ⟨1, bits, 0x80, 0xBF⟩) (UInt8.ofNat (x + 0x80))
      = ([Char.ofNat (64 * bits + x)], none) := by
  have hbyte := toNat_byte (n := x + 0x80) (by omega)
  unfold feed
  simp only [UInt8.le_iff_toNat_le, hbyte, UInt8.reduceToNat]
  rw [if_pos ⟨by omega, by omega⟩, if_pos (Nat.le_refl 1),
    Nat.add_sub_cancel]

end

-- ========================================================= one character

/-- Decoding goes on with what the byte has left open. -/
theorem decodeFrom_cons {open? next : Option Pending} {b : UInt8}
    {chars : List Char} (h : feed open? b = (chars, next)) (rest : Bytes) :
    decodeFrom open? (b :: rest) = chars ++ decodeFrom next rest := by
  have hstep : decodeFrom open? (b :: rest)
      = (feed open? b).1 ++ decodeFrom (feed open? b).2 rest := by
    cases open? <;> rfl
  rw [hstep, h]

/-- The bytes of a character are read as this character. -/
theorem decodeFrom_utf8EncodeChar (c : Char) (rest : Bytes) :
    decodeFrom none (String.utf8EncodeChar c ++ rest)
      = c :: decodeFrom none rest := by
  have hvalid : c.val.toNat < 0xD800
      ∨ (0xDFFF < c.val.toNat ∧ c.val.toNat < 0x110000) := c.valid
  have hchar : Char.ofNat c.val.toNat = c := Char.ofNat_toNat c
  unfold String.utf8EncodeChar
  generalize c.val.toNat = v at hvalid hchar
  dsimp only
  -- One, two, three or four bytes, by the bounds of the encoding. In each case
  -- the bits that were put into them are put together again.
  split
  case isTrue hone =>
      rw [List.singleton_append, decodeFrom_cons (feed_one (by omega)), hchar]
      rfl
  split
  case isTrue htwo =>
      have hbits : 64 * (v / 64 % 0x20) + v % 0x40 = v := by omega
      rw [List.cons_append, List.singleton_append,
        decodeFrom_cons (feed_two (by omega) (by omega)),
        decodeFrom_cons (feed_last _ (by omega)), hbits, hchar]
      rfl
  split
  case isTrue hthree =>
      have hbits : 64 * (64 * (v / 4096 % 0x10) + v / 64 % 0x40) + v % 0x40
          = v := by
        omega
      rw [List.cons_append, List.cons_append, List.singleton_append,
        decodeFrom_cons (feed_three (by omega)),
        decodeFrom_cons (feed_more 0 (by omega) ?_ ?_),
        decodeFrom_cons (feed_last _ (by omega)), hbits, hchar]
      · rfl
      · split <;> simp only [UInt8.reduceToNat] <;> omega
      · split <;> simp only [UInt8.reduceToNat] <;> omega
  case isFalse hfour =>
      have hbits : 64 * (64 * (64 * (v / 262144 % 0x08) + v / 4096 % 0x40)
          + v / 64 % 0x40) + v % 0x40 = v := by
        omega
      rw [List.cons_append, List.cons_append, List.cons_append,
        List.singleton_append, decodeFrom_cons (feed_four (by omega)),
        decodeFrom_cons (feed_more 1 (by omega) ?_ ?_),
        decodeFrom_cons (feed_more 0 (by omega) ?_ ?_),
        decodeFrom_cons (feed_last _ (by omega)), hbits, hchar]
      · rfl
      · simp only [UInt8.reduceToNat]
        omega
      · simp only [UInt8.reduceToNat]
        omega
      · split <;> simp only [UInt8.reduceToNat] <;> omega
      · split <;> simp only [UInt8.reduceToNat] <;> omega

/-- Only one character has a zero byte, the zero itself. -/
theorem ne_zero_of_mem_utf8EncodeChar {c : Char} (hc : c ≠ '\x00')
    {b : UInt8} (hb : b ∈ String.utf8EncodeChar c) : b ≠ 0 := by
  have hnonzero : c.val.toNat ≠ 0 := fun hzero =>
    hc (Char.toNat_inj.mp hzero)
  have hbyte : ∀ {n : Nat}, n < 256 → n ≠ 0 → UInt8.ofNat n ≠ 0 :=
    fun hlt hne heq => hne ((byte_eq_iff hlt (by decide)).mp heq)
  unfold String.utf8EncodeChar at hb
  generalize c.val.toNat = v at hnonzero hb
  dsimp only at hb
  split at hb
  case isTrue hone =>
      rw [List.mem_singleton.mp hb]
      exact hbyte (by omega) hnonzero
  -- Of two bytes or more, the first has its highest bits set, and so has
  -- every further one.
  split at hb
  case isTrue =>
      simp only [List.mem_cons, List.not_mem_nil, or_false] at hb
      rcases hb with rfl | rfl <;> exact hbyte (by omega) (by omega)
  split at hb
  case isTrue =>
      simp only [List.mem_cons, List.not_mem_nil, or_false] at hb
      rcases hb with rfl | rfl | rfl <;> exact hbyte (by omega) (by omega)
  case isFalse =>
      simp only [List.mem_cons, List.not_mem_nil, or_false] at hb
      rcases hb with rfl | rfl | rfl | rfl <;>
        exact hbyte (by omega) (by omega)

/-- The bytes of a text are read as this text. -/
theorem ofBytes_ofString (text : String) :
    ofBytes (Bytes.ofString text) = text := by
  have hchars : ∀ chars : List Char,
      decodeFrom none (chars.flatMap String.utf8EncodeChar) = chars := by
    intro chars
    induction chars with
    | nil => rfl
    | cons c chars ih =>
        rw [List.flatMap_cons, decodeFrom_utf8EncodeChar, ih]
  unfold ofBytes
  rw [Bytes.ofString_eq, hchars, String.ofList_toList]

end Text
end GameArchive
