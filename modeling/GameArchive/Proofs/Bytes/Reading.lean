/-
Reading fields where they were written.

A header is written as fields one behind the other and read by offset.
Each reader therefore has two kinds of lemmas: what it reads at the start
of a field of its kind, and that an offset behind a field is an offset in
what follows the field. As simplification rules they walk from any literal
offset to its field, so a header codec needs no arithmetic of its own. The
other way round, a number that was read is written as the slice it was read
from.
-/
import GameArchive.Bytes.LittleEndian

namespace GameArchive.Bytes

variable {a : Bytes} {n : Nat}

-- =============================================================== slices

@[simp] theorem length_zeros (count : Nat) : (zeros count).length = count :=
  List.length_replicate

/-- A slice is as long as it should be, or as what is left of the data. -/
theorem length_slice (data : Bytes) (offset length : Nat) :
    (data.slice offset length).length
      = min length (data.length - offset) := by
  unfold slice
  rw [List.length_take, List.length_drop]

/-- A place that is counted from before some bytes is a place behind them; all
reads below are moved by this. -/
theorem drop_behind (ha : a.length = n) (b : Bytes) (k : Nat) :
    (a ++ b).drop (n + k) = b.drop k := by
  rw [← ha, ← List.drop_drop, List.drop_left]

/-- A slice behind some bytes is a slice of what follows them. -/
theorem slice_behind (ha : a.length = n) (b : Bytes) (k length : Nat) :
    (a ++ b).slice (n + k) length = b.slice k length := by
  unfold slice
  rw [drop_behind ha]

theorem slice_head (ha : a.length = n) (b : Bytes) :
    (a ++ b).slice 0 n = a := by
  unfold slice
  rw [List.drop_zero, ← ha, List.take_left]

/-- What stands between two others is found behind the first of them. -/
theorem slice_middle (a b c : Bytes) :
    (a ++ (b ++ c)).slice a.length b.length = b :=
  (slice_behind rfl (b ++ c) 0 b.length).trans (slice_head rfl c)

/-- Whatever follows, data begin with what they were put behind. -/
theorem startsWith_append (head rest : Bytes) :
    (head ++ rest).startsWith head = true :=
  List.isPrefixOf_iff_prefix.mpr (List.prefix_append head rest)

-- ========================================================= up to a zero

/-- Without a zero, nothing is cut off. -/
theorem beforeZero_eq_self {data : Bytes} (h : ∀ b ∈ data, b ≠ 0) :
    data.beforeZero = data := by
  have htake := @List.takeWhile_append_of_pos _ (· != 0) data []
    fun b hb => bne_iff_ne.mpr (h b hb)
  simpa [beforeZero] using htake

/-- Data end at their first zero, whatever is behind it. -/
theorem beforeZero_append_zero {data : Bytes} (h : ∀ b ∈ data, b ≠ 0)
    (rest : Bytes) : (data ++ 0 :: rest).beforeZero = data := by
  have htake := @List.takeWhile_append_of_pos _ (· != 0) data (0 :: rest)
    fun b hb => bne_iff_ne.mpr (h b hb)
  exact htake.trans (List.append_nil data)

/-- Zeros behind data never count as data. -/
theorem beforeZero_append_zeros (data : Bytes) (count : Nat) :
    (data ++ zeros count).beforeZero = data.beforeZero := by
  unfold beforeZero
  induction data with
  | nil => cases count <;> rfl
  | cons b data ih =>
      rw [List.cons_append, List.takeWhile_cons, List.takeWhile_cons, ih]

-- ============================================================== numbers

/-- A field behind some bytes is a field of what follows them; this is for
words. -/
theorem u32At_behind (ha : a.length = n) (b : Bytes) (k : Nat) :
    (a ++ b).u32At (n + k) = b.u32At k := by
  unfold u32At
  rw [slice_behind ha]

/-- Halves of words are read behind some bytes like words. -/
theorem u16At_behind (ha : a.length = n) (b : Bytes) (k : Nat) :
    (a ++ b).u16At (n + k) = b.u16At k := by
  unfold u16At
  rw [slice_behind ha]

theorem i32At_behind (ha : a.length = n) (b : Bytes) (k : Nat) :
    (a ++ b).i32At (n + k) = b.i32At k := by
  unfold i32At
  rw [u32At_behind ha]

theorem byteAt_behind (ha : a.length = n) (b : Bytes) (k : Nat) :
    (a ++ b).byteAt (n + k) = b.byteAt k := by
  unfold byteAt
  rw [List.getD_eq_getElem?_getD,
    List.getElem?_append_right (by omega), ha, Nat.add_sub_cancel_left,
    ← List.getD_eq_getElem?_getD]

/-- A number that was written as a word is read modulo 2^32. -/
theorem u32At_ofNat (m : Nat) (rest : Bytes) :
    (ofNat 4 m ++ rest).u32At 0 = UInt32.ofNat m := by
  unfold u32At
  rw [slice_head (length_ofNat 4 m), toNat_ofNat]
  exact UInt32.ofNat_mod_size

/-- A number that was written as half a word is read modulo 2^16. -/
theorem u16At_ofNat (m : Nat) (rest : Bytes) :
    (ofNat 2 m ++ rest).u16At 0 = UInt16.ofNat m := by
  unfold u16At
  rw [slice_head (length_ofNat 2 m), toNat_ofNat]
  exact UInt16.ofNat_mod_size

/-- A word that lies inside the data is there. -/
theorem u32At?_eq_some {data : Bytes} {offset : Nat}
    (h : offset + 4 ≤ data.length) :
    data.u32At? offset = some (data.u32At offset) := by
  unfold u32At?
  dsimp only
  rw [if_pos (by rw [length_slice]; omega)]
  rfl

/-- A signed number that fits reads back. -/
theorem i32At_ofNat {c : Int} (hlow : -0x80000000 ≤ c)
    (hhigh : c < 0x80000000) (rest : Bytes) :
    (ofNat 4 (c % 0x100000000).toNat ++ rest).i32At 0 = c := by
  have hsigned : (UInt32.ofNat (c % 0x100000000).toNat).toInt32.toInt
      = Int.bmod ((c % 0x100000000).toNat % 0x100000000 : Nat)
          0x100000000 := by
    refine (BitVec.toInt_eq_toNat_bmod _).trans ?_
    exact congrArg (fun m : Nat => Int.bmod m 0x100000000)
      UInt32.toNat_ofNat'
  unfold i32At
  rw [u32At_ofNat, hsigned, Int.bmod_def]
  omega

/-- A number below the sign bit is the same signed. -/
theorem toInt_ofNat {m : Nat} (h : m < 0x80000000) :
    (UInt32.ofNat m).toInt32.toInt = m := by
  have hread := i32At_ofNat (c := m) (by omega) (by omega) []
  rw [Int.emod_eq_of_lt (by omega) (by omega), Int.toNat_natCast] at hread
  unfold i32At at hread
  rwa [u32At_ofNat] at hread

/-- A signed word is within the bounds of its width. -/
theorem i32At_bounds (data : Bytes) (offset : Nat) :
    -0x80000000 ≤ data.i32At offset ∧ data.i32At offset < 0x80000000 :=
  ⟨Int32.le_toInt _, Int32.toInt_lt _⟩

/-- A word that was written first is read first. -/
@[simp] theorem u32At_head (x : UInt32) (rest : Bytes) :
    (ofUInt32 x ++ rest).u32At 0 = x :=
  (u32At_ofNat x.toNat rest).trans UInt32.ofNat_toNat

/-- Half a word that was written first is read first. -/
@[simp] theorem u16At_head (x : UInt16) (rest : Bytes) :
    (ofUInt16 x ++ rest).u16At 0 = x :=
  (u16At_ofNat x.toNat rest).trans UInt16.ofNat_toNat

/-- A byte string is a number below the capacity of its length. -/
theorem toNat_lt_capacity (data : Bytes) :
    data.toNat < capacity data.length := by
  induction data with
  | nil => exact Nat.one_pos
  | cons b rest ih =>
      have hlt := b.toNat_lt
      show b.toNat + 256 * toNat rest < 256 * capacity rest.length
      omega

-- Written, a number is the bytes that it was read from.
section

variable {data : Bytes} {offset : Nat}

/-- A field inside the data is a number of its width, and is written as it
stands there. -/
theorem ofNat_toNat_slice {width : Nat} (h : offset + width ≤ data.length) :
    (data.slice offset width).toNat < capacity width
      ∧ ofNat width (data.slice offset width).toNat
        = data.slice offset width := by
  have hlength : (data.slice offset width).length = width := by
    rw [length_slice]
    omega
  have hlt := toNat_lt_capacity (data.slice offset width)
  have hwhole := ofNat_toNat (data.slice offset width)
  rw [hlength] at hlt hwhole
  exact ⟨hlt, hwhole⟩

/-- A word is written as the four bytes that it was read from. -/
theorem ofUInt32_u32At_slice (h : offset + 4 ≤ data.length) :
    ofUInt32 (data.u32At offset) = data.slice offset 4 := by
  obtain ⟨hlt, hwhole⟩ := ofNat_toNat_slice h
  unfold ofUInt32 u32At
  rw [UInt32.toNat_ofNat_of_lt' hlt, hwhole]

/-- Half a word is written as the two bytes that it was read from. -/
theorem ofUInt16_u16At_slice (h : offset + 2 ≤ data.length) :
    ofUInt16 (data.u16At offset) = data.slice offset 2 := by
  obtain ⟨hlt, hwhole⟩ := ofNat_toNat_slice h
  unfold ofUInt16 u16At
  rw [UInt16.toNat_ofNat_of_lt' hlt, hwhole]

end

/-- The first word is written as the first four bytes. -/
theorem ofUInt32_u32At {data : Bytes} (h : 4 ≤ data.length) :
    ofUInt32 (data.u32At 0) = data.take 4 :=
  ofUInt32_u32At_slice (by omega)

/-- Only one word is written as the first four bytes. -/
theorem ofUInt32_eq_take_iff {data : Bytes} (h : 4 ≤ data.length)
    (x : UInt32) : ofUInt32 x = data.take 4 ↔ x = data.u32At 0 := by
  rw [← ofUInt32_u32At h]
  constructor
  · intro heq
    rw [← u32At_head x [], heq, u32At_head]
  · intro heq
    rw [heq]

/-- Reading a word skips the fields before it one by one. So it is for all
widths of the fields that are read and of those that are skipped: the lemmas
below are what unfolds the reading of a header that was written field by
field. -/
@[simp] theorem u32At_behind_word (x : UInt32) (rest : Bytes) (k : Nat) :
    (ofUInt32 x ++ rest).u32At (k + 4) = rest.u32At k := by
  rw [Nat.add_comm, u32At_behind (length_ofUInt32 x)]

@[simp] theorem u32At_behind_byte (x : UInt8) (rest : Bytes) (k : Nat) :
    u32At (x :: rest) (k + 1) = rest.u32At k := by
  rw [Nat.add_comm, ← List.singleton_append]
  exact u32At_behind rfl rest k

@[simp] theorem u32At_behind_half (x : UInt16) (rest : Bytes) (k : Nat) :
    (ofUInt16 x ++ rest).u32At (k + 2) = rest.u32At k := by
  rw [Nat.add_comm, u32At_behind (length_ofUInt16 x)]

@[simp] theorem u16At_behind_word (x : UInt32) (rest : Bytes) (k : Nat) :
    (ofUInt32 x ++ rest).u16At (k + 4) = rest.u16At k := by
  rw [Nat.add_comm, u16At_behind (length_ofUInt32 x)]

@[simp] theorem u16At_behind_half (x : UInt16) (rest : Bytes) (k : Nat) :
    (ofUInt16 x ++ rest).u16At (k + 2) = rest.u16At k := by
  rw [Nat.add_comm, u16At_behind (length_ofUInt16 x)]

@[simp] theorem byteAt_head (x : UInt8) (rest : Bytes) :
    byteAt (x :: rest) 0 = x := rfl

@[simp] theorem byteAt_behind_byte (x : UInt8) (rest : Bytes) (k : Nat) :
    byteAt (x :: rest) (k + 1) = rest.byteAt k := rfl

@[simp] theorem byteAt_behind_word (x : UInt32) (rest : Bytes) (k : Nat) :
    (ofUInt32 x ++ rest).byteAt (k + 4) = rest.byteAt k := by
  rw [Nat.add_comm, byteAt_behind (length_ofUInt32 x)]

@[simp] theorem byteAt_behind_half (x : UInt16) (rest : Bytes) (k : Nat) :
    (ofUInt16 x ++ rest).byteAt (k + 2) = rest.byteAt k := by
  rw [Nat.add_comm, byteAt_behind (length_ofUInt16 x)]

end GameArchive.Bytes
