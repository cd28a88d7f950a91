/-
Little-endian numbers in byte strings.

`ofNat width n` and `toNat` are the two directions, for any width; the
fixed-width readers and writers below are named for the fields they serve.
Main statements: a number that fits its width reads back, and a byte
string is the writing of the number it reads as.
-/
import GameArchive.Bytes

namespace GameArchive.Bytes

-- ============================================================ any width

/-- The `width` low bytes of a number, lowest first. -/
def ofNat : (width : Nat) → Nat → Bytes
  | 0, _ => []
  | width + 1, n => UInt8.ofNat n :: ofNat width (n / 256)

/-- The number whose bytes, lowest first, are these. -/
def toNat : Bytes → Nat
  | [] => 0
  | b :: rest => b.toNat + 256 * toNat rest

/-- A number is written in the width that it is given. -/
@[simp] theorem length_ofNat (width n : Nat) : (ofNat width n).length = width := by
  induction width generalizing n with
  | zero => rfl
  | succ width ih => simp [ofNat, ih]

/-- How many numbers fit into `width` bytes. -/
def capacity : (width : Nat) → Nat
  | 0 => 1
  | width + 1 => 256 * capacity width

/-- Writing keeps a number up to the width. -/
theorem toNat_ofNat (width n : Nat) : toNat (ofNat width n) = n % capacity width := by
  induction width generalizing n with
  | zero => simp [ofNat, toNat, capacity, Nat.mod_one]
  | succ width ih =>
    rw [ofNat, toNat, ih, capacity, Nat.mod_mul]
    simp

/-- A byte string is determined by its length and its number. -/
theorem ofNat_toNat (data : Bytes) : ofNat data.length (toNat data) = data := by
  induction data with
  | nil => rfl
  | cons b rest ih =>
    have hb : b.toNat < 256 := b.toNat_lt
    have hdiv : (b.toNat + 256 * toNat rest) / 256 = toNat rest := by omega
    have hlow : UInt8.ofNat (b.toNat + 256 * toNat rest) = b := by
      apply UInt8.toNat_inj.mp
      simp only [UInt8.toNat_ofNat']
      omega
    rw [List.length_cons, toNat, ofNat, hdiv, ih, hlow]

-- =========================================================== fixed width

/-- A 16-bit number in two bytes. -/
def ofUInt16 (x : UInt16) : Bytes := ofNat 2 x.toNat

/-- A 32-bit number in four bytes. -/
def ofUInt32 (x : UInt32) : Bytes := ofNat 4 x.toNat

/-- The byte at an offset. -/
def byteAt (data : Bytes) (offset : Nat) : UInt8 := data.getD offset 0

/-- The 16-bit number at an offset. -/
def u16At (data : Bytes) (offset : Nat) : UInt16 :=
  UInt16.ofNat (toNat (data.slice offset 2))

/-- The 32-bit number at an offset. -/
def u32At (data : Bytes) (offset : Nat) : UInt32 :=
  UInt32.ofNat (toNat (data.slice offset 4))

/-- The 32-bit number at an offset, if all its bytes are there. -/
def u32At? (data : Bytes) (offset : Nat) : Option UInt32 :=
  let word := data.slice offset 4
  if word.length = 4 then some (UInt32.ofNat (toNat word)) else none

/-- The signed 32-bit number at an offset. -/
def i32At (data : Bytes) (offset : Nat) : Int := (u32At data offset).toInt32.toInt

@[simp] theorem length_ofUInt16 (x : UInt16) : (ofUInt16 x).length = 2 := length_ofNat ..

@[simp] theorem length_ofUInt32 (x : UInt32) : (ofUInt32 x).length = 4 := length_ofNat ..

end GameArchive.Bytes
