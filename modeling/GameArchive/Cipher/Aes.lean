/-
The AES block cipher with keys of 16, 24 and 32 bytes.

A block is four columns of four bytes. A round substitutes each byte,
rotates the rows across the columns, mixes each column and adds a round
key; each of the four steps has its inverse beside it, and decryption is
the inverses in reverse order.
-/
import GameArchive.Cipher.Mode

namespace GameArchive.Aes

-- ================================================================= bytes

/-- Substitution of a byte. -/
def substitution : Array UInt8 := #[
  0x63, 0x7c, 0x77, 0x7b, 0xf2, 0x6b, 0x6f, 0xc5, 0x30, 0x01, 0x67, 0x2b,
  0xfe, 0xd7, 0xab, 0x76, 0xca, 0x82, 0xc9, 0x7d, 0xfa, 0x59, 0x47, 0xf0,
  0xad, 0xd4, 0xa2, 0xaf, 0x9c, 0xa4, 0x72, 0xc0, 0xb7, 0xfd, 0x93, 0x26,
  0x36, 0x3f, 0xf7, 0xcc, 0x34, 0xa5, 0xe5, 0xf1, 0x71, 0xd8, 0x31, 0x15,
  0x04, 0xc7, 0x23, 0xc3, 0x18, 0x96, 0x05, 0x9a, 0x07, 0x12, 0x80, 0xe2,
  0xeb, 0x27, 0xb2, 0x75, 0x09, 0x83, 0x2c, 0x1a, 0x1b, 0x6e, 0x5a, 0xa0,
  0x52, 0x3b, 0xd6, 0xb3, 0x29, 0xe3, 0x2f, 0x84, 0x53, 0xd1, 0x00, 0xed,
  0x20, 0xfc, 0xb1, 0x5b, 0x6a, 0xcb, 0xbe, 0x39, 0x4a, 0x4c, 0x58, 0xcf,
  0xd0, 0xef, 0xaa, 0xfb, 0x43, 0x4d, 0x33, 0x85, 0x45, 0xf9, 0x02, 0x7f,
  0x50, 0x3c, 0x9f, 0xa8, 0x51, 0xa3, 0x40, 0x8f, 0x92, 0x9d, 0x38, 0xf5,
  0xbc, 0xb6, 0xda, 0x21, 0x10, 0xff, 0xf3, 0xd2, 0xcd, 0x0c, 0x13, 0xec,
  0x5f, 0x97, 0x44, 0x17, 0xc4, 0xa7, 0x7e, 0x3d, 0x64, 0x5d, 0x19, 0x73,
  0x60, 0x81, 0x4f, 0xdc, 0x22, 0x2a, 0x90, 0x88, 0x46, 0xee, 0xb8, 0x14,
  0xde, 0x5e, 0x0b, 0xdb, 0xe0, 0x32, 0x3a, 0x0a, 0x49, 0x06, 0x24, 0x5c,
  0xc2, 0xd3, 0xac, 0x62, 0x91, 0x95, 0xe4, 0x79, 0xe7, 0xc8, 0x37, 0x6d,
  0x8d, 0xd5, 0x4e, 0xa9, 0x6c, 0x56, 0xf4, 0xea, 0x65, 0x7a, 0xae, 0x08,
  0xba, 0x78, 0x25, 0x2e, 0x1c, 0xa6, 0xb4, 0xc6, 0xe8, 0xdd, 0x74, 0x1f,
  0x4b, 0xbd, 0x8b, 0x8a, 0x70, 0x3e, 0xb5, 0x66, 0x48, 0x03, 0xf6, 0x0e,
  0x61, 0x35, 0x57, 0xb9, 0x86, 0xc1, 0x1d, 0x9e, 0xe1, 0xf8, 0x98, 0x11,
  0x69, 0xd9, 0x8e, 0x94, 0x9b, 0x1e, 0x87, 0xe9, 0xce, 0x55, 0x28, 0xdf,
  0x8c, 0xa1, 0x89, 0x0d, 0xbf, 0xe6, 0x42, 0x68, 0x41, 0x99, 0x2d, 0x0f,
  0xb0, 0x54, 0xbb, 0x16]

/-- The inverse of `substitution`. -/
def inverseSubstitution : Array UInt8 := #[
  0x52, 0x09, 0x6a, 0xd5, 0x30, 0x36, 0xa5, 0x38, 0xbf, 0x40, 0xa3, 0x9e,
  0x81, 0xf3, 0xd7, 0xfb, 0x7c, 0xe3, 0x39, 0x82, 0x9b, 0x2f, 0xff, 0x87,
  0x34, 0x8e, 0x43, 0x44, 0xc4, 0xde, 0xe9, 0xcb, 0x54, 0x7b, 0x94, 0x32,
  0xa6, 0xc2, 0x23, 0x3d, 0xee, 0x4c, 0x95, 0x0b, 0x42, 0xfa, 0xc3, 0x4e,
  0x08, 0x2e, 0xa1, 0x66, 0x28, 0xd9, 0x24, 0xb2, 0x76, 0x5b, 0xa2, 0x49,
  0x6d, 0x8b, 0xd1, 0x25, 0x72, 0xf8, 0xf6, 0x64, 0x86, 0x68, 0x98, 0x16,
  0xd4, 0xa4, 0x5c, 0xcc, 0x5d, 0x65, 0xb6, 0x92, 0x6c, 0x70, 0x48, 0x50,
  0xfd, 0xed, 0xb9, 0xda, 0x5e, 0x15, 0x46, 0x57, 0xa7, 0x8d, 0x9d, 0x84,
  0x90, 0xd8, 0xab, 0x00, 0x8c, 0xbc, 0xd3, 0x0a, 0xf7, 0xe4, 0x58, 0x05,
  0xb8, 0xb3, 0x45, 0x06, 0xd0, 0x2c, 0x1e, 0x8f, 0xca, 0x3f, 0x0f, 0x02,
  0xc1, 0xaf, 0xbd, 0x03, 0x01, 0x13, 0x8a, 0x6b, 0x3a, 0x91, 0x11, 0x41,
  0x4f, 0x67, 0xdc, 0xea, 0x97, 0xf2, 0xcf, 0xce, 0xf0, 0xb4, 0xe6, 0x73,
  0x96, 0xac, 0x74, 0x22, 0xe7, 0xad, 0x35, 0x85, 0xe2, 0xf9, 0x37, 0xe8,
  0x1c, 0x75, 0xdf, 0x6e, 0x47, 0xf1, 0x1a, 0x71, 0x1d, 0x29, 0xc5, 0x89,
  0x6f, 0xb7, 0x62, 0x0e, 0xaa, 0x18, 0xbe, 0x1b, 0xfc, 0x56, 0x3e, 0x4b,
  0xc6, 0xd2, 0x79, 0x20, 0x9a, 0xdb, 0xc0, 0xfe, 0x78, 0xcd, 0x5a, 0xf4,
  0x1f, 0xdd, 0xa8, 0x33, 0x88, 0x07, 0xc7, 0x31, 0xb1, 0x12, 0x10, 0x59,
  0x27, 0x80, 0xec, 0x5f, 0x60, 0x51, 0x7f, 0xa9, 0x19, 0xb5, 0x4a, 0x0d,
  0x2d, 0xe5, 0x7a, 0x9f, 0x93, 0xc9, 0x9c, 0xef, 0xa0, 0xe0, 0x3b, 0x4d,
  0xae, 0x2a, 0xf5, 0xb0, 0xc8, 0xeb, 0xbb, 0x3c, 0x83, 0x53, 0x99, 0x61,
  0x17, 0x2b, 0x04, 0x7e, 0xba, 0x77, 0xd6, 0x26, 0xe1, 0x69, 0x14, 0x63,
  0x55, 0x21, 0x0c, 0x7d]

/-- Substitutes a byte. -/
def substitute (x : UInt8) : UInt8 := substitution.getD x.toNat 0

/-- Undoes `substitute`. -/
def unsubstitute (x : UInt8) : UInt8 := inverseSubstitution.getD x.toNat 0

/-- Twice a byte in the field of 256 elements. -/
def double (x : UInt8) : UInt8 :=
  if x < 0x80 then x <<< 1 else (x <<< 1) ^^^ 0x1b

-- ======================================================== four of a kind

/-- Four of a kind: the bytes of a column, or the columns of a block. -/
structure Quad (α : Type) where
  a : α
  b : α
  c : α
  d : α
deriving DecidableEq, Inhabited

namespace Quad

variable {α : Type}

/-- The same function on each of the four. -/
def map (f : α → α) (x : Quad α) : Quad α := ⟨f x.a, f x.b, f x.c, f x.d⟩

/-- The same function on each pair of parts in the same place. -/
def zipWith (f : α → α → α) (x y : Quad α) : Quad α :=
  ⟨f x.a y.a, f x.b y.b, f x.c y.c, f x.d y.d⟩

end Quad

-- =============================================================== columns

/-- Four bytes: a column of a block or a word of a key. -/
abbrev Column := Quad UInt8

namespace Column

/-- The column that starts a byte string. -/
def ofBytes (data : Bytes) : Column :=
  ⟨data.getD 0 0, data.getD 1 0, data.getD 2 0, data.getD 3 0⟩

/-- The four bytes in order. -/
def toBytes (x : Column) : Bytes := [x.a, x.b, x.c, x.d]

/-- Byte by byte exclusive or. -/
def xor : Column → Column → Column := Quad.zipWith fun x y => x ^^^ y

/-- The first byte moved to the end. -/
def rotate (x : Column) : Column := ⟨x.b, x.c, x.d, x.a⟩

/-- The product with the mixing matrix, whose rows are the rotations of
2, 3, 1, 1. -/
def mix (x : Column) : Column :=
  let row (p q r s : UInt8) : UInt8 := double p ^^^ (double q ^^^ q) ^^^ r ^^^ s
  ⟨row x.a x.b x.c x.d, row x.b x.c x.d x.a, row x.c x.d x.a x.b, row x.d x.a x.b x.c⟩

/-- Undoes `mix`: the fourth power of the matrix is the identity, and its
square is the matrix of 5, 0, 4, 0, so its cube is the product of the two. -/
def unmix (x : Column) : Column :=
  let u := double (double (x.a ^^^ x.c))
  let v := double (double (x.b ^^^ x.d))
  mix ⟨x.a ^^^ u, x.b ^^^ v, x.c ^^^ u, x.d ^^^ v⟩

end Column

-- ================================================================ blocks

/-- The four columns of a block or of a round key. -/
abbrev State := Quad Column

namespace State

/-- The block that starts a byte string. -/
def ofBytes (data : Bytes) : State :=
  ⟨Column.ofBytes data, Column.ofBytes (data.drop 4), Column.ofBytes (data.drop 8),
   Column.ofBytes (data.drop 12)⟩

/-- The sixteen bytes in order. -/
def toBytes (s : State) : Bytes :=
  Column.toBytes s.a ++ Column.toBytes s.b ++ Column.toBytes s.c ++ Column.toBytes s.d

/-- Adds a round key. -/
def xor : State → State → State := Quad.zipWith Column.xor

/-- Row `i` rotated by `i` columns to the left. -/
def shiftRows (s : State) : State :=
  ⟨⟨s.a.a, s.b.b, s.c.c, s.d.d⟩, ⟨s.b.a, s.c.b, s.d.c, s.a.d⟩,
   ⟨s.c.a, s.d.b, s.a.c, s.b.d⟩, ⟨s.d.a, s.a.b, s.b.c, s.c.d⟩⟩

/-- Row `i` rotated by `i` columns to the right. -/
def unshiftRows (s : State) : State :=
  ⟨⟨s.a.a, s.d.b, s.c.c, s.b.d⟩, ⟨s.b.a, s.a.b, s.d.c, s.c.d⟩,
   ⟨s.c.a, s.b.b, s.a.c, s.d.d⟩, ⟨s.d.a, s.c.b, s.b.c, s.a.d⟩⟩

/-- Substitutes each byte and shifts the rows. -/
def scramble (s : State) : State := shiftRows (s.map (·.map substitute))

/-- Undoes `scramble`. -/
def unscramble (s : State) : State := s.unshiftRows.map (·.map unsubstitute)

/-- A full round: mixes the scrambled block and adds the round key. -/
def round (s key : State) : State := xor (s.scramble.map Column.mix) key

/-- Undoes `round`. -/
def unround (s key : State) : State := unscramble ((s.xor key).map Column.unmix)

end State

-- ========================================================== key schedule

/-- The round keys: one before the rounds, one for each full round, and one
for the last round, which does not mix. -/
structure KeySchedule where
  first : State
  middle : List State
  last : State

namespace KeySchedule

/-- The next word of the schedule of a key of `n` words. -/
def nextWord (n : Nat) (words : Array Column) : Column :=
  let i := words.size
  let previous := words.getD (i - 1) default
  let stirred :=
    if i % n = 0 then
      Column.xor (previous.rotate.map substitute) ⟨Nat.repeat double (i / n - 1) 1, 0, 0, 0⟩
    else if 6 < n ∧ i % n = 4 then previous.map substitute
    else previous
  (words.getD (i - n) default).xor stirred

/-- All words of the schedule of a key: four for each round key. -/
def expand (key : Bytes) : Array Column :=
  let n := key.length / 4
  (List.range (3 * n + 28)).foldl (fun words _ => words.push (nextWord n words))
    ((key.pieces 4 n).map Column.ofBytes).toArray

/-- The round keys of a key: six rounds more than it has words. -/
def ofKey (key : Bytes) : KeySchedule :=
  let words := expand key
  let word (i : Nat) : Column := words.getD i default
  let roundKey (r : Nat) : State :=
    ⟨word (4 * r), word (4 * r + 1), word (4 * r + 2), word (4 * r + 3)⟩
  let rounds := key.length / 4 + 6
  ⟨roundKey 0, (List.range (rounds - 1)).map fun r => roundKey (r + 1), roundKey rounds⟩

/-- Encrypts a block. -/
def encrypt (k : KeySchedule) (s : State) : State :=
  (k.middle.foldl State.round (s.xor k.first)).scramble.xor k.last

/-- Decrypts a block. -/
def decrypt (k : KeySchedule) (s : State) : State :=
  (k.middle.foldr (fun key t => t.unround key) (s.xor k.last).unscramble).xor k.first

end KeySchedule

/-- The cipher under a key of 16, 24 or 32 bytes. -/
def cipher (key : Bytes) : BlockCipher :=
  let schedule := KeySchedule.ofKey key
  { blockSize := 16
    encrypt := fun block => (schedule.encrypt (.ofBytes block)).toBytes
    decrypt := fun block => (schedule.decrypt (.ofBytes block)).toBytes }

end GameArchive.Aes
