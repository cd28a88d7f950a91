/-
The DES block cipher.

Blocks, halves and keys are vectors of bits, the first bit of a byte being
its highest. A permutation is a table that names, for each bit of its
result, the bit it takes; the sixteen rounds are a fold over the round keys,
and decryption is the same fold over the keys in reverse order.
-/
import GameArchive.Cipher.Mode

namespace GameArchive.Des

-- ================================================================== bits

/-- `n` bits, the highest first. -/
abbrev Bits (n : Nat) := Vector Bool n

/-- The bits that a table picks. -/
def Bits.pick {m n : Nat} (v : Bits m) (table : Vector (Fin m) n) : Bits n :=
  table.map fun i => v[i]

/-- Bit by bit exclusive or. -/
def Bits.xor {n : Nat} (v w : Bits n) : Bits n := Vector.zipWith Bool.xor v w

/-- The bits of the eight bytes that start a byte string. -/
def Bits.ofBytes (data : Bytes) : Bits 64 :=
  Vector.ofFn fun i => (data.getD (i.val / 8) 0).toNat.testBit (7 - i.val % 8)

/-- The number written by `count` bits from `start` on. -/
def Bits.number {n : Nat} (v : Bits n) (start count : Nat) : Nat :=
  (List.range count).foldl (fun sum i => 2 * sum + (v.getD (start + i) false).toNat) 0

/-- The eight bytes of a block. -/
def Bits.toBytes (v : Bits 64) : Bytes :=
  (List.range 8).map fun i => UInt8.ofNat (v.number (8 * i) 8)

-- ================================================================ tables

/-- The permutation before the rounds. -/
def initialPermutation : Vector (Fin 64) 64 := #v[
  57, 49, 41, 33, 25, 17, 9, 1, 59, 51, 43, 35, 27, 19, 11, 3,
  61, 53, 45, 37, 29, 21, 13, 5, 63, 55, 47, 39, 31, 23, 15, 7,
  56, 48, 40, 32, 24, 16, 8, 0, 58, 50, 42, 34, 26, 18, 10, 2,
  60, 52, 44, 36, 28, 20, 12, 4, 62, 54, 46, 38, 30, 22, 14, 6]

/-- The permutation after the rounds, the inverse of the initial one. -/
def finalPermutation : Vector (Fin 64) 64 := #v[
  39, 7, 47, 15, 55, 23, 63, 31, 38, 6, 46, 14, 54, 22, 62, 30,
  37, 5, 45, 13, 53, 21, 61, 29, 36, 4, 44, 12, 52, 20, 60, 28,
  35, 3, 43, 11, 51, 19, 59, 27, 34, 2, 42, 10, 50, 18, 58, 26,
  33, 1, 41, 9, 49, 17, 57, 25, 32, 0, 40, 8, 48, 16, 56, 24]

/-- Each group of four bits of a half with its two neighbours. -/
def expansion : Vector (Fin 32) 48 := #v[
  31, 0, 1, 2, 3, 4, 3, 4, 5, 6, 7, 8,
  7, 8, 9, 10, 11, 12, 11, 12, 13, 14, 15, 16,
  15, 16, 17, 18, 19, 20, 19, 20, 21, 22, 23, 24,
  23, 24, 25, 26, 27, 28, 27, 28, 29, 30, 31, 0]

/-- The permutation after the substitution. -/
def roundPermutation : Vector (Fin 32) 32 := #v[
  15, 6, 19, 20, 28, 11, 27, 16, 0, 14, 22, 25, 4, 17, 30, 9,
  1, 7, 23, 13, 31, 26, 2, 8, 18, 12, 29, 5, 21, 10, 3, 24]

/-- The key bits that count; the last bit of each byte does not. -/
def keyChoice : Vector (Fin 64) 56 := #v[
  56, 48, 40, 32, 24, 16, 8, 0, 57, 49, 41, 33, 25, 17,
  9, 1, 58, 50, 42, 34, 26, 18, 10, 2, 59, 51, 43, 35,
  62, 54, 46, 38, 30, 22, 14, 6, 61, 53, 45, 37, 29, 21,
  13, 5, 60, 52, 44, 36, 28, 20, 12, 4, 27, 19, 11, 3]

/-- The bits of a rotated key that make a round key. -/
def roundKeyChoice : Vector (Fin 56) 48 := #v[
  13, 16, 10, 23, 0, 4, 2, 27, 14, 5, 20, 9,
  22, 18, 11, 3, 25, 7, 15, 6, 26, 19, 12, 1,
  40, 51, 30, 36, 46, 54, 29, 39, 50, 44, 32, 47,
  43, 48, 38, 55, 33, 52, 45, 41, 49, 35, 28, 31]

/-- How far the two halves of the key are rotated before each round. -/
def keyRotations : List Nat := [1, 1, 2, 2, 2, 2, 2, 2, 1, 2, 2, 2, 2, 2, 2, 1]

/-- Substitution of six bits by four, by row (the outer bits) and column
(the inner bits). -/
def substitutions : Array (Array Nat) := #[
  #[14, 4, 13, 1, 2, 15, 11, 8, 3, 10, 6, 12, 5, 9, 0, 7,
    0, 15, 7, 4, 14, 2, 13, 1, 10, 6, 12, 11, 9, 5, 3, 8,
    4, 1, 14, 8, 13, 6, 2, 11, 15, 12, 9, 7, 3, 10, 5, 0,
    15, 12, 8, 2, 4, 9, 1, 7, 5, 11, 3, 14, 10, 0, 6, 13],
  #[15, 1, 8, 14, 6, 11, 3, 4, 9, 7, 2, 13, 12, 0, 5, 10,
    3, 13, 4, 7, 15, 2, 8, 14, 12, 0, 1, 10, 6, 9, 11, 5,
    0, 14, 7, 11, 10, 4, 13, 1, 5, 8, 12, 6, 9, 3, 2, 15,
    13, 8, 10, 1, 3, 15, 4, 2, 11, 6, 7, 12, 0, 5, 14, 9],
  #[10, 0, 9, 14, 6, 3, 15, 5, 1, 13, 12, 7, 11, 4, 2, 8,
    13, 7, 0, 9, 3, 4, 6, 10, 2, 8, 5, 14, 12, 11, 15, 1,
    13, 6, 4, 9, 8, 15, 3, 0, 11, 1, 2, 12, 5, 10, 14, 7,
    1, 10, 13, 0, 6, 9, 8, 7, 4, 15, 14, 3, 11, 5, 2, 12],
  #[7, 13, 14, 3, 0, 6, 9, 10, 1, 2, 8, 5, 11, 12, 4, 15,
    13, 8, 11, 5, 6, 15, 0, 3, 4, 7, 2, 12, 1, 10, 14, 9,
    10, 6, 9, 0, 12, 11, 7, 13, 15, 1, 3, 14, 5, 2, 8, 4,
    3, 15, 0, 6, 10, 1, 13, 8, 9, 4, 5, 11, 12, 7, 2, 14],
  #[2, 12, 4, 1, 7, 10, 11, 6, 8, 5, 3, 15, 13, 0, 14, 9,
    14, 11, 2, 12, 4, 7, 13, 1, 5, 0, 15, 10, 3, 9, 8, 6,
    4, 2, 1, 11, 10, 13, 7, 8, 15, 9, 12, 5, 6, 3, 0, 14,
    11, 8, 12, 7, 1, 14, 2, 13, 6, 15, 0, 9, 10, 4, 5, 3],
  #[12, 1, 10, 15, 9, 2, 6, 8, 0, 13, 3, 4, 14, 7, 5, 11,
    10, 15, 4, 2, 7, 12, 9, 5, 6, 1, 13, 14, 0, 11, 3, 8,
    9, 14, 15, 5, 2, 8, 12, 3, 7, 0, 4, 10, 1, 13, 11, 6,
    4, 3, 2, 12, 9, 5, 15, 10, 11, 14, 1, 7, 6, 0, 8, 13],
  #[4, 11, 2, 14, 15, 0, 8, 13, 3, 12, 9, 7, 5, 10, 6, 1,
    13, 0, 11, 7, 4, 9, 1, 10, 14, 3, 5, 12, 2, 15, 8, 6,
    1, 4, 11, 13, 12, 3, 7, 14, 10, 15, 6, 8, 0, 5, 9, 2,
    6, 11, 13, 8, 1, 4, 10, 7, 9, 5, 0, 15, 14, 2, 3, 12],
  #[13, 2, 8, 4, 6, 15, 11, 1, 10, 9, 3, 14, 5, 0, 12, 7,
    1, 15, 13, 8, 10, 3, 7, 4, 12, 5, 6, 11, 0, 14, 9, 2,
    7, 11, 4, 1, 9, 12, 14, 2, 0, 6, 10, 13, 15, 3, 5, 8,
    2, 1, 14, 7, 4, 10, 8, 13, 15, 12, 9, 0, 3, 5, 6, 11]]

-- ================================================================ rounds

/-- Four bits for each group of six. -/
def substitute (v : Bits 48) : Bits 32 :=
  let nibbles : Vector Nat 8 := Vector.ofFn fun box =>
    let six := v.number (6 * box.val) 6
    let row := 2 * (six / 32) + six % 2
    let column := six / 2 % 16
    (substitutions.getD box.val #[]).getD (16 * row + column) 0
  Vector.ofFn fun i => (nibbles.getD (i.val / 4) 0).testBit (3 - i.val % 4)

/-- What a round key makes of a half. -/
def roundFunction (key : Bits 48) (half : Bits 32) : Bits 32 :=
  (substitute ((half.pick expansion).xor key)).pick roundPermutation

/-- One round: the halves change places, one of them changed by the
other. -/
def round (halves : Bits 32 × Bits 32) (key : Bits 48) : Bits 32 × Bits 32 :=
  (halves.2, halves.1.xor (roundFunction key halves.2))

/-- Runs the rounds of the given keys on a block. -/
def runRounds (keys : List (Bits 48)) (block : Bits 64) : Bits 64 :=
  let mixed := block.pick initialPermutation
  let halves := keys.foldl round (mixed.take 32, mixed.drop 32)
  Bits.pick (halves.2 ++ halves.1) finalPermutation

-- ========================================================== key schedule

/-- Both halves of a key rotated to the left. -/
def rotateKey (key : Bits 56) (amount : Nat) : Bits 56 :=
  Vector.ofFn fun i =>
    let half := i.val / 28
    key.getD (28 * half + (i.val % 28 + amount) % 28) false

/-- The round keys that follow from a key and the rotations to come. -/
def roundKeysFrom : Bits 56 → List Nat → List (Bits 48)
  | _, [] => []
  | key, amount :: rest =>
    let rotated := rotateKey key amount
    rotated.pick roundKeyChoice :: roundKeysFrom rotated rest

/-- The sixteen round keys of a key of eight bytes. -/
def roundKeys (key : Bytes) : List (Bits 48) :=
  roundKeysFrom ((Bits.ofBytes key).pick keyChoice) keyRotations

/-- The cipher under the first eight bytes of a key. -/
def cipher (key : Bytes) : BlockCipher :=
  let forward := roundKeys key
  let backward := forward.reverse
  { blockSize := 8
    encrypt := fun block => (runRounds forward (.ofBytes block)).toBytes
    decrypt := fun block => (runRounds backward (.ofBytes block)).toBytes }

end GameArchive.Des
