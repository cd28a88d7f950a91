/-
The MD5 message digest.

A message is padded to whole blocks of 64 bytes, and each block stirs a
state of four words in 64 steps. Keys of every layer of an archive are
digests of a secret and a file name.
-/
import GameArchive.Bytes.LittleEndian

namespace GameArchive

/-- The four words that an MD5 computation carries from block to block. -/
structure Md5 where
  a : UInt32
  b : UInt32
  c : UInt32
  d : UInt32

namespace Md5

-- ================================================================ tables

/-- The words before the first block. -/
def initial : Md5 := ⟨0x67452301, 0xefcdab89, 0x98badcfe, 0x10325476⟩

/-- Rotation amounts: four for each group of sixteen steps, in turn. -/
def rotations : Array UInt32 := #[
  7, 12, 17, 22,
  5, 9, 14, 20,
  4, 11, 16, 23,
  6, 10, 15, 21]

/-- The integer part of `2 ^ 32 * |sin (i + 1)|` for step `i`. -/
def sines : Array UInt32 := #[
  0xd76aa478, 0xe8c7b756, 0x242070db, 0xc1bdceee, 0xf57c0faf, 0x4787c62a,
  0xa8304613, 0xfd469501, 0x698098d8, 0x8b44f7af, 0xffff5bb1, 0x895cd7be,
  0x6b901122, 0xfd987193, 0xa679438e, 0x49b40821, 0xf61e2562, 0xc040b340,
  0x265e5a51, 0xe9b6c7aa, 0xd62f105d, 0x02441453, 0xd8a1e681, 0xe7d3fbc8,
  0x21e1cde6, 0xc33707d6, 0xf4d50d87, 0x455a14ed, 0xa9e3e905, 0xfcefa3f8,
  0x676f02d9, 0x8d2a4c8a, 0xfffa3942, 0x8771f681, 0x6d9d6122, 0xfde5380c,
  0xa4beea44, 0x4bdecfa9, 0xf6bb4b60, 0xbebfbc70, 0x289b7ec6, 0xeaa127fa,
  0xd4ef3085, 0x04881d05, 0xd9d4d039, 0xe6db99e5, 0x1fa27cf8, 0xc4ac5665,
  0xf4292244, 0x432aff97, 0xab9423a7, 0xfc93a039, 0x655b59c3, 0x8f0ccc92,
  0xffeff47d, 0x85845dd1, 0x6fa87e4f, 0xfe2ce6e0, 0xa3014314, 0x4e0811a1,
  0xf7537e82, 0xbd3af235, 0x2ad7d2bb, 0xeb86d391]

-- ================================================================= steps

/-- Rotation of a word to the left. -/
def rotateLeft (x amount : UInt32) : UInt32 :=
  (x <<< amount) ||| (x >>> (32 - amount))

/-- What step `i` mixes in, and which word of the block it takes. -/
def mixture (s : Md5) (i : Nat) : UInt32 × Nat :=
  if i < 16 then ((s.b &&& s.c) ||| (~~~s.b &&& s.d), i)
  else if i < 32 then ((s.d &&& s.b) ||| (~~~s.d &&& s.c), (5 * i + 1) % 16)
  else if i < 48 then (s.b ^^^ s.c ^^^ s.d, (3 * i + 5) % 16)
  else (s.c ^^^ (s.b ||| ~~~s.d), (7 * i) % 16)

/-- One step over the sixteen words of a block. -/
def step (words : Array UInt32) (s : Md5) (i : Nat) : Md5 :=
  let (mixed, index) := s.mixture i
  let sum := s.a + mixed + sines.getD i 0 + words.getD index 0
  let amount := rotations.getD (i / 16 * 4 + i % 4) 0
  ⟨s.d, s.b + rotateLeft sum amount, s.b, s.c⟩

/-- The state after one block of 64 bytes. -/
def absorb (s : Md5) (block : Bytes) : Md5 :=
  let words := ((block.pieces 4 16).map fun w => w.u32At 0).toArray
  let t := (List.range 64).foldl (step words) s
  ⟨s.a + t.a, s.b + t.b, s.c + t.c, s.d + t.d⟩

-- =============================================================== digests

/-- A message with a one bit, zeros and its length in bits appended, a
whole number of blocks long. -/
def pad (message : Bytes) : Bytes :=
  message ++ 0x80 :: (Bytes.zeros ((119 - message.length % 64) % 64)
    ++ Bytes.ofNat 8 (8 * message.length))

/-- The sixteen digest bytes of a message. -/
def digest (message : Bytes) : Bytes :=
  let padded := pad message
  let s := (padded.pieces 64 (padded.length / 64)).foldl absorb initial
  Bytes.ofUInt32 s.a ++ Bytes.ofUInt32 s.b ++ Bytes.ofUInt32 s.c ++ Bytes.ofUInt32 s.d

/-- Digests have sixteen bytes, as keys are expected to have. -/
@[simp] theorem length_digest (message : Bytes) : (digest message).length = 16 := by
  simp [digest]

end Md5
end GameArchive
