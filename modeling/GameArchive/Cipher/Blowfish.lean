/-
The Blowfish block cipher with keys of 4 to 56 bytes.

The state of a keyed cipher is eighteen round words and four substitution
tables of 256 words. It starts as the digits of π, the key is added to the
round words, and then the cipher encrypts its own state: each pair of words
is replaced by the encryption of the pair before it.
-/
import GameArchive.Cipher.Mode
import GameArchive.Cipher.PiDigits

namespace GameArchive.Blowfish

/-- A keyed cipher: eighteen round words, and the four substitution tables
one after the other. -/
structure Schedule where
  rounds : Array UInt32
  boxes : Array UInt32

-- ================================================================ rounds

/-- What the substitution tables make of a half. -/
def roundFunction (boxes : Array UInt32) (x : UInt32) : UInt32 :=
  let box (index shift : UInt32) : UInt32 :=
    boxes.getD (256 * index.toNat + ((x >>> shift) &&& 0xFF).toNat) 0
  ((box 0 24 + box 1 16) ^^^ box 2 8) + box 3 0

/-- One round: the round word is added to the left half, which then changes
the right half, and the halves change places. -/
def round (boxes : Array UInt32) (halves : UInt32 × UInt32) (word : UInt32) :
    UInt32 × UInt32 :=
  let left := halves.1 ^^^ word
  (halves.2 ^^^ roundFunction boxes left, left)

/-- The sixteen rounds of eighteen words in the given order; the last two
words are added to the halves at the end. -/
def runRounds (boxes : Array UInt32) (words : List UInt32) (halves : UInt32 × UInt32) :
    UInt32 × UInt32 :=
  let t := (words.take 16).foldl (round boxes) halves
  (t.2 ^^^ words.getD 17 0, t.1 ^^^ words.getD 16 0)

namespace Schedule

/-- Encrypts two halves. -/
def encryptHalves (s : Schedule) (halves : UInt32 × UInt32) : UInt32 × UInt32 :=
  runRounds s.boxes s.rounds.toList halves

/-- Decrypts two halves: the round words in reverse order. -/
def decryptHalves (s : Schedule) (halves : UInt32 × UInt32) : UInt32 × UInt32 :=
  runRounds s.boxes s.rounds.toList.reverse halves

-- ========================================================== key schedule

/-- The digits of π, before any key. -/
def initial : Schedule :=
  let digits := PiDigits.words 1042
  ⟨digits.extract 0 18, digits.extract 18 1042⟩

/-- The word that the key, repeated without end, holds at word `i`, its
first byte being the highest. -/
def keyWord (key : Array UInt8) (i : Nat) : UInt32 :=
  (List.range 4).foldl
    (fun word j => (word <<< 8) ||| (key.getD ((4 * i + j) % key.size) 0).toUInt32) 0

/-- Replaces pair `i` of the round words by the encryption of the pair
before it. -/
def stirRounds (state : Schedule × (UInt32 × UInt32)) (i : Nat) :
    Schedule × (UInt32 × UInt32) :=
  let (⟨rounds, boxes⟩, halves) := state
  let next := runRounds boxes rounds.toList halves
  (⟨(rounds.setIfInBounds (2 * i) next.1).setIfInBounds (2 * i + 1) next.2, boxes⟩, next)

/-- Replaces pair `i` of the tables by the encryption of the pair before
it. -/
def stirBoxes (rounds : List UInt32) (state : Array UInt32 × (UInt32 × UInt32)) (i : Nat) :
    Array UInt32 × (UInt32 × UInt32) :=
  let (boxes, halves) := state
  let next := runRounds boxes rounds halves
  ((boxes.setIfInBounds (2 * i) next.1).setIfInBounds (2 * i + 1) next.2, next)

/-- The state of the cipher under a key. -/
def ofKey (key : Bytes) : Schedule :=
  let keyBytes := key.toArray
  let keyed : Schedule :=
    { initial with rounds := initial.rounds.mapIdx fun i word => word ^^^ keyWord keyBytes i }
  let (s, halves) := (List.range 9).foldl stirRounds (keyed, (0, 0))
  let (boxes, _) := (List.range 512).foldl (stirBoxes s.rounds.toList) (s.boxes, halves)
  ⟨s.rounds, boxes⟩

end Schedule

-- ================================================================ blocks

/-- The word that starts a byte string, its first byte being the highest. -/
def wordOfBytes (data : Bytes) : UInt32 :=
  (List.range 4).foldl (fun word i => (word <<< 8) ||| (data.getD i 0).toUInt32) 0

/-- The four bytes of a word, the highest first. -/
def bytesOfWord (x : UInt32) : Bytes :=
  [(x >>> 24).toUInt8, (x >>> 16).toUInt8, (x >>> 8).toUInt8, x.toUInt8]

/-- A function on halves as a function on blocks of eight bytes. -/
def onBlock (f : UInt32 × UInt32 → UInt32 × UInt32) (block : Bytes) : Bytes :=
  let halves := f (wordOfBytes block, wordOfBytes (block.drop 4))
  bytesOfWord halves.1 ++ bytesOfWord halves.2

/-- The cipher under a key of 4 to 56 bytes. -/
def cipher (key : Bytes) : BlockCipher :=
  let s := Schedule.ofKey key
  { blockSize := 8
    encrypt := onBlock s.encryptHalves
    decrypt := onBlock s.decryptHalves }

end GameArchive.Blowfish
