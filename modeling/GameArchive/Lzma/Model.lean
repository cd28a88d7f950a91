/-
The statistical model of LZMA.

A stream is a sequence of binary decisions. Each is made in a context,
which knows how often it went either way so far; encoder and decoder keep
the same knowledge, and this is all that they share. A context is a value
of `Context`, its place in the table of chances is `Context.index`.
-/
import GameArchive.Bytes.LittleEndian
import GameArchive.DecodeError

namespace GameArchive.Lzma

-- ============================================================ parameters

/-- How many bits of the surroundings select a context, and how far back a
match may reach. -/
structure Parameters where
  /-- High bits of the previous byte that select the context of a
  literal. -/
  literalBits : Nat
  /-- Low bits of the position that select the context of a literal. -/
  positionBits : Nat
  /-- Low bits of the position that select the other contexts. -/
  alignmentBits : Nat
  /-- The greatest distance of a match. -/
  reach : Nat
deriving DecidableEq, Repr

/-- The five bytes that a stream declares its parameters by. -/
structure Properties where
  /-- The three bit counts, packed by nines and fives. -/
  packed : UInt8
  /-- The size of the dictionary. -/
  dictionary : UInt32
deriving DecidableEq, Repr

namespace Properties

/-- The properties at an offset. -/
def read (data : Bytes) (offset : Nat) : Properties :=
  ⟨data.byteAt offset, data.u32At (offset + 1)⟩

/-- The properties as five bytes. -/
def toBytes (p : Properties) : Bytes := p.packed :: Bytes.ofUInt32 p.dictionary

/-- The properties of the streams that this library writes. -/
def standard : Properties := ⟨0x5D, 0x800000⟩

/-- The parameters that properties stand for. A dictionary is never smaller
than four kilobytes. -/
def parameters (p : Properties) : Except StreamFault Parameters :=
  if p.packed.toNat < 225 then
    .ok {
      literalBits := p.packed.toNat % 9
      positionBits := p.packed.toNat / 9 % 5
      alignmentBits := p.packed.toNat / 45
      reach := max p.dictionary.toNat 4096 }
  else .error (.badProperties p.packed)

end Properties

-- ============================================================== contexts

/-- The decisions of a match length: those of new matches and those of
repeated distances are counted apart. -/
inductive LengthContext where
  | beyondLow
  | beyondMid
  | low (aligned node : Nat)
  | mid (aligned node : Nat)
  | high (node : Nat)
deriving DecidableEq

/-- The contexts of decisions. A `state` tells the kinds of the last few
symbols, `aligned` the low bits of the position, and `node` the bits of the
same number decided before. -/
inductive Context where
  | isMatch (state aligned : Nat)
  | isRepeat (state : Nat)
  | notLatest (state : Nat)
  | notSecond (state : Nat)
  | notThird (state : Nat)
  | isLong (state aligned : Nat)
  | slot (lengthClass node : Nat)
  | distance (index : Nat)
  | align (node : Nat)
  | newLength (part : LengthContext)
  | repeatLength (part : LengthContext)
  | literal (selector node : Nat)
deriving DecidableEq

/-- The place of a length decision among the 514 of its kind. -/
def LengthContext.index : LengthContext → Nat
  | .beyondLow => 0
  | .beyondMid => 1
  | .low aligned node => 2 + 8 * aligned + node
  | .mid aligned node => 130 + 8 * aligned + node
  | .high node => 258 + node

/-- The place of a context in the table. -/
def Context.index : Context → Nat
  | .isMatch state aligned => 16 * state + aligned
  | .isRepeat state => 192 + state
  | .notLatest state => 204 + state
  | .notSecond state => 216 + state
  | .notThird state => 228 + state
  | .isLong state aligned => 240 + 16 * state + aligned
  | .slot lengthClass node => 432 + 64 * lengthClass + node
  | .distance index => 688 + index
  | .align node => 816 + node
  | .newLength part => 832 + part.index
  | .repeatLength part => 1346 + part.index
  | .literal selector node => 1860 + 768 * selector + node

-- =============================================================== chances

/-- The chance of a zero, in parts of 2048, where nothing is known. -/
def even : Nat := 1024

/-- The chance of a zero after a decision: it moves by a thirty-second
towards what was decided. -/
def adapt (chance : Nat) (bit : Bool) : Nat :=
  if bit then chance - chance / 32 else chance + (2048 - chance) / 32

/-- The part of a range that stands for a zero. -/
def split (range chance : Nat) : Nat := range / 2048 * chance

/-- The table before the first decision. -/
def initialChances (p : Parameters) : Array Nat :=
  Array.replicate (1860 + 768 <<< (p.literalBits + p.positionBits)) even

/-- Which of the literal contexts a byte at a position is decided in. -/
def Parameters.literalSelector (p : Parameters) (position : Nat) (previous : UInt8) : Nat :=
  (position % (1 <<< p.positionBits)) <<< p.literalBits
    + previous.toNat >>> (8 - p.literalBits)

/-- The low bits of a position that select a context. -/
def Parameters.aligned (p : Parameters) (position : Nat) : Nat :=
  position % (1 <<< p.alignmentBits)

end GameArchive.Lzma
