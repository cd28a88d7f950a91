/-
Encoding byte strings as LZMA streams.

Only literals are written, each as the decision that it is no match and its
eight bits from the highest down, and after them an end marker. The result
is valid, if not small.
-/
import GameArchive.Lzma.RangeCoder

namespace GameArchive.Lzma

/-- An encoder: the range coder and what is known of each context. -/
structure Encoder where
  coder : RangeEncoder
  chances : Array Nat

namespace Encoder

/-- Encodes a decision in a context. -/
def decide (context : Context) (bit : Bool) : Encoder → Encoder
  | ⟨coder, chances⟩ =>
    let chance := chances.getD context.index even
    ⟨coder.encode chance bit, chances.setIfInBounds context.index (adapt chance bit)⟩

/-- Encodes the low `count` bits of a number, highest first, in the contexts
of a tree. -/
def writeTree (context : Nat → Context) (value : Nat) : (count node : Nat) → Encoder → Encoder
  | 0, _, e => e
  | count + 1, node, e =>
    let bit := value.testBit count
    writeTree context value count (2 * node + bit.toNat) (e.decide (context node) bit)

/-- Encodes a byte at a position after another byte. -/
def writeLiteral (p : Parameters) (position : Nat) (previous byte : UInt8) (e : Encoder) :
    Encoder :=
  writeTree (.literal (p.literalSelector position previous)) byte.toNat 8 1
    (e.decide (.isMatch 0 (p.aligned position)) false)

/-- Encodes bytes from a position on. -/
def writeLiterals (p : Parameters) : (position : Nat) → (previous : UInt8) → Bytes → Encoder →
    Encoder
  | _, _, [], e => e
  | position, previous, byte :: rest, e =>
    writeLiterals p (position + 1) byte rest (e.writeLiteral p position previous byte)

/-- The decisions of an end marker after the first: a new match of the least
length and the greatest distance. -/
def endMarker : List Bool :=
  List.replicate 5 false ++ List.replicate 36 true

/-- Encodes the end marker at a position, each decision but the first at
even chance. -/
def writeEnd (p : Parameters) (position : Nat) (e : Encoder) : RangeEncoder :=
  endMarker.foldl (fun coder bit => coder.encode even bit)
    (e.decide (.isMatch 0 (p.aligned position)) true).coder

end Encoder

/-- The parameters of `Properties.standard`. -/
def standardParameters : Parameters := ⟨3, 0, 2, 0x800000⟩

/-- The stream of a byte string, under the standard parameters. The end
marker of an empty string is encoded as if a byte had come before it. -/
def encodeStream (data : Bytes) : Bytes :=
  let start : Encoder := ⟨.start, initialChances standardParameters⟩
  let body := start.writeLiterals standardParameters 0 0 data
  (body.writeEnd standardParameters (max data.length 1)).finish.toList

end GameArchive.Lzma
