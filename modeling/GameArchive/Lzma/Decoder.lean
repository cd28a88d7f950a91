/-
Decoding LZMA streams.

A stream is read symbol by symbol: a literal byte, a match with an earlier
part of the output, or an end marker. Reading a symbol consumes decisions
and teaches the contexts; what the symbol does to the output is a separate
step. Decoding stops as soon as the declared size is reached.
-/
import GameArchive.Lzma.RangeCoder

namespace GameArchive.Lzma

-- =============================================================== symbols

/-- One step of the output. -/
inductive Symbol where
  /-- A byte of its own. -/
  | literal (byte : UInt8)
  /-- The byte at the latest distance. -/
  | short
  /-- `length` bytes at one of the last four distances, counted from the
  latest. -/
  | again (which length : Nat)
  /-- `length` bytes at a distance of `back + 1`. -/
  | copy (back length : Nat)
  /-- The end of the data. -/
  | endMarker
deriving DecidableEq, Repr

/-- The kinds of the last few symbols, as a number below twelve. -/
def Symbol.nextState (symbol : Symbol) (state : Nat) : Nat :=
  match symbol with
  | .literal _ => if state < 4 then 0 else if state < 10 then state - 3 else state - 6
  | .short => if state < 7 then 9 else 11
  | .again _ _ => if state < 7 then 8 else 11
  | .copy _ _ | .endMarker => if state < 7 then 7 else 10

/-- The state of decoding: range coder and contexts, the kinds and distances
of the last symbols (distances less one, the latest first), and the
output. -/
structure Decoder where
  coder : RangeDecoder
  chances : Array Nat
  state : Nat
  back0 : Nat
  back1 : Nat
  back2 : Nat
  back3 : Nat
  out : Array UInt8

namespace Decoder

/-- The decoder before the first symbol of a stream. -/
def start (p : Parameters) (stream : Bytes) : Except StreamFault Decoder := do
  let coder ← RangeDecoder.start stream
  return ⟨coder, initialChances p, 0, 0, 0, 0, 0, #[]⟩

/-- The byte `back + 1` before the end of the output, within the reach of
the dictionary. -/
def byteBack (p : Parameters) (d : Decoder) (back : Nat) : Except StreamFault UInt8 :=
  if back < d.out.size ∧ back < p.reach then .ok (d.out.getD (d.out.size - 1 - back) 0)
  else .error .badDistance

-- ============================================================= decisions

/-- Reading from a stream: what is read, and the decoder after it. -/
abbrev Reader := StateT Decoder (Except StreamFault)

/-- Reads a decision in a context. -/
def decision (context : Context) : Reader Bool := fun d =>
  match d with
  | ⟨coder, chances, state, b0, b1, b2, b3, out⟩ =>
    let chance := chances.getD context.index even
    match coder.decode chance with
    | .error fault => .error fault
    | .ok (bit, coder) =>
      .ok (bit, ⟨coder, chances.setIfInBounds context.index (adapt chance bit),
        state, b0, b1, b2, b3, out⟩)

/-- Reads a decision that has no context. -/
def halfDecision : Reader Bool := fun d =>
  match d.coder.decodeHalf with
  | .error fault => .error fault
  | .ok (bit, coder) => .ok (bit, { d with coder := coder })

/-- Reads `count` bits, highest first, in the contexts of a tree, below the
bits already read. -/
def readTree (context : Nat → Context) : (count node : Nat) → Reader Nat
  | 0, node => pure node
  | count + 1, node => do
    let bit ← decision (context node)
    readTree context count (2 * node + bit.toNat)

/-- Reads `count` bits, lowest first, in the contexts of a tree. -/
def readReverse (context : Nat → Context) : (count node : Nat) → Reader Nat
  | 0, _ => pure 0
  | count + 1, node => do
    let bit ← decision (context node)
    let high ← readReverse context count (2 * node + bit.toNat)
    return bit.toNat + 2 * high

/-- Reads `count` bits without contexts, highest first, below those already
read. -/
def readDirect : (count value : Nat) → Reader Nat
  | 0, value => pure value
  | count + 1, value => do
    let bit ← halfDecision
    readDirect count (2 * value + bit.toNat)

/-- Reads a number below `2 ^ count` in the contexts of a tree. -/
def readNumber (context : Nat → Context) (count : Nat) : Reader Nat := do
  let node ← readTree context count 1
  return node - 1 <<< count

-- ============================================================== literals

/-- Reads a byte that follows a match: as long as its bits agree with those
of the byte that would have continued the match, they are read in contexts
of their own. -/
def readMatched (context : Nat → Context) (expected : Nat) : (count node : Nat) → Reader Nat
  | 0, node => pure node
  | count + 1, node => do
    let hint := expected.testBit count
    let bit ← decision (context (256 * (1 + hint.toNat) + node))
    let next := 2 * node + bit.toNat
    if bit = hint then readMatched context expected count next
    else readTree context count next

/-- Reads a literal byte. -/
def readLiteral (p : Parameters) : Reader Symbol := do
  let d ← get
  let position := d.out.size
  let previous := d.out.getD (position - 1) 0
  let state := d.state
  let expected? := d.byteBack p d.back0
  let context := Context.literal (p.literalSelector position previous)
  if state < 7 then
    let node ← readTree context 8 1
    return .literal (UInt8.ofNat node)
  else
    let expected ← expected?
    let node ← readMatched context expected.toNat 8 1
    return .literal (UInt8.ofNat node)

-- =============================================================== matches

/-- Reads the length of a match, which is at least two. -/
def readLength (kind : LengthContext → Context) (aligned : Nat) : Reader Nat := do
  if !(← decision (kind .beyondLow)) then
    let n ← readNumber (fun node => kind (.low aligned node)) 3
    return 2 + n
  else if !(← decision (kind .beyondMid)) then
    let n ← readNumber (fun node => kind (.mid aligned node)) 3
    return 10 + n
  else
    let n ← readNumber (fun node => kind (.high node)) 8
    return 18 + n

/-- Reads the distance of a new match of known length, less one. Its slot
gives the two highest bits and the number of bits below them; of many, the
middle ones have no contexts. -/
def readBack (length : Nat) : Reader Nat := do
  let slot ← readNumber (.slot (min (length - 2) 3)) 6
  if slot < 4 then return slot
  else
    let below := slot / 2 - 1
    let high := (2 + slot % 2) <<< below
    if slot < 14 then
      let low ← readReverse (fun node => .distance (high - slot + node)) below 1
      return high + low
    else
      let middle ← readDirect (below - 4) 0
      let low ← readReverse .align 4 1
      return high + 16 * middle + low

/-- Reads which of the last four distances a match repeats. -/
def readWhich (state : Nat) : Reader Nat := do
  if !(← decision (.notSecond state)) then return 1
  else if !(← decision (.notThird state)) then return 2
  else return 3

/-- Reads a match or the end marker. -/
def readMatch (state aligned : Nat) : Reader Symbol := do
  if !(← decision (.isRepeat state)) then
    let length ← readLength .newLength aligned
    let back ← readBack length
    return if back = 0xFFFFFFFF then .endMarker else .copy back length
  else if !(← decision (.notLatest state)) then
    if !(← decision (.isLong state aligned)) then return .short
    else
      let length ← readLength .repeatLength aligned
      return .again 0 length
  else
    let which ← readWhich state
    let length ← readLength .repeatLength aligned
    return .again which length

/-- Reads a symbol. -/
def readSymbol (p : Parameters) : Reader Symbol := do
  let d ← get
  let state := d.state
  let aligned := p.aligned d.out.size
  if !(← decision (.isMatch state aligned)) then readLiteral p
  else readMatch state aligned

-- ================================================================ output

/-- Appends `count` bytes, each a copy of the one `back + 1` before it. -/
def repeatBack (back : Nat) : (count : Nat) → Array UInt8 → Array UInt8
  | 0, out => out
  | count + 1, out =>
    let byte := out.getD (out.size - 1 - back) 0
    repeatBack back count (out.push byte)

/-- Appends a match at the latest distance. -/
def appendMatch (p : Parameters) (length : Nat) : Decoder → Except StreamFault Decoder
  | ⟨coder, chances, state, b0, b1, b2, b3, out⟩ =>
    if b0 < out.size ∧ b0 < p.reach then
      .ok ⟨coder, chances, state, b0, b1, b2, b3, repeatBack b0 length out⟩
    else .error .badDistance

/-- Makes one of the last four distances the latest. -/
def promote (which : Nat) (d : Decoder) : Decoder :=
  match which with
  | 0 => d
  | 1 => { d with back0 := d.back1, back1 := d.back0 }
  | 2 => { d with back0 := d.back2, back1 := d.back0, back2 := d.back1 }
  | _ => { d with back0 := d.back3, back1 := d.back0, back2 := d.back1, back3 := d.back2 }

/-- What a symbol does to the output and to the memory of distances. -/
def apply (p : Parameters) (symbol : Symbol) (d : Decoder) : Except StreamFault Decoder :=
  let d := { d with state := symbol.nextState d.state }
  match symbol with
  | .literal byte => .ok { d with out := d.out.push byte }
  | .short => d.appendMatch p 1
  | .again which length => (d.promote which).appendMatch p length
  | .copy back length =>
    appendMatch p length
      { d with back0 := back, back1 := d.back0, back2 := d.back1, back3 := d.back2 }
  | .endMarker => .error .earlyEnd

/-- Decodes symbols until the output has the declared size. Each symbol adds
a byte or more, so as many symbols as bytes are enough. -/
def run (p : Parameters) (size : Nat) : (symbols : Nat) → Decoder → Except StreamFault Decoder
  | 0, d => .ok d
  | symbols + 1, d =>
    if d.out.size < size then
      match readSymbol p d with
      | .error fault => .error fault
      | .ok (symbol, d) =>
        match apply p symbol d with
        | .error fault => .error fault
        | .ok d => run p size symbols d
    else .ok d

end Decoder

/-- The bytes of declared number that a stream decodes to. What follows the
last symbol is not looked at. -/
def decodeStream (properties : Properties) (size : Nat) (stream : Bytes) :
    Except StreamFault Bytes := do
  let p ← properties.parameters
  let start ← Decoder.start p stream
  let d ← start.run p size size
  if d.out.size = size then return d.out.toList else .error .overrun

end GameArchive.Lzma
