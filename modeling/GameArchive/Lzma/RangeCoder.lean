/-
Range coding of binary decisions.

A decision splits the current range in proportion to the chance of a zero.
The encoder keeps the lower end of the range, and hands on its highest byte
as soon as the range is too narrow for the next split; a byte that a later
carry may still change waits, with the run of 255s after it. The decoder
keeps the distance of the stream from the lower end. Both widen the range
right after each decision, so they stay in step.
-/
import GameArchive.Lzma.Model

namespace GameArchive.Lzma

-- ============================================================== encoding

/-- A range encoder. `low` is the lower end of the range with at most one
carry above 32 bits, `cache` the byte that waits, `waiting` how many bytes
wait with it, and `out` what is final. -/
structure RangeEncoder where
  low : Nat
  range : Nat
  cache : UInt8
  waiting : Nat
  out : Array UInt8

namespace RangeEncoder

/-- The encoder before the first decision. -/
def start : RangeEncoder := ⟨0, 0xFFFFFFFF, 0, 1, #[]⟩

/-- Appends a byte a number of times. -/
def pushTimes (byte : UInt8) : Nat → Array UInt8 → Array UInt8
  | 0, out => out
  | n + 1, out => pushTimes byte n (out.push byte)

/-- Takes the highest byte off the lower end. Unless it is a 255 that a
carry may still reach, all bytes that wait become final. -/
def shiftLow (e : RangeEncoder) : RangeEncoder :=
  let rest := e.low % 0x1000000 * 256
  if e.low < 0xFF000000 ∨ 0x100000000 ≤ e.low then
    let carry := UInt8.ofNat (e.low / 0x100000000)
    { low := rest
      range := e.range
      cache := UInt8.ofNat (e.low / 0x1000000)
      waiting := 1
      out := pushTimes (0xFF + carry) (e.waiting - 1) (e.out.push (e.cache + carry)) }
  else { e with low := rest, waiting := e.waiting + 1 }

/-- Widens a range that is too narrow to split. -/
def widen (e : RangeEncoder) : RangeEncoder :=
  if e.range < 0x1000000 then shiftLow { e with range := e.range * 256 } else e

/-- Encodes a decision of known chance. -/
def encode (e : RangeEncoder) (chance : Nat) (bit : Bool) : RangeEncoder :=
  let bound := split e.range chance
  if bit then widen { e with low := e.low + bound, range := e.range - bound }
  else widen { e with range := bound }

/-- Hands on all that is left. -/
def finish (e : RangeEncoder) : Array UInt8 :=
  e.shiftLow.shiftLow.shiftLow.shiftLow.shiftLow.out

end RangeEncoder

-- ============================================================== decoding

/-- A range decoder: the width of the range, the distance of the stream from
its lower end, and the bytes to come. -/
structure RangeDecoder where
  range : Nat
  code : Nat
  input : Bytes

namespace RangeDecoder

/-- The decoder of a stream: one byte is passed over, four are the first
distance. -/
def start : Bytes → Except StreamFault RangeDecoder
  | _ :: a :: b :: c :: d :: input =>
    .ok ⟨0xFFFFFFFF, ((a.toNat * 256 + b.toNat) * 256 + c.toNat) * 256 + d.toNat, input⟩
  | _ => .error .exhausted

/-- Widens a range that is too narrow to split. -/
def widen (d : RangeDecoder) : Except StreamFault RangeDecoder :=
  if d.range < 0x1000000 then
    match d.input with
    | [] => .error .exhausted
    | b :: rest => .ok ⟨d.range * 256, (d.code * 256 + b.toNat) % 0x100000000, rest⟩
  else .ok d

/-- Decodes a decision of known chance. -/
def decode (d : RangeDecoder) (chance : Nat) : Except StreamFault (Bool × RangeDecoder) :=
  let bound := split d.range chance
  if d.code < bound then
    (widen { d with range := bound }).map fun d => (false, d)
  else
    (widen { d with range := d.range - bound, code := d.code - bound }).map fun d => (true, d)

/-- Decodes a decision that halves the range. -/
def decodeHalf (d : RangeDecoder) : Except StreamFault (Bool × RangeDecoder) :=
  let half := d.range / 2
  if d.code < half then
    (widen { d with range := half }).map fun d => (false, d)
  else
    (widen { d with range := half, code := d.code - half }).map fun d => (true, d)

end RangeDecoder
end GameArchive.Lzma
