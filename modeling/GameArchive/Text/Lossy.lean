/-
Reading bytes as UTF-8 text when they may be no text at all.

Names in archives are bytes of unknown origin. They are read as UTF-8, and
every longest run of bytes that begins a character without completing it,
like every byte that begins none, becomes the replacement character.

The reader is a fold over the bytes: what it carries is the character that
has begun, if any.
-/
import GameArchive.Bytes

namespace GameArchive.Text

/-- The character that stands for bytes that are no text. -/
def replacement : Char := Char.ofNat 0xFFFD

/-- A character of which some bytes are still to come: how many, the bits
so far, and the range that the next byte has to lie in. -/
structure Pending where
  missing : Nat
  bits : Nat
  low : UInt8
  high : UInt8

/-- What a first byte gives: a character, the beginning of one, or a
replacement. The ranges of the second byte leave out the longer spellings
of a shorter character, the surrogates and what lies beyond Unicode. -/
def begin (b : UInt8) : List Char × Option Pending :=
  if b < 0x80 then ([Char.ofNat b.toNat], none)
  else if b < 0xC2 then ([replacement], none)
  else if b < 0xE0 then ([], some ⟨1, b.toNat - 0xC0, 0x80, 0xBF⟩)
  else if b < 0xF0 then
    ([], some ⟨2, b.toNat - 0xE0, if b = 0xE0 then 0xA0 else 0x80,
      if b = 0xED then 0x9F else 0xBF⟩)
  else if b < 0xF5 then
    ([], some ⟨3, b.toNat - 0xF0, if b = 0xF0 then 0x90 else 0x80,
      if b = 0xF4 then 0x8F else 0xBF⟩)
  else ([replacement], none)

/-- What one more byte gives: the characters that it completes, and the one
that it leaves open. -/
def feed (open? : Option Pending) (b : UInt8) : List Char × Option Pending :=
  match open? with
  | none => begin b
  | some p =>
    if p.low ≤ b ∧ b ≤ p.high then
      let bits := 64 * p.bits + (b.toNat - 0x80)
      if p.missing ≤ 1 then ([Char.ofNat bits], none)
      else ([], some ⟨p.missing - 1, bits, 0x80, 0xBF⟩)
    else
      let (chars, next) := begin b
      (replacement :: chars, next)

/-- The characters of the bytes to come, after an unfinished one. -/
def decodeFrom : Option Pending → Bytes → List Char
  | none, [] => []
  | some _, [] => [replacement]
  | open?, b :: rest =>
    let (chars, next) := feed open? b
    chars ++ decodeFrom next rest

/-- The text that a byte string reads as. -/
def ofBytes (data : Bytes) : String := String.ofList (decodeFrom none data)

end GameArchive.Text
