/-
Hexadecimal text.

Digests used as keys are written as lowercase digits, two for a byte;
numbers in messages are written as uppercase digits, padded with zeros.
-/
import GameArchive.Bytes

namespace GameArchive

namespace Hex

/-- The digit of a number below 16, lowercase. -/
def lowerDigit (n : Nat) : Char :=
  if n < 10 then Char.ofNat (48 + n) else Char.ofNat (87 + n)

/-- A number in uppercase digits, at least `width` of them. -/
def upper (width n : Nat) : String :=
  let digits := (Nat.toDigits 16 n).map Char.toUpper
  String.ofList (List.replicate (width - digits.length) '0' ++ digits)

end Hex

namespace Bytes

/-- The two lowercase digits of each byte. -/
def hexDigits : Bytes → List Char
  | [] => []
  | b :: rest =>
    Hex.lowerDigit (b.toNat / 16) :: Hex.lowerDigit (b.toNat % 16) :: hexDigits rest

/-- The bytes as lowercase hexadecimal text. -/
def toHex (data : Bytes) : String := String.ofList data.hexDigits

end Bytes
end GameArchive
