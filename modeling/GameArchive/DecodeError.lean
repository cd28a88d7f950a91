/-
What can be wrong with compressed data: with an LZMA frame, or with a
texture made of frames and verbatim pieces.
-/
import GameArchive.Bytes.Hex

namespace GameArchive

/-- Why an LZMA stream cannot be decoded. -/
inductive StreamFault where
  /-- The properties byte stands for no parameters. -/
  | badProperties (packed : UInt8)
  /-- The stream ends before the declared size is reached. -/
  | exhausted
  /-- A match reaches back before the output or the dictionary. -/
  | badDistance
  /-- The end marker comes before the declared size is reached. -/
  | earlyEnd
  /-- The last match runs past the declared size. -/
  | overrun
deriving DecidableEq, Repr

/-- What is wrong with a stream. -/
def StreamFault.message : StreamFault → String
  | .badProperties packed => s!"properties byte {packed.toNat} is out of range"
  | .exhausted => "unexpected end of stream"
  | .badDistance => "match distance is beyond the decoded data"
  | .earlyEnd => "end marker before the declared size"
  | .overrun => "match runs past the declared size"

/-- Why compressed data cannot be decoded. -/
inductive DecodeError where
  /-- The data do not begin as a compressed texture; their first bytes. -/
  | invalidSignature (found : Bytes)
  /-- The texture declares that it is empty. -/
  | emptyTexture
  /-- A part lies past the end of the data. -/
  | truncated (offset needed available : Nat)
  /-- The data do not begin as an LZMA frame; their first word. -/
  | invalidFrame (found : UInt32)
  /-- The stream of a frame is damaged. -/
  | badStream (fault : StreamFault)
  /-- The texture declares another size than its parts have. -/
  | sizeMismatch (expected actual : Nat)
deriving DecidableEq, Repr

namespace DecodeError

/-- Bytes as a bracketed list of uppercase pairs of digits. -/
def byteList (data : Bytes) : String :=
  "[" ++ String.intercalate ", " (data.map fun b => Hex.upper 2 b.toNat) ++ "]"

/-- What is wrong, for people. -/
def message : DecodeError → String
  | .invalidSignature found => "Invalid compressed texture signature: " ++ byteList found
  | .emptyTexture => "Compressed texture declares an original size of zero"
  | .truncated offset needed available =>
    s!"Truncated data at offset {offset}: need {needed} bytes, {available} available"
  | .invalidFrame found =>
    "Invalid LZMA frame: expected id 0x414D5A4C, found 0x" ++ Hex.upper 8 found.toNat
  | .badStream fault => "LZMA error: " ++ fault.message
  | .sizeMismatch expected actual => s!"Size mismatch: expected {expected}, got {actual}"

/-- Every such error means that the data are damaged. -/
def isCorruption : DecodeError → Bool := fun _ => true

end DecodeError
end GameArchive
