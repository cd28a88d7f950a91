/-
The CRC-32 checksum of archive entries: the reflected polynomial
`0xEDB88320`, all ones before the first byte and a complement after the
last.
-/
import GameArchive.Bytes

namespace GameArchive.Crc32

/-- The remainder after one more bit. -/
def bitStep (crc : UInt32) : UInt32 :=
  if crc &&& 1 = 1 then (crc >>> 1) ^^^ 0xEDB88320 else crc >>> 1

/-- The remainder after one more byte. -/
def byteStep (crc : UInt32) (byte : UInt8) : UInt32 :=
  bitStep <| bitStep <| bitStep <| bitStep <|
    bitStep <| bitStep <| bitStep <| bitStep (crc ^^^ byte.toUInt32)

/-- The checksum of a byte string. -/
def checksum (data : Bytes) : UInt32 := ~~~(data.foldl byteStep 0xFFFFFFFF)

end GameArchive.Crc32
