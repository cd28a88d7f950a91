/-
LZMA frames: a stream behind a header of 17 bytes.

The header holds the letters LZMA, the decoded size, the length of the
stream and the properties that the stream was written with. A frame says
where it ends, so whatever follows it is not looked at.
-/
import GameArchive.Lzma.Encoder
import GameArchive.Lzma.Decoder

namespace GameArchive.Lzma

/-- The header of a frame. -/
structure FrameHeader where
  /-- The number of bytes that the stream decodes to. -/
  decodedSize : UInt32
  /-- The length of the stream. -/
  streamSize : UInt32
  properties : Properties
deriving DecidableEq, Repr

namespace FrameHeader

/-- The length of a header. -/
def size : Nat := 17

/-- The letters LZMA as a number. -/
def id : UInt32 := 0x414D5A4C

/-- Reads the header that data begin with. -/
def parse (data : Bytes) : Except DecodeError FrameHeader :=
  if data.length < size then .error (.truncated 0 size data.length)
  else if data.u32At 0 = id then
    .ok ⟨data.u32At 4, data.u32At 8, .read data 12⟩
  else .error (.invalidFrame (data.u32At 0))

/-- The length of the whole frame. -/
def frameLength (h : FrameHeader) : Nat := size + h.streamSize.toNat

/-- The header as 17 bytes. -/
def toBytes (h : FrameHeader) : Bytes :=
  Bytes.ofUInt32 id ++ Bytes.ofUInt32 h.decodedSize ++ Bytes.ofUInt32 h.streamSize
    ++ h.properties.toBytes

end FrameHeader

/-- Whether data begin with a frame. -/
def isFrame (data : Bytes) : Bool :=
  FrameHeader.size ≤ data.length && data.startsWith (Bytes.ofUInt32 FrameHeader.id)

/-- The decoded size that the frame at the start of data declares. -/
def declaredSize? (data : Bytes) : Option UInt32 :=
  (FrameHeader.parse data).toOption.map FrameHeader.decodedSize

/-- Decodes the frame at the start of data. -/
def decompress (data : Bytes) : Except DecodeError Bytes := do
  let header ← FrameHeader.parse data
  if data.length < header.frameLength then
    .error (.truncated FrameHeader.size header.streamSize.toNat (data.length - FrameHeader.size))
  else
    (decodeStream header.properties header.decodedSize.toNat
      (data.slice FrameHeader.size header.streamSize.toNat)).mapError .badStream

/-- Encodes data as a frame. There is none of data, or of a stream, that 32
bits cannot count. -/
def compress? (data : Bytes) : Option Bytes :=
  let stream := encodeStream data
  if data.length < 0x100000000 ∧ stream.length < 0x100000000 then
    let header : FrameHeader :=
      ⟨UInt32.ofNat data.length, UInt32.ofNat stream.length, .standard⟩
    some (header.toBytes ++ stream)
  else none

end GameArchive.Lzma
