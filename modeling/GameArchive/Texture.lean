/-
Chunked textures.

A texture begins with the letters CO2, the number of its chunks and its
decoded size, and goes on with a table of two words for each chunk. The
lowest bit of the first word tells the kind of the chunk, and the rest is
its offset: an LZMA frame that knows its own length, or as many verbatim
bytes as the second word says. The texture is the concatenation of the
chunks in the order of the table, wherever they lie.
-/
import GameArchive.Lzma.Frame

namespace GameArchive.Texture

/-- One chunk of a texture. -/
inductive Chunk where
  /-- An LZMA frame at an offset. -/
  | frame (offset : Nat)
  /-- `length` bytes at an offset. -/
  | raw (offset length : Nat)
deriving DecidableEq, Repr

/-- What the header and the table of a texture say. -/
structure Layout where
  decodedSize : UInt32
  chunks : List Chunk
deriving DecidableEq, Repr

/-- The letters CO2. -/
def signature : Bytes := [0x43, 0x4F, 0x32]

/-- The length of the header before the table. -/
def headerSize : Nat := 8

/-- Whether data begin as a texture. -/
def isTexture (data : Bytes) : Bool := data.startsWith signature

-- =============================================================== reading

/-- The chunk of a pair of words. -/
def Chunk.ofWords (a b : UInt32) : Chunk :=
  if a.toNat % 2 = 1 then .frame (a.toNat / 2) else .raw (a.toNat / 2) b.toNat

/-- The first `count` chunks of a table. -/
def readTable (count : Nat) (table : Bytes) : List Chunk :=
  (table.pieces 8 count).map fun pair => .ofWords (pair.u32At 0) (pair.u32At 4)

/-- Reads header and table. -/
def Layout.parse (data : Bytes) : Except DecodeError Layout :=
  if data.length < headerSize then .error (.truncated 0 headerSize data.length)
  else if !isTexture data then .error (.invalidSignature (data.take 3))
  else
    let count := (data.byteAt 3).toNat
    if data.length < headerSize + 8 * count then
      .error (.truncated headerSize (8 * count) (data.length - headerSize))
    else .ok ⟨data.u32At 4, readTable count (data.drop headerSize)⟩

-- ============================================================== decoding

/-- The bytes of a chunk. -/
def Chunk.decode (data : Bytes) : Chunk → Except DecodeError Bytes
  | .frame offset =>
    if data.length < offset then .error (.truncated offset Lzma.FrameHeader.size 0)
    else Lzma.decompress (data.drop offset)
  | .raw offset length =>
    if data.length < offset + length then
      .error (.truncated offset length (data.length - offset))
    else .ok (data.slice offset length)

/-- The bytes of chunks, one after the other. -/
def decodeChunks (data : Bytes) : List Chunk → Except DecodeError Bytes
  | [] => .ok []
  | chunk :: rest => do
    let head ← chunk.decode data
    let tail ← decodeChunks data rest
    return head ++ tail

/-- Decodes a texture, which must have the size that it declares, and not
be empty. -/
def Layout.decode (layout : Layout) (data : Bytes) : Except DecodeError Bytes := do
  if layout.decodedSize = 0 then .error .emptyTexture
  else
    let out ← decodeChunks data layout.chunks
    if out.length = layout.decodedSize.toNat then return out
    else .error (.sizeMismatch layout.decodedSize.toNat out.length)

/-- Decodes a texture. No bytes at all decode to none. -/
def decompress (data : Bytes) : Except DecodeError Bytes :=
  if data.isEmpty then .ok []
  else do
    let layout ← Layout.parse data
    layout.decode data

end GameArchive.Texture
