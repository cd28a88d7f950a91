/-
The header of a compiled map: which build made it, and where its 64 lumps
lie.

Two builds matter. The vendor's maps have version 100; the standard build
reads version 20. In both the header is 1036 bytes long.
-/
import GameArchive.Bytes.LittleEndian

namespace GameArchive.Map

-- ================================================================= lumps

/-- The names of the lumps in order. -/
def lumpNames : List String := [
  "LUMP_ENTITIES", "LUMP_PLANES", "LUMP_TEXDATA", "LUMP_VERTEXES",
  "LUMP_VISIBILITY", "LUMP_NODES", "LUMP_TEXINFO", "LUMP_FACES",
  "LUMP_LIGHTING", "LUMP_OCCLUSION", "LUMP_LEAFS", "LUMP_FACEIDS",
  "LUMP_EDGES", "LUMP_SURFEDGES", "LUMP_MODELS", "LUMP_WORLDLIGHTS",
  "LUMP_LEAFFACES", "LUMP_LEAFBRUSHES", "LUMP_BRUSHES", "LUMP_BRUSHSIDES",
  "LUMP_AREAS", "LUMP_AREAPORTALS", "LUMP_UNUSED0", "LUMP_UNUSED1",
  "LUMP_UNUSED2", "LUMP_UNUSED3", "LUMP_DISPINFO", "LUMP_ORIGINALFACES",
  "LUMP_PHYSDISP", "LUMP_PHYSCOLLIDE", "LUMP_VERTNORMALS", "LUMP_VERTNORMALINDICES",
  "LUMP_DISP_LIGHTMAP_ALPHAS", "LUMP_DISP_VERTS",
  "LUMP_DISP_LIGHTMAP_SAMPLE_POSITIONS", "LUMP_GAME_LUMP",
  "LUMP_LEAFWATERDATA", "LUMP_PRIMITIVES", "LUMP_PRIMVERTS", "LUMP_PRIMINDICES",
  "LUMP_PAKFILE", "LUMP_CLIPPORTALVERTS", "LUMP_CUBEMAPS", "LUMP_TEXDATA_STRING_DATA",
  "LUMP_TEXDATA_STRING_TABLE", "LUMP_OVERLAYS", "LUMP_LEAFMINDISTTOWATER",
  "LUMP_FACE_MACRO_TEXTURE_INFO",
  "LUMP_DISP_TRIS", "LUMP_PHYSCOLLIDESURFACE", "LUMP_WATEROVERLAYS",
  "LUMP_LEAF_AMBIENT_INDEX_HDR",
  "LUMP_LEAF_AMBIENT_INDEX", "LUMP_LIGHTING_HDR", "LUMP_WORLDLIGHTS_HDR",
  "LUMP_LEAF_AMBIENT_LIGHTING_HDR",
  "LUMP_LEAF_AMBIENT_LIGHTING", "LUMP_XZIPPAKFILE", "LUMP_FACES_HDR", "LUMP_MAP_FLAGS",
  "LUMP_OVERLAY_FADES", "LUMP_UNUSED61", "LUMP_UNUSED62", "LUMP_UNUSED63"]

/-- The name of a lump. -/
def lumpName (id : Nat) : String := lumpNames.getD id "LUMP_UNKNOWN"

/-- One entry of the lump directory. -/
structure LumpHeader where
  /-- Where the lump begins in the file. -/
  offset : UInt32
  /-- Its length as stored. -/
  length : UInt32
  /-- The version of its format; one bit tells that it is compressed. -/
  version : UInt32
  /-- A decoded size, which no one relies on. -/
  decodedSize : UInt32
deriving DecidableEq, Repr, Inhabited

namespace LumpHeader

/-- The length of an entry. -/
def size : Nat := 16

/-- The bit of a version that tells that a lump is compressed. -/
def compressedBit : UInt32 := 0x10000

/-- Whether the lump is an LZMA frame. -/
def isCompressed (h : LumpHeader) : Bool := h.version &&& compressedBit ≠ 0

/-- The version without the compression bit. -/
def formatVersion (h : LumpHeader) : UInt32 := h.version &&& ~~~compressedBit

/-- Reads the entry at an offset. -/
def read (data : Bytes) (offset : Nat) : LumpHeader :=
  ⟨data.u32At offset, data.u32At (offset + 4), data.u32At (offset + 8),
   data.u32At (offset + 12)⟩

/-- The entry as sixteen bytes. -/
def toBytes (h : LumpHeader) : Bytes :=
  Bytes.ofUInt32 h.offset ++ Bytes.ofUInt32 h.length ++ Bytes.ofUInt32 h.version
    ++ Bytes.ofUInt32 h.decodedSize

end LumpHeader

-- ================================================================ header

/-- The header of a map. -/
structure Header where
  ident : UInt32
  version : UInt32
  lumps : Vector LumpHeader 64
  revision : UInt32
deriving DecidableEq

namespace Header

/-- The letters VBSP as a number. -/
def mapIdent : UInt32 := 0x50534256

/-- The version of the vendor's maps. -/
def vendorVersion : UInt32 := 100

/-- The version of standard maps. -/
def standardVersion : UInt32 := 20

/-- The length of a header. -/
def size : Nat := 1036

/-- Reads the header of data that are long enough. -/
def read (data : Bytes) : Header :=
  { ident := data.u32At 0
    version := data.u32At 4
    lumps := Vector.ofFn fun i => .read data (8 + LumpHeader.size * i.val)
    revision := data.u32At 1032 }

/-- The header that data begin with, if they are long enough. -/
def parse? (data : Bytes) : Option Header :=
  if data.length < size then none else some (read data)

/-- The header as 1036 bytes. -/
def toBytes (h : Header) : Bytes :=
  Bytes.ofUInt32 h.ident ++ Bytes.ofUInt32 h.version
    ++ h.lumps.toList.flatMap LumpHeader.toBytes ++ Bytes.ofUInt32 h.revision

/-- Whether ident and version are those of a vendor map. -/
def isVendorMap (h : Header) : Bool :=
  h.ident = mapIdent && h.version = vendorVersion

end Header

/-- Whether data begin with the ident and version of a vendor map. -/
def isVendorMap (data : Bytes) : Bool :=
  8 ≤ data.length && data.u32At 0 = Header.mapIdent && data.u32At 4 = Header.vendorVersion

end GameArchive.Map
