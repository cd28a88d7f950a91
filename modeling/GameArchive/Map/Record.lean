/-
Records that the standard build keeps narrower than the vendor's.

A layout lists what becomes of the bytes of a vendor record from its start:
kept, left out, or four bytes narrowed to fewer; zeros may be put in
between. Both record sizes follow from the layout. A value that does not
fit its narrower form loses its high bits, and is reported.
-/
import GameArchive.Map.Report

namespace GameArchive.Map

/-- The form that a 32-bit field is narrowed to. -/
inductive Width where
  | u8
  | u16
  | i16
deriving DecidableEq, Repr

namespace Width

/-- The number of bytes of the narrow form. -/
def size : Width → Nat
  | .u8 => 1
  | .u16 | .i16 => 2

/-- The value of a 32-bit field, read as signed or unsigned as its narrow
form is. -/
def value (w : Width) (word : UInt32) : Int :=
  match w with
  | .u8 | .u16 => word.toNat
  | .i16 => word.toInt32.toInt

/-- Whether a value fits the narrow form. -/
def fits (w : Width) (value : Int) : Bool :=
  match w with
  | .u8 => value < 0x100
  | .u16 => value < 0x10000
  | .i16 => -0x8000 ≤ value && value < 0x8000

end Width

/-- What becomes of the next bytes of a record. -/
inductive Part where
  /-- They stay. -/
  | keep (length : Nat)
  /-- They are left out. -/
  | drop (length : Nat)
  /-- Zeros are put in, and no bytes are used. -/
  | fill (length : Nat)
  /-- Four bytes are narrowed; the name of the field. -/
  | narrow (width : Width) (field : String)
deriving DecidableEq, Repr

/-- The bytes that a part takes from a vendor record. -/
def Part.sourceSize : Part → Nat
  | .keep length | .drop length => length
  | .fill _ => 0
  | .narrow _ _ => 4

/-- The bytes that a part gives to a standard record. -/
def Part.targetSize : Part → Nat
  | .keep length | .fill length => length
  | .drop _ => 0
  | .narrow width _ => width.size

/-- What becomes of a record, part by part. -/
abbrev RecordLayout := List Part

namespace RecordLayout

/-- The size of a vendor record. -/
def sourceSize : RecordLayout → Nat
  | [] => 0
  | part :: rest => part.sourceSize + sourceSize rest

/-- The size of a standard record. -/
def targetSize : RecordLayout → Nat
  | [] => 0
  | part :: rest => part.targetSize + targetSize rest

-- ============================================================= narrowing

/-- A field and a value that does not fit it. -/
structure Overflow where
  field : String
  value : Int
deriving DecidableEq, Repr

/-- Narrows one record: the standard record, and the values that did not
fit, in the order of the fields. -/
def narrow : RecordLayout → Bytes → Bytes × List Overflow
  | [], _ => ([], [])
  | .keep length :: rest, record =>
    let (out, overflows) := narrow rest (record.drop length)
    (record.take length ++ out, overflows)
  | .drop length :: rest, record => narrow rest (record.drop length)
  | .fill length :: rest, record =>
    let (out, overflows) := narrow rest record
    (Bytes.zeros length ++ out, overflows)
  | .narrow width field :: rest, record =>
    let word := record.u32At 0
    let value := width.value word
    let (out, overflows) := narrow rest (record.drop 4)
    (Bytes.ofNat width.size word.toNat ++ out,
      if width.fits value then overflows else ⟨field, value⟩ :: overflows)

/-- The warnings about one record. -/
def overflowWarnings (place : Place) (record : Nat) (overflows : List Overflow) :
    List Warning :=
  overflows.map fun o => .overflow place record o.field o.value

/-- Narrows the first `count` records of data, which lie in the given
place. -/
def narrowAll (layout : RecordLayout) (place : Place) (count : Nat) (data : Bytes) :
    Bytes × List Warning :=
  let narrowed := (data.pieces layout.sourceSize count).map layout.narrow
  ((narrowed.map (·.1)).flatten,
    (narrowed.zipIdx.map fun (record, i) => overflowWarnings place i record.2).flatten)

/-- Narrows all whole records of a lump. -/
def narrowLump (layout : RecordLayout) (lump : Nat) (data : Bytes) : Step Bytes := do
  let size := layout.sourceSize
  if data.length % size ≠ 0 then
    Reported.warn [.trailingBytes lump data.length size]
  let (out, warnings) := layout.narrowAll (.lump lump) (data.length / size) data
  Reported.warn warnings
  return out

end RecordLayout

-- =============================================================== layouts

namespace RecordLayout

/-- Six 16-bit bounds: the corners of a box. -/
def box : RecordLayout :=
  [.narrow .i16 "mins", .narrow .i16 "mins", .narrow .i16 "mins",
   .narrow .i16 "maxs", .narrow .i16 "maxs", .narrow .i16 "maxs"]

/-- Nodes of the tree. -/
def node : RecordLayout :=
  .keep 12 :: box ++
  [.narrow .u16 "firstface", .narrow .u16 "numfaces", .narrow .i16 "area", .fill 2]

/-- Faces, before and after they are split, in both lightings. -/
def face : RecordLayout :=
  [.narrow .u16 "planenum", .keep 2, .drop 2, .keep 4,
   .narrow .i16 "numedges", .narrow .i16 "texinfo", .narrow .i16 "dispinfo",
   .narrow .i16 "surfaceFogVolumeID", .keep 32,
   .narrow .u16 "m_NumPrims", .narrow .u16 "firstPrimID", .keep 4]

/-- What both formats of leaves have in common. -/
def leafBody : RecordLayout :=
  [.keep 4, .narrow .i16 "cluster", .keep 2, .drop 2] ++ box ++
  [.narrow .u16 "firstleafface", .narrow .u16 "numleaffaces",
   .narrow .u16 "firstleafbrush", .narrow .u16 "numleafbrushes",
   .narrow .i16 "leafWaterDataID"]

/-- Leaves with their ambient light. -/
def litLeaf : RecordLayout := leafBody ++ [.keep 24, .fill 2]

/-- Leaves without ambient light. -/
def leaf : RecordLayout := leafBody ++ [.fill 2]

/-- Edges: two vertices. -/
def edge : RecordLayout := [.narrow .u16 "v", .narrow .u16 "v"]

/-- Lists of numbers. -/
def index : RecordLayout := [.narrow .u16 "index"]

/-- Sides of brushes. -/
def brushSide : RecordLayout :=
  [.narrow .u16 "planenum", .narrow .i16 "texinfo", .keep 4]

/-- Area portals. -/
def areaPortal : RecordLayout :=
  [.narrow .u16 "m_PortalKey", .narrow .u16 "otherarea",
   .narrow .u16 "m_FirstClipPortalVert", .narrow .u16 "m_nClipPortalVerts", .keep 4]

/-- Water in leaves. -/
def leafWater : RecordLayout := [.keep 8, .narrow .i16 "surfaceTexInfoID", .fill 2]

/-- Primitives. -/
def primitive : RecordLayout :=
  [.narrow .u8 "type", .fill 1, .narrow .u16 "firstIndex", .narrow .u16 "indexCount",
   .narrow .u16 "firstVert", .narrow .u16 "vertCount"]

/-- Cubemap samples. -/
def cubemap : RecordLayout := [.keep 13, .drop 151, .fill 3]

/-- Overlays of up to `faces` faces. -/
def overlayOf (faces : Nat) : RecordLayout :=
  [.keep 4, .narrow .i16 "nTexInfo", .narrow .u16 "m_nFaceCountAndRenderOrder",
   .keep (4 * faces + 88)]

/-- Overlays. -/
def overlay : RecordLayout := overlayOf 64

/-- Overlays on water. -/
def waterOverlay : RecordLayout := overlayOf 256

/-- Leaves that a static prop is in. -/
def propLeaf : RecordLayout := [.narrow .u16 "m_Leaf"]

/-- What both formats of static props begin with. -/
def prop : RecordLayout :=
  [.keep 26, .drop 2, .narrow .u16 "m_FirstLeaf", .narrow .u16 "m_LeafCount",
   .keep 2, .drop 2, .keep 32]

/-- Static props of the longer format. -/
def longProp : RecordLayout := prop ++ [.drop 112]

/-- Detail objects. -/
def detailObject : RecordLayout :=
  [.keep 26, .drop 2, .narrow .u16 "m_Leaf", .keep 13, .drop 3, .fill 3,
   .keep 1, .drop 3, .fill 3, .keep 4]

end RecordLayout
end GameArchive.Map
