/-
Turning the vendor's maps into standard ones.

Every lump is decoded, its records are narrowed as its kind asks for, and
the lumps are laid out one after the other behind a new header. The lumps
are treated in ascending order, since the game lump has to know how long
the lumps before it have become.
-/
import GameArchive.Map.GameLump
import GameArchive.Map.Pak

namespace GameArchive.Map

-- ============================================================== decoding

/-- A decoded lump: its format and its contents. -/
structure Lump where
  version : UInt32
  data : Bytes
deriving DecidableEq, Repr

/-- Decodes a lump of a file. The length of a compressed lump is that of
its frame, whatever its entry says. -/
def decodeLump (file : Bytes) (id : Nat) (h : LumpHeader) : Except Error Lump :=
  if file.length < h.offset.toNat + h.length.toNat then
    .error (.lumpOutOfBounds id h.offset h.length file.length)
  else if h.isCompressed then
    let frame := file.drop h.offset.toNat
    if Lzma.isFrame frame then do
      let data ← (Lzma.decompress frame).mapError .decode
      return ⟨h.formatVersion, data⟩
    else .error (.missingFrame id)
  else .ok ⟨h.formatVersion, file.slice h.offset.toNat h.length.toNat⟩

/-- Decodes lumps in order, the first of which is `id`. -/
def decodeLumps (file : Bytes) : (id : Nat) → List LumpHeader → Except Error (List Lump)
  | _, [] => .ok []
  | id, h :: rest => do
    let lump ← decodeLump file id h
    let tail ← decodeLumps file (id + 1) rest
    return lump :: tail

-- ============================================================= treatment

/-- What is done to the contents of a lump. -/
inductive Treatment where
  /-- Nothing. -/
  | copy
  /-- Its records are narrowed. -/
  | narrow (layout : RecordLayout)
  /-- Its records are narrowed as its version says. -/
  | leaves
  /-- Its directory and its sections are made anew. -/
  | gameLump
  /-- Its files are decoded. -/
  | pak

/-- What is done to each lump. -/
def Treatment.ofLump (id : Nat) : Treatment :=
  match id with
  | 5 => .narrow .node
  | 7 | 27 | 58 => .narrow .face
  | 10 => .leaves
  | 12 => .narrow .edge
  | 16 | 17 | 39 | 46 => .narrow .index
  | 19 => .narrow .brushSide
  | 21 => .narrow .areaPortal
  | 35 => .gameLump
  | 36 => .narrow .leafWater
  | 37 => .narrow .primitive
  | 40 => .pak
  | 42 => .narrow .cubemap
  | 45 => .narrow .overlay
  | 50 => .narrow .waterOverlay
  | _ => .copy

/-- Narrows the leaves. In version 0 each has its ambient light, in version
1 that is elsewhere; if there are none, their version does not matter. -/
def narrowLeaves (id : Nat) (lump : Lump) : Step Bytes :=
  if lump.data.isEmpty then return []
  else if lump.version = 0 then RecordLayout.litLeaf.narrowLump id lump.data
  else if lump.version = 1 then RecordLayout.leaf.narrowLump id lump.data
  else Reported.fail (.unknownLeafVersion lump.version)

/-- Treats a lump that begins at `oldBase` in the decoded input and at
`newBase` in the output. -/
def treatLump (id oldBase newBase : Nat) (lump : Lump) : Step Bytes :=
  match Treatment.ofLump id with
  | .copy => return lump.data
  | .narrow layout => layout.narrowLump id lump.data
  | .leaves => narrowLeaves id lump
  | .gameLump => transcodeGameLump oldBase newBase lump.data
  | .pak => Pak.repack lump.data

/-- Treats lumps in order, the first of which is `id`. -/
def treatLumps : (id oldBase newBase : Nat) → List Lump → Step (List Lump)
  | _, _, _, [] => return []
  | id, oldBase, newBase, lump :: rest => do
    let data ← treatLump id oldBase newBase lump
    let tail ← treatLumps (id + 1) (oldBase + lump.data.length) (newBase + data.length) rest
    return ⟨lump.version, data⟩ :: tail

-- ============================================================== assembly

/-- The directory of lumps that follow each other from an offset on. -/
def directoryFrom : (offset : Nat) → List Lump → List LumpHeader
  | _, [] => []
  | offset, lump :: rest =>
    ⟨UInt32.ofNat offset, UInt32.ofNat lump.data.length, lump.version, 0⟩
      :: directoryFrom (offset + lump.data.length) rest

/-- The header of a standard map of these lumps. -/
def standardHeader (revision : UInt32) (lumps : List Lump) : Header :=
  let directory := directoryFrom Header.size lumps
  { ident := Header.mapIdent
    version := Header.standardVersion
    lumps := Vector.ofFn fun i => directory.getD i.val default
    revision := revision }

/-- The file of a standard map of these lumps. -/
def assemble (revision : UInt32) (lumps : List Lump) : Bytes :=
  (standardHeader revision lumps).toBytes ++ lumps.flatMap Lump.data

-- =========================================================== transcoding

/-- The header of data that should be a vendor map. -/
def vendorHeader (data : Bytes) : Except Error Header :=
  if isVendorMap data then Header.parse data
  else
    match Header.parse? data with
    | some header => .error (.notVendorMap header.ident header.version)
    | none => .error (.notVendorMap 0 0)

/-- The standard map of decoded lumps; `fix` tells whether records are
narrowed. -/
def build (fix : Bool) (revision : UInt32) (lumps : List Lump) : Step Bytes := do
  let treated ← if fix then treatLumps 0 Header.size Header.size lumps else pure lumps
  return assemble revision treated

/-- Transcodes a vendor map; `fix` tells whether records are narrowed, or
lumps only decoded. No bytes at all stay none. -/
def transcode (fix : Bool) (data : Bytes) : Step Bytes := do
  if data.isEmpty then return []
  else
    let header ← Reported.ofExcept (vendorHeader data)
    let lumps ← Reported.ofExcept (decodeLumps data 0 header.lumps.toList)
    build fix header.revision lumps

end GameArchive.Map
