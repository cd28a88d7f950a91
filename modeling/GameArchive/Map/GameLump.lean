/-
The game lump of a map: a directory, and six counted sections one after the
other.

The directory names its sub-lumps by four letters and by their place in the
file. The sections of static props and of detail objects are nowhere
tabulated: each begins where the one before it ends. Narrowing their
records therefore moves all that follows, and the directory is made anew for
the new places.
-/
import GameArchive.Map.Record

namespace GameArchive.Map

-- ============================================================= directory

/-- One entry of the directory. -/
structure GameEntry where
  id : UInt32
  flags : UInt16
  version : UInt16
  /-- The place of the sub-lump in the file. -/
  offset : UInt32
  length : UInt32
deriving DecidableEq, Repr, Inhabited

namespace GameEntry

/-- The length of an entry. -/
def size : Nat := 16

/-- The letters sprp as a number: static props. -/
def staticProps : UInt32 := 0x73707270

/-- The letters dprp as a number: detail objects. -/
def detailProps : UInt32 := 0x64707270

/-- Reads the entry that data begin with. -/
def read (data : Bytes) : GameEntry :=
  ⟨data.u32At 0, data.u16At 4, data.u16At 6, data.u32At 8, data.u32At 12⟩

/-- The entry as sixteen bytes. -/
def toBytes (e : GameEntry) : Bytes :=
  Bytes.ofUInt32 e.id ++ Bytes.ofUInt16 e.flags ++ Bytes.ofUInt16 e.version
    ++ Bytes.ofUInt32 e.offset ++ Bytes.ofUInt32 e.length

end GameEntry

/-- Reads the directory at the start of a game lump. -/
def readDirectory (data : Bytes) : Except Error (List GameEntry) :=
  let count := data.i32At 0
  if data.length < 4 then .error .noDirectory
  else if count < 0 then .error (.negativeDirectory count)
  else if data.length < 4 + GameEntry.size * count.toNat then
    .error (.longDirectory count.toNat data.length)
  else .ok ((Bytes.pieces GameEntry.size count.toNat (data.drop 4)).map GameEntry.read)

/-- The version of static props in the output. -/
def propsVersion : UInt16 := 6

/-- The version that tells the format of the static props: that of their
last entry. -/
def propsVersionOf (directory : List GameEntry) : UInt16 :=
  match directory.reverse.find? (·.id == GameEntry.staticProps) with
  | some entry => entry.version
  | none => propsVersion

-- ============================================================== sections

/-- What the records of a section become. The names and sprites, which are
kept as they are, also keep a count below zero; elsewhere it becomes
zero. -/
structure SectionFormat where
  part : Section
  layout : RecordLayout
  keepsCount : Bool

/-- The formats of the six sections of a game lump. -/
def sectionFormats (propsVersion : UInt16) : List SectionFormat :=
  [⟨.propNames, [.keep 128], true⟩,
   ⟨.propLeaves, .propLeaf, false⟩,
   ⟨.props, if propsVersion = 7 then .longProp else .prop, false⟩,
   ⟨.detailNames, [.keep 128], true⟩,
   ⟨.detailSprites, [.keep 32], true⟩,
   ⟨.detailObjects, .detailObject, false⟩]

/-- A section of a game lump: its format, the place of its count, and the
count as stored. -/
structure CountedSection where
  format : SectionFormat
  offset : Nat
  count : Int

namespace CountedSection

/-- The number of records: none where the count is below zero. -/
def records (s : CountedSection) : Nat := s.count.toNat

/-- The length of the section, its count included. -/
def sourceLength (s : CountedSection) : Nat := 4 + s.records * s.format.layout.sourceSize

/-- The length of the narrowed section, its count included. -/
def targetLength (s : CountedSection) : Nat := 4 + s.records * s.format.layout.targetSize

/-- The length of narrowed sections that follow each other. -/
def totalLength : List CountedSection → Nat
  | [] => 0
  | s :: rest => s.targetLength + totalLength rest

/-- Reads the count at an offset. -/
def read (data : Bytes) (format : SectionFormat) (offset : Nat) : Step CountedSection := do
  if data.length < offset + 4 then
    Reported.fail (.truncated (.gameSection format.part) offset 4 data.length)
  else
    let count := data.i32At offset
    if count < 0 then Reported.warn [.negativeCount format.part count]
    return ⟨format, offset, count⟩

/-- Reads the counts of sections that follow each other from an offset
on. -/
def readChain (data : Bytes) : List SectionFormat → (offset : Nat) → Step (List CountedSection)
  | [], _ => return []
  | format :: rest, offset => do
    let s ← read data format offset
    let tail ← readChain data rest (offset + s.sourceLength)
    return s :: tail

/-- The section with its records narrowed. -/
def write (data : Bytes) (s : CountedSection) : Step Bytes := do
  let start := s.offset + 4
  let needed := s.records * s.format.layout.sourceSize
  if data.length < start + needed then
    Reported.fail (.truncated (.gameSection s.format.part) start needed data.length)
  else
    let count : Int := if s.format.keepsCount then s.count else s.records
    let (out, warnings) :=
      s.format.layout.narrowAll (.gameSection s.format.part) s.records (data.drop start)
    Reported.warn warnings
    return Bytes.ofNat 4 (count % 0x100000000).toNat ++ out

/-- Sections with their records narrowed, one after the other. -/
def writeChain (data : Bytes) : List CountedSection → Step Bytes
  | [] => return []
  | s :: rest => do
    let head ← s.write data
    let tail ← writeChain data rest
    return head ++ tail

end CountedSection

-- =========================================================== transcoding

/-- An entry of the directory for the new places. The static props begin
right after the directory, the detail objects at `details` in the lump; all
else stays where it is from the start of the lump on. -/
def GameEntry.moved (oldBase newBase directoryEnd details : Nat) (e : GameEntry) : GameEntry :=
  if e.id = staticProps then
    { e with offset := UInt32.ofNat (newBase + directoryEnd), version := propsVersion }
  else if e.id = detailProps then { e with offset := UInt32.ofNat (newBase + details) }
  else { e with offset := e.offset - UInt32.ofNat oldBase + UInt32.ofNat newBase }

/-- Transcodes a game lump that lies at `oldBase` in the decoded input and
will lie at `newBase` in the output. -/
def transcodeGameLump (oldBase newBase : Nat) (data : Bytes) : Step Bytes := do
  if data.isEmpty then return []
  else
    let directory ← Reported.ofExcept (readDirectory data)
    let directoryEnd := 4 + GameEntry.size * directory.length
    let sections ← CountedSection.readChain data
      (sectionFormats (propsVersionOf directory)) directoryEnd
    let details := directoryEnd + CountedSection.totalLength (sections.take 3)
    let moved := directory.map (GameEntry.moved oldBase newBase directoryEnd details)
    let body ← CountedSection.writeChain data sections
    return Bytes.ofNat 4 directory.length ++ moved.flatMap GameEntry.toBytes ++ body

end GameArchive.Map
