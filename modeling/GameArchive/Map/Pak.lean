/-
The archive that a map carries with it.

It is a ZIP archive in which files may be stored as LZMA frames or as
compressed textures, or as a texture in a frame. Repacking reads the files
in the order of their local headers, decodes them, and writes a new archive
that stores them plainly.
-/
import GameArchive.Digest.Crc32
import GameArchive.Map.Report
import GameArchive.Texture

namespace GameArchive.Map.Pak

-- ============================================================= signatures

/-- What a local header begins with. -/
def localSignature : UInt32 := 0x04034B50

/-- What an entry of the central directory begins with. -/
def centralSignature : UInt32 := 0x02014B50

/-- What the end record begins with. -/
def endSignature : UInt32 := 0x06054B50

/-- The length of a local header without name and extra field. -/
def localSize : Nat := 30

/-- The length of the end record without comment. -/
def endSize : Nat := 22

-- =============================================================== writing

/-- A file of an archive: its name and contents. -/
structure StoredFile where
  name : Bytes
  contents : Bytes
deriving DecidableEq, Repr

/-- Fields of given widths, one after the other. -/
def fields (values : List (Nat × Nat)) : Bytes :=
  values.flatMap fun (width, value) => Bytes.ofNat width value

/-- What both headers of a file say about it: stored without compression,
no date, checksum, twice its size, and the length of its name. -/
def description (f : StoredFile) : List (Nat × Nat) :=
  [(2, 0), (2, 0), (2, 0), (2, 0), (4, (Crc32.checksum f.contents).toNat),
   (4, f.contents.length), (4, f.contents.length), (2, f.name.length)]

/-- A file behind its local header. -/
def localRecord (f : StoredFile) : Bytes :=
  fields ((4, localSignature.toNat) :: (2, 10) :: description f ++ [(2, 0)])
    ++ f.name ++ f.contents

/-- The entry in the central directory of a file at an offset. -/
def centralRecord (offset : Nat) (f : StoredFile) : Bytes :=
  fields ((4, centralSignature.toNat) :: (2, 20) :: (2, 10) :: description f
    ++ [(2, 0), (2, 0), (2, 0), (2, 0), (4, 0), (4, offset)]) ++ f.name

/-- The central directory of files that begin at an offset. -/
def centralRecords : (offset : Nat) → List StoredFile → Bytes
  | _, [] => []
  | offset, f :: rest =>
    centralRecord offset f
      ++ centralRecords (offset + localSize + f.name.length + f.contents.length) rest

/-- The end record. -/
def endRecord (count directorySize directoryOffset : Nat) : Bytes :=
  fields [(4, endSignature.toNat), (2, 0), (2, 0), (2, count), (2, count),
    (4, directorySize), (4, directoryOffset), (2, 0)]

/-- The archive of files. -/
def archive (files : List StoredFile) : Bytes :=
  let bodies := files.flatMap localRecord
  let directory := centralRecords 0 files
  bodies ++ directory ++ endRecord files.length directory.length bodies.length

-- =============================================================== reading

/-- Whether an end record begins here. -/
def isEndRecord (data : Bytes) : Bool :=
  data.startsWith (Bytes.ofUInt32 endSignature) && (data.take endSize).length = endSize

/-- The last end record of data that begin at an offset, or the one found
before. -/
def lastEndRecord : (offset : Nat) → (found? : Option Nat) → Bytes → Option Nat
  | _, found?, [] => found?
  | offset, found?, b :: rest =>
    lastEndRecord (offset + 1) (if isEndRecord (b :: rest) then some offset else found?) rest

/-- The place of the end record: the last one, if there are several. -/
def findEndRecord (data : Bytes) : Option Nat := lastEndRecord 0 none data

/-- Takes a texture out of its compressed form; other contents stay. -/
def unpackTexture (contents : Bytes) : Except Error Bytes :=
  if Texture.isTexture contents then (Texture.decompress contents).mapError .decode
  else .ok contents

/-- The contents at the start of `tail`, which begins at `offset` in an
archive of `total` bytes, and how far to the next file. What begins as a
frame is decoded as one; then, by the one size or by the other, the file
ends. -/
def readContents (total offset : Nat) (packed unpacked : UInt32) (tail : Bytes) :
    Except Error (Bytes × Nat) :=
  if Lzma.isFrame tail then do
    let contents ← (Lzma.decompress tail).mapError .decode
    return (contents, packed.toNat)
  else if tail.length < unpacked.toNat then
    .error (.truncated .pakContents offset unpacked.toNat total)
  else .ok (tail.take unpacked.toNat, unpacked.toNat)

/-- The file whose local header should be at an offset, and the offset of
the next one. -/
def readFile (data : Bytes) (index offset : Nat) : Except Error (StoredFile × Nat) := do
  let here : Bytes := data.drop offset
  let signature := (data.u32At? offset).getD 0
  if signature ≠ localSignature then .error (.badSignature index offset signature)
  else if data.length < offset + localSize then
    .error (.truncated .pakHeader offset localSize data.length)
  else
    let nameLength := (here.u16At 26).toNat
    let extraLength := (here.u16At 28).toNat
    let nameStart := offset + localSize
    if data.length < nameStart + nameLength then
      .error (.truncated .pakName nameStart nameLength data.length)
    else
      let start := nameStart + nameLength + extraLength
      let (stored, advance) ← readContents data.length start (here.u32At 18) (here.u32At 22)
        (data.drop start)
      let contents ← unpackTexture stored
      return (⟨here.slice localSize nameLength, contents⟩, start + advance)

/-- `count` files whose local headers follow each other from an offset on;
`index` counts those before. -/
def readFiles (data : Bytes) : (count index offset : Nat) → Except Error (List StoredFile)
  | 0, _, _ => .ok []
  | count + 1, index, offset => do
    let (file, next) ← readFile data index offset
    let rest ← readFiles data count (index + 1) next
    return file :: rest

-- ============================================================= repacking

/-- Stores every file of an archive plainly. An archive without an end
record is kept as it is. -/
def repack (data : Bytes) : Step Bytes := do
  if data.isEmpty then return []
  else
    match findEndRecord data with
    | none =>
      Reported.warn [.noEndRecord]
      return data
    | some place =>
      let count := (data.u16At (place + 10)).toNat
      let files ← Reported.ofExcept (readFiles data count 0 0)
      return archive files

end GameArchive.Map.Pak
