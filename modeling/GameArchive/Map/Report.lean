/-
What can be wrong with a map, and what is out of the ordinary.
-/
import GameArchive.DecodeError
import GameArchive.Map.Header
import GameArchive.Reported

namespace GameArchive.Map

-- ================================================================= parts

/-- The counted sections of a game lump, in order. -/
inductive Section where
  | propNames
  | propLeaves
  | props
  | detailNames
  | detailSprites
  | detailObjects
deriving DecidableEq, Repr

/-- The name of a section. -/
def Section.name : Section → String
  | .propNames => "static prop names"
  | .propLeaves => "static prop leaves"
  | .props => "static props"
  | .detailNames => "detail names"
  | .detailSprites => "detail sprites"
  | .detailObjects => "detail objects"

/-- What a read that ran past the end was after. -/
inductive Piece where
  | header
  | gameSection (part : Section)
  | pakHeader
  | pakName
  | pakContents
deriving DecidableEq, Repr

/-- The name of a piece. -/
def Piece.name : Piece → String
  | .header => "BSP header"
  | .gameSection part => part.name
  | .pakHeader => "pak local file header"
  | .pakName => "pak file name"
  | .pakContents => "pak file data"

/-- Where records are: in a lump, or in a section of the game lump. -/
inductive Place where
  | lump (id : Nat)
  | gameSection (part : Section)
deriving DecidableEq, Repr

/-- The name of a place. -/
def Place.name : Place → String
  | .lump id => lumpName id
  | .gameSection part => part.name

-- ================================================================ errors

/-- Why a map cannot be transcoded. -/
inductive Error where
  /-- The data are no vendor map. -/
  | notVendorMap (ident version : UInt32)
  /-- A piece lies past the end of its buffer. -/
  | truncated (what : Piece) (offset needed available : Nat)
  /-- A lump lies past the end of the file. -/
  | lumpOutOfBounds (lump : Nat) (offset length : UInt32) (fileSize : Nat)
  /-- A lump is marked as compressed but is no frame. -/
  | missingFrame (lump : Nat)
  /-- A frame or a texture is damaged. -/
  | decode (cause : DecodeError)
  /-- The leaves are in a format of unknown version. -/
  | unknownLeafVersion (version : UInt32)
  /-- The game lump is too short to count its directory. -/
  | noDirectory
  /-- The game lump counts its directory below zero. -/
  | negativeDirectory (count : Int)
  /-- The directory of the game lump is longer than the lump. -/
  | longDirectory (count size : Nat)
  /-- An archive has something else where a file should begin. -/
  | badSignature (index offset : Nat) (found : UInt32)
deriving DecidableEq, Repr

namespace Error

/-- What is wrong, for people. -/
def message : Error → String
  | .notVendorMap ident version =>
    "Invalid BSP header: ident 0x" ++ Hex.upper 8 ident.toNat
      ++ s!", version {version.toNat}"
  | .truncated what offset needed available =>
    "Truncated " ++ what.name
      ++ s!": need {needed} bytes at offset {offset}, buffer holds {available}"
  | .lumpOutOfBounds lump offset length fileSize =>
    "Lump " ++ lumpName lump
      ++ s!" out of bounds: offset {offset.toNat}, length {length.toNat}, file size {fileSize}"
  | .missingFrame lump =>
    "Lump " ++ lumpName lump ++ " is flagged compressed but has no LZMA frame"
  | .decode cause => "Decoding error: " ++ cause.message
  | .unknownLeafVersion version => s!"Unsupported leaf lump version: {version.toNat}"
  | .noDirectory => "I/O error: failed to fill whole buffer"
  | .negativeDirectory count => s!"Malformed game lump: negative directory count {count}"
  | .longDirectory count size =>
    s!"Malformed game lump: directory of {count} entries does not fit in {size} bytes"
  | .badSignature index offset found =>
    "Bad ZIP signature 0x" ++ Hex.upper 8 found.toNat
      ++ s!" for entry {index} at offset {offset}"

/-- Whether the data are damaged, rather than of another kind. -/
def isCorruption : Error → Bool
  | .notVendorMap .. | .unknownLeafVersion _ | .noDirectory => false
  | _ => true

end Error

/-- The header of data, which have to be long enough. -/
def Header.parse (data : Bytes) : Except Error Header :=
  match Header.parse? data with
  | some header => .ok header
  | none => .error (.truncated .header 0 Header.size data.length)

-- ============================================================== warnings

/-- What was out of the ordinary in a map. -/
inductive Warning where
  /-- A lump ends in a part of a record, which is left out. -/
  | trailingBytes (lump size recordSize : Nat)
  /-- A field of a record does not fit its narrower form. -/
  | overflow (place : Place) (record : Nat) (field : String) (value : Int)
  /-- A section counts its records below zero. -/
  | negativeCount (part : Section) (count : Int)
  /-- An archive has no end record, and is kept as it is. -/
  | noEndRecord
deriving DecidableEq, Repr

/-- The 64 bits of a number in two's complement, as uppercase digits. -/
def hexWord (value : Int) : String := Hex.upper 1 (value % 0x10000000000000000).toNat

/-- What was out of the ordinary, for people. -/
def Warning.message : Warning → String
  | .trailingBytes lump size recordSize =>
    lumpName lump ++ s!": size {size} is not a multiple of {recordSize}, ignoring "
      ++ s!"{size % recordSize} trailing bytes"
  | .overflow place record field value =>
    place.name ++ s!" record {record}: " ++ field ++ s!" overflow, original {value} (0x"
      ++ hexWord value ++ ") truncated"
  | .negativeCount part count => "game lump " ++ part.name ++ s!" count is {count}"
  | .noEndRecord => "pak lump has no end of central directory record, copying it"

/-- The steps of transcoding a map. -/
abbrev Step := Reported Warning Error

end GameArchive.Map
