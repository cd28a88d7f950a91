/-
The publishers of the game.

Each publisher's build has secrets of its own: one for the headers and
tables of its containers, one for their contents. The two builds of one
publisher share theirs. The name of a build's manifest tells whose it is.
-/
import GameArchive.Bytes
import GameArchive.Text.Ascii

namespace GameArchive.Package

/-- The publishers, by their builds. -/
inductive Provider where
  | nexon
  | tiancity
  | beancity
  | nexonJp
deriving DecidableEq, Repr

namespace Provider

/-- All providers, in the order in which they are tried. -/
def all : List Provider := [nexon, tiancity, beancity, nexonJp]

-- ================================================================= names

/-- The name of a provider in commands and listings. -/
def name : Provider → String
  | .nexon => "nexon"
  | .tiancity => "tiancity"
  | .beancity => "beancity"
  | .nexonJp => "nexon-jp"

/-- The provider that a text names, in any case, with or without the
hyphen. -/
def ofName? (text : String) : Option Provider :=
  match Text.asciiLower text with
  | "nexon" => some .nexon
  | "tiancity" => some .tiancity
  | "beancity" => some .beancity
  | "nexon-jp" | "nexonjp" => some .nexonJp
  | _ => none

/-- The file name of a provider's manifest. -/
def manifestName : Provider → String
  | .nexon => "a9a34080ecb7db1b1defb7539eaa32a4.pkg"
  | .tiancity => "9aba81425766ded41499e447e36f6233.pkg"
  | .beancity => "7715a87e0e7e19becae97a3a93a0d9a2.pkg"
  | .nexonJp => "451e91710e913436ae9f01eb3a0e010d.pkg"

/-- The provider whose manifest has this name, in any case. -/
def ofManifestName? (name : String) : Option Provider :=
  all.find? fun p => Text.sameIgnoringCase p.manifestName name

-- =============================================================== secrets

/-- The secret of headers and tables. -/
def headerSecret : Provider → Bytes
  | .nexon | .nexonJp =>
    [0x6C, 0x6B, 0x67, 0x75, 0x69, 0x37, 0x38, 0x31, 0x6B, 0x6C, 0x37, 0x38, 0x39, 0x73,
     0x64, 0x21, 0x40, 0x23, 0x25, 0x38, 0x39, 0x26, 0x5E, 0x73, 0x64]
  | .tiancity =>
    [0x9B, 0x65, 0xC7, 0x9B, 0xC7, 0xDF, 0x8E, 0x7E, 0xD4, 0xC6, 0x59, 0x52, 0x5C, 0xF7,
     0x22, 0xFF, 0xF4, 0xE8, 0xFF, 0xE7, 0xB5, 0xC2, 0x77]
  | .beancity =>
    [0x86, 0x39, 0x53, 0xBD, 0x16, 0x11, 0x6D, 0x06, 0x2A, 0x84, 0xF3, 0x4E, 0xE0, 0x4A,
     0xA3]

/-- The secret of encrypted contents. -/
def dataSecret : Provider → Bytes
  | .nexon | .nexonJp =>
    [0x5E, 0x39, 0x67, 0x45, 0x72, 0x67, 0x32, 0x53, 0x78, 0x37, 0x62, 0x6E, 0x6B, 0x37,
     0x40, 0x23, 0x73, 0x64, 0x66, 0x6A, 0x6E, 0x68, 0x40]
  | .tiancity =>
    [0x8E, 0x5C, 0xB8, 0x92, 0x45, 0xD1, 0x90, 0xBA, 0x82, 0x0F, 0xD9, 0x7A, 0x99, 0x8E,
     0xB3, 0x87, 0xF7]
  | .beancity =>
    [0x1F, 0x9F, 0xF8, 0xF4, 0x18, 0xAC, 0x25, 0xA2, 0xBB, 0x37, 0x82, 0x6D, 0xA8, 0xAE,
     0xA7, 0x28, 0xBA, 0xDD, 0xDD, 0xE4, 0x6B]

end Provider
end GameArchive.Package
