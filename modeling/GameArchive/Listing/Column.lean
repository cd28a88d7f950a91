/-
What a listing tells of the entries of a container.
-/
import GameArchive.Listing.Abbreviation
import GameArchive.Listing.Quantity
import GameArchive.Listing.Table
import GameArchive.Package.Container

namespace GameArchive.Listing

open Package (Entry)

/-- The columns of a listing. -/
inductive Column where
  | path
  | size
  | stored
  | saving
  | offset
  | isEncrypted
  | isWrapped
  | isTexture
deriving DecidableEq, Repr

namespace Column

/-- The columns of a listing with sizes and offsets, with what is found in
the contents, or with both. -/
def select (long detect : Bool) : List Column :=
  [.path, .size] ++ ((if long then [.stored, .saving, .offset, .isEncrypted] else [])
    ++ (if detect then [.isWrapped, .isTexture] else []))

/-- How a column looks. Numbers stand at the right edge. -/
def style : Column → ColumnStyle
  | .path => ⟨"Path", false⟩
  | .size => ⟨"Size", true⟩
  | .stored => ⟨"Stored", true⟩
  | .saving => ⟨"Ratio", true⟩
  | .offset => ⟨"Offset", true⟩
  | .isEncrypted => ⟨"Encrypted", false⟩
  | .isWrapped => ⟨"App-encrypted", false⟩
  | .isTexture => ⟨"Compressed texture", false⟩

/-- How long a path in a listing can be. -/
def pathLimit : Nat := 60

/-- What is said of something that is so or is not. -/
def flagText (flag : Bool) : String := if flag then "yes" else "-"

/-- What a column tells of an entry. -/
def cell (e : Entry) (flags : Package.Container.Flags) : Column → String
  | .path => String.ofList (abbreviate pathLimit e.path.toList)
  | .size => sizeText e.unpackedSize.toNat
  | .stored => sizeText e.packedSize.toNat
  | .saving => savingText e.unpackedSize.toNat e.packedSize.toNat
  | .offset => "0x" ++ Hex.upper 8 e.offset
  | .isEncrypted => flagText e.isEncrypted
  | .isWrapped => flagText flags.isWrapped
  | .isTexture => flagText flags.isTexture

end Column
end GameArchive.Listing
