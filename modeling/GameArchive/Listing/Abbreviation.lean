/-
Long paths in listings.

A path that is too long keeps its file name and as many whole components
from its beginning as fit, with an ellipsis between them. If not even the
file name fits, as much of its end as fits follows the ellipsis. Lengths are
those of the UTF-8 form.
-/
import GameArchive.Text.ByteLength
import GameArchive.Text.Parts

namespace GameArchive.Listing

open Text (byteLength)

/-- The longest end of a text that is at most `limit` bytes long. -/
def fittingEnd (limit : Nat) : List Char → List Char
  | [] => []
  | c :: rest => if byteLength (c :: rest) ≤ limit then c :: rest else fittingEnd limit rest

/-- As many components, each with its slash, as fit into `budget` bytes when
`used` of them are taken. -/
def fittingComponents (budget : Nat) : (used : Nat) → List (List Char) → List Char
  | _, [] => []
  | used, part :: rest =>
    let used := used + byteLength part + 1
    if budget < used then []
    else part ++ ('/' :: fittingComponents budget used rest)

/-- What stands for the part that is left out. -/
def ellipsis : List Char := "...".toList

/-- A path in at most `limit` bytes, if there is room for the ellipsis. -/
def abbreviate (limit : Nat) (path : List Char) : List Char :=
  let fileName := Text.lastPart (· == '/') path
  if byteLength path ≤ limit then path
  else if limit ≤ byteLength fileName + 4 then
    ellipsis ++ fittingEnd (limit - 3) fileName
  else
    let budget := limit - byteLength fileName - 4
    fittingComponents budget 0 (Text.parts (· == '/') path)
      ++ (ellipsis ++ '/' :: fileName)

end GameArchive.Listing
