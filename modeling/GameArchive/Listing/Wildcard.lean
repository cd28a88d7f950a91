/-
Patterns in which a star stands for any text.

A text and a pattern are compared without regard to case and to the kind of
slash. The parts of the pattern between stars are placed from the left, each
at the first place where it fits, and the last at the end of the text. Where
the search has come to is counted in bytes; a text is cut there, which can
be done between two characters only.
-/
import GameArchive.Text.Ascii
import GameArchive.Text.ByteLength
import GameArchive.Text.Lowercase
import GameArchive.Text.Parts

namespace GameArchive.Listing

open Text (byteLength)

/-- A text as it is compared. -/
def comparable (text : String) : List Char :=
  (Text.lowercase text.toList).map fun c => if c = '\\' then '/' else c

/-- What stands behind the first `position` bytes of a text, if they end with
a character. -/
def behind? : (position : Nat) → List Char → Option (List Char)
  | 0, text => some text
  | _ + 1, [] => none
  | position + 1, c :: rest =>
    if position + 1 < c.utf8Size then none
    else behind? (position + 1 - c.utf8Size) rest

/-- How many bytes stand before the first occurrence of a part in a text. -/
def firstPlace? (part : List Char) : List Char → Option Nat
  | [] => if part.isEmpty then some 0 else none
  | c :: rest =>
    if part.isPrefixOf (c :: rest) then some 0
    else (firstPlace? part rest).map (c.utf8Size + ·)

/-- Places parts of a pattern, the first of which is number `index`, behind
the first `position` bytes of a text. -/
def placeParts (text : List Char) (last : Nat) :
    (index position : Nat) → List (List Char) → Option Bool
  | _, _, [] => some true
  | index, position, part :: more =>
    if part.isEmpty then placeParts text last (index + 1) position more
    else if index = 0 then
      if part.isPrefixOf text then
        placeParts text last (index + 1) (byteLength part) more
      else some false
    else if index = last then
      some (position + byteLength part ≤ byteLength text && part.isSuffixOf text)
    else
      match behind? position text with
      | none => none
      | some rest =>
        match firstPlace? part rest with
        | none => some false
        | some place =>
          placeParts text last (index + 1) (position + place + byteLength part) more

/-- Whether a text matches a pattern; every text matches an empty one. There is
no answer if a text would have to be cut within a character. -/
def matchText? (text pattern : String) : Option Bool :=
  if pattern.isEmpty || pattern == "*" then some true
  else
    let text := comparable text
    let pattern := comparable pattern
    if pattern.contains '*' then
      let parts := Text.parts (· == '*') pattern
      placeParts text (parts.length - 1) 0 0 parts
    else some (text == pattern)

/-- Whether a text matches a pattern. -/
def matchesPattern (text pattern : String) : Bool :=
  matchText? text pattern == some true

end GameArchive.Listing
