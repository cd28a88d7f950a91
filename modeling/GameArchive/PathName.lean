/-
Path names, as text and as pieces between slashes.

A path name keeps every piece it was written with, so that its text comes
back unchanged; what a piece means is decided where the name is resolved.
Empty pieces and "." at the end of a name say nothing about its last
component, and are passed over by the functions that ask for it.
-/
import GameArchive.Text.Parts

namespace GameArchive

/-- A path name: whether it begins at the root, and its pieces. -/
structure PathName where
  absolute : Bool
  pieces : List String
deriving DecidableEq, Repr, Inhabited

namespace PathName

-- ================================================================== text

/-- The pieces of a text between slashes; an empty text has none. -/
def piecesOf (text : List Char) : List String :=
  if text.isEmpty then [] else (Text.parts (· == '/') text).map String.ofList

/-- The path name that a text writes. -/
def ofText (text : String) : PathName :=
  match text.toList with
  | '/' :: rest => ⟨true, piecesOf rest⟩
  | chars => ⟨false, piecesOf chars⟩

/-- The text of a path name. -/
def text (p : PathName) : String :=
  (if p.absolute then "/" else "") ++ String.intercalate "/" p.pieces

/-- Whether a name has no text at all. -/
def isEmpty (p : PathName) : Bool := !p.absolute && p.pieces.isEmpty

-- ============================================================ components

/-- Whether a piece says nothing about the last component. -/
def isIdle (piece : String) : Bool := piece = "" || piece = "."

/-- The pieces up to the last that is a component. -/
def dropIdle (pieces : List String) : List String :=
  (pieces.reverse.dropWhile isIdle).reverse

/-- The name without idle pieces at its end. The "." that a relative name
begins with is a component of its own. -/
def trimmed (p : PathName) : PathName :=
  match p.absolute, p.pieces with
  | false, "." :: rest => ⟨false, "." :: dropIdle rest⟩
  | absolute, pieces => ⟨absolute, dropIdle pieces⟩

/-- The last component, if it is the name of something. -/
def fileName? (p : PathName) : Option String :=
  match p.trimmed.pieces.getLast? with
  | some piece => if piece = "." || piece = ".." then none else some piece
  | none => none

/-- The name without its last component, if it has one. -/
def parent? (p : PathName) : Option PathName :=
  let t := p.trimmed
  if t.pieces.isEmpty then none else some (trimmed ⟨t.absolute, t.pieces.dropLast⟩)

-- =============================================================== joining

/-- A name below another; an absolute one stays what it is. -/
def join (p q : PathName) : PathName :=
  if q.absolute then q
  else if q.pieces.isEmpty then p
  else if p.pieces.getLast? = some "" then ⟨p.absolute, p.pieces.dropLast ++ q.pieces⟩
  else ⟨p.absolute, p.pieces ++ q.pieces⟩

/-- The name with further components. -/
def below (p : PathName) (components : List String) : PathName :=
  p.join ⟨false, components⟩

/-- The name with its last component replaced. -/
def withFileName (p : PathName) (name : String) : PathName :=
  ((if p.fileName?.isSome then p.parent? else none).getD p).below [name]

end PathName
end GameArchive
