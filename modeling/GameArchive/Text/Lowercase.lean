/-
Lower case of whole texts by the rules of Unicode.

A character maps to one other, with two exceptions: the capital I with a
dot becomes two characters, and the capital sigma has a form of its own at
the end of a word. A sigma ends a word when, apart from characters that
case ignores, a letter with case stands before it and none after it.
-/
import GameArchive.Text.CaseTable

namespace GameArchive.Text

/-- Whether a number lies in one of the ranges. -/
def inRanges (ranges : Array (Nat × Nat)) (n : Nat) : Bool :=
  ranges.any fun r => r.1 ≤ n && n ≤ r.2

/-- Whether a character is a letter with case. -/
def isCased (c : Char) : Bool := inRanges casedRanges c.toNat

/-- Whether case rules look past a character. -/
def isCaseIgnorable (c : Char) : Bool := inRanges caseIgnorableRanges c.toNat

/-- The lower case of a character on its own. -/
def lowerChar (c : Char) : Char :=
  if c.toNat < 0x80 then c.toLower
  else
    match lowercaseRuns.find? fun r =>
        r.first ≤ c.toNat && c.toNat ≤ r.last && (c.toNat - r.first) % r.stride == 0 with
    | some r => Char.ofNat (c.toNat + r.up - r.down)
    | none => c

/-- Whether a letter with case comes next, apart from ignored
characters. -/
def meetsCased (chars : List Char) : Bool :=
  match chars.dropWhile isCaseIgnorable with
  | [] => false
  | c :: _ => isCased c

/-- The capital sigma. -/
def capitalSigma : Char := Char.ofNat 0x3A3

/-- The small sigma that ends a word. -/
def finalSigma : Char := Char.ofNat 0x3C2

/-- The lower case of a character between the characters before it, nearest
first, and those after it. -/
def lowerInContext (before : List Char) (c : Char) (after : List Char) : List Char :=
  if c = capitalSigma ∧ meetsCased before ∧ ¬ meetsCased after then [finalSigma]
  else if c.toNat = 0x130 then ['i', Char.ofNat 0x307]
  else [lowerChar c]

/-- The lower case of characters, given those before them, nearest
first. -/
def lowerFrom : (before : List Char) → List Char → List Char
  | _, [] => []
  | before, c :: rest => lowerInContext before c rest ++ lowerFrom (c :: before) rest

/-- The lower case of a text. -/
def lowercase (text : List Char) : List Char := lowerFrom [] text

end GameArchive.Text
