/-
Sizes and shares in listings.

A size is divided by a thousand until it is below that, and named with its
unit; it has two decimal places, or none if there is nothing to show in
them. A share tells by how much the stored form is smaller than the file.
-/
import GameArchive.Number.Rounding

namespace GameArchive.Listing

-- ================================================================= sizes

/-- The units of sizes, each a thousand times the one before. -/
def units : List String := ["B", "kB", "MB", "GB", "TB", "PB", "EB"]

/-- A size and its unit, where units are still to come. -/
def scaleSize (size : Fraction) : (unit : String) → List String → Fraction × String
  | unit, [] => (size, unit)
  | unit, next :: more =>
    if size.atLeast 1000 then scaleSize (size.dividedBy 1000).toDouble next more else (size, unit)

/-- Whether a size is a whole number, up to the precision of numbers near
one. -/
def isWhole (size : Fraction) : Bool := size.fractional.num <<< 52 ≤ size.den

/-- A size of so many bytes. -/
def sizeText (bytes : Nat) : String :=
  let (size, unit) := scaleSize (Fraction.ofNat bytes).toDouble "B" (units.drop 1)
  size.fixedText (if isWhole size then 0 else 2) ++ " " ++ unit

-- ================================================================ shares

/-- A percentage with one decimal place; one below zero keeps its sign even
where it is rounded to zero. -/
def percentText (negative : Bool) (percent : Fraction) : String :=
  (if negative then "-" else "") ++ percent.fixedText 1 ++ "%"

/-- By how much `stored` bytes are fewer than `full` ones. -/
def savingText (full stored : Nat) : String :=
  if full = 0 then "N/A"
  else
    let part := (Fraction.ofNat stored).toDouble
    let share := (part.divide (Fraction.ofNat full).toDouble).toDouble
    let percent := (share.times 100).toDouble
    let whole := 100 * percent.den
    if percent.num ≤ whole then
      percentText false (Fraction.toDouble ⟨whole - percent.num, percent.den⟩)
    else percentText true (Fraction.toDouble ⟨percent.num - whole, percent.den⟩)

end GameArchive.Listing
