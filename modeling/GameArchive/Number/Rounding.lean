/-
Rounding fractions.

Sizes and shares are worked out in numbers of 53 binary digits, and every
step is rounded to the nearest of these. All of them are fractions, so that
they can be written out exactly, and rounded once more to a few decimal
places. Ties go to the even neighbour throughout.
-/
namespace GameArchive

/-- A fraction of natural numbers; the denominator is not zero. -/
structure Fraction where
  num : Nat
  den : Nat
deriving DecidableEq, Repr

namespace Fraction

/-- A whole number. -/
def ofNat (n : Nat) : Fraction := ⟨n, 1⟩

/-- The nearest whole number, of two the even one. -/
def round (f : Fraction) : Nat :=
  let low := f.num / f.den
  let rest := f.num % f.den
  if 2 * rest < f.den then low
  else if f.den < 2 * rest then low + 1
  else low + low % 2

/-- The fraction times a power of two. -/
def scale (f : Fraction) (exponent : Int) : Fraction :=
  match exponent with
  | .ofNat n => ⟨f.num <<< n, f.den⟩
  | .negSucc n => ⟨f.num, f.den <<< (n + 1)⟩

/-- The exponent that scales a fraction to 53 binary digits. -/
def doubleExponent (f : Fraction) : Int :=
  let guess : Int := 52 + Nat.log2 f.den - Nat.log2 f.num
  let scaled := f.scale guess
  if scaled.num < scaled.den <<< 52 then guess + 1 else guess

/-- The nearest number of 53 binary digits. -/
def toDouble (f : Fraction) : Fraction :=
  if f.num = 0 then ofNat 0
  else
    let exponent := f.doubleExponent
    (ofNat (f.scale exponent).round).scale (-exponent)

/-- The part below one. -/
def fractional (f : Fraction) : Fraction := ⟨f.num % f.den, f.den⟩

/-- Whether a fraction is at least a whole number. -/
def atLeast (f : Fraction) (n : Nat) : Bool := n * f.den ≤ f.num

/-- The fraction divided by a whole number, not rounded. -/
def dividedBy (f : Fraction) (n : Nat) : Fraction := ⟨f.num, f.den * n⟩

/-- The fraction times a whole number, not rounded. -/
def times (f : Fraction) (n : Nat) : Fraction := ⟨f.num * n, f.den⟩

/-- The quotient of two fractions, not rounded. -/
def divide (f g : Fraction) : Fraction := ⟨f.num * g.den, f.den * g.num⟩

/-- The text with a fixed number of decimal places. -/
def fixedText (places : Nat) (f : Fraction) : String :=
  let unit := Nat.pow 10 places
  let n := (f.times unit).round
  if places = 0 then toString n
  else
    let digits := (toString (n % unit)).toList
    toString (n / unit) ++ "."
      ++ String.ofList (List.replicate (places - digits.length) '0' ++ digits)

end Fraction
end GameArchive
