/-
The binary digits of π after the point.

They are the customary source of numbers with nothing up their sleeve: the
Blowfish cipher starts from the first 33344 of them. They are computed here
in integer arithmetic by `π = 16 arctan (1/5) - 4 arctan (1/239)`.
-/
namespace GameArchive.PiDigits

/-- The sum of `± power / k` for `k = k₀, k₀ + 2, …`, where the sign
alternates and each power is the one before it divided by `square`, as far
as the fuel allows or a power is left. -/
def arctanSum (square : Nat) : (fuel : Nat) → (k power : Nat) → Int
  | 0, _, _ => 0
  | fuel + 1, k, power =>
    if power = 0 then 0
    else (power / k : Nat) - arctanSum square fuel (k + 2) (power / square)

/-- `2 ^ bits * arctan (1 / x)`, short of it or past it by less than twice
the number of terms. -/
def arctan (bits x : Nat) : Int :=
  arctanSum (x * x) bits 1 ((1 <<< bits) / x)

/-- The first `bits` binary digits of the fraction of π, as a number. The
sixty-four extra digits of the computation take up its rounding. -/
def fraction (bits : Nat) : Nat :=
  let extra := bits + 64
  let pi := (16 * arctan extra 5 - 4 * arctan extra 239).toNat
  (pi >>> 64) % (1 <<< bits)

/-- The first `count` words of 32 digits each. -/
def words (count : Nat) : Array UInt32 :=
  let digits := fraction (32 * count)
  ((List.range count).map fun i =>
    UInt32.ofNat (digits >>> (32 * (count - 1 - i)))).toArray

end GameArchive.PiDigits
