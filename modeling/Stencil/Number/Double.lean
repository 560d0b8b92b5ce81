import Stencil.Number.Integer

/-!
# Doubles: values, reading and printing

A double is a binary floating-point number of 64 bits. A finite one is a sign
and `significand · 2 ^ exponent`, kept in the one form where the significand
has 53 bits or the exponent is the least. Reading rounds a decimal to the
nearest double, a tie to the even significand. Printing writes the fewest
digits that read back, always in positional notation.

## Main definitions

* `Double`: the values, told apart exactly.
* `Double.ofRatio`: the double nearest to a fraction.
* `Number.double?`: the double that a text writes.
* `Double.text`: the shortest text of a double.
-/
namespace Stencil

inductive Double where
  | finite (negative : Bool) (significand : Nat) (exponent : Int)
  | infinite (negative : Bool)
  | nan
  deriving DecidableEq, Repr, Inhabited

namespace Double

/-- The exponent of the doubles nearest to zero. -/
def leastExponent : Int := -1074

def greatestExponent : Int := 971

def zero (negative : Bool) : Double := .finite negative 0 leastExponent

/-! ## Rounding -/

/-- The numerator and denominator of `num / den / 2 ^ e`. -/
def scale (num den : Nat) (e : Int) : Nat × Nat :=
  if 0 ≤ e then (num, den * Nat.pow 2 e.toNat) else (num * Nat.pow 2 (-e).toNat, den)

/-- The quotient rounded to the nearest number, a tie to the even one. -/
def roundDiv (num den : Nat) : Nat :=
  let q := num / den
  let r := num % den
  if 2 * r < den then q
  else if 2 * r = den then q + q % 2
  else q + 1

/-- The exponent that leaves 53 bits before the point, or the least exponent.
The two logarithms fix it up to one. -/
def exponentFor (num den : Nat) : Int :=
  let guess := max leastExponent ((num.log2 : Int) - den.log2 - 53)
  let (n, d) := scale num den guess
  if n / d < Nat.pow 2 53 then guess else guess + 1

/-- The double nearest to a fraction. A significand that rounds up to 54 bits
is halved, and an exponent past the greatest makes the number infinite. -/
def ofRatio (negative : Bool) (num den : Nat) : Double :=
  if num = 0 then zero negative
  else
    let e := exponentFor num den
    let (n, d) := scale num den e
    let m := roundDiv n d
    let (m, e) := if m < Nat.pow 2 53 then (m, e) else (Nat.pow 2 52, e + 1)
    if greatestExponent < e then .infinite negative else .finite negative m e

/-- The double nearest to `digits · 10 ^ exponent`. Far beyond the range of the
doubles the power is not computed. -/
def ofDecimal (negative : Bool) (digits : Nat) (exponent : Int) : Double :=
  let magnitude : Int := (Number.naturalText digits).length + exponent
  if digits = 0 ∨ magnitude < -330 then zero negative
  else if 310 < magnitude then .infinite negative
  else if 0 ≤ exponent then ofRatio negative (digits * Nat.pow 10 exponent.toNat) 1
  else ofRatio negative digits (Nat.pow 10 (-exponent).toNat)

/-! ## The shortest decimal -/

/-- The magnitudes that read back as one double, as multiples of `1 / unit`:
from `low` to `high` around `middle`, the ends included iff `closed`. -/
structure Rounding where
  low : Nat
  middle : Nat
  high : Nat
  unit : Nat
  closed : Bool

/-- The magnitudes that round to `significand · 2 ^ exponent`. The gap below a
power of two is half the gap above it. -/
def Rounding.around (significand : Nat) (exponent : Int) : Rounding :=
  let below := if significand = Nat.pow 2 52 ∧ leastExponent < exponent then 1 else 2
  let (factor, unit) :=
    if 0 ≤ exponent then (Nat.pow 2 exponent.toNat, 4) else (1, 4 * Nat.pow 2 (-exponent).toNat)
  { low := (4 * significand - below) * factor
    middle := 4 * significand * factor
    high := (4 * significand + 2) * factor
    unit := unit
    closed := significand % 2 == 0 }

/-- Whether a multiple of `1 / unit` rounds to the double. -/
def Rounding.holds (r : Rounding) (x : Nat) : Bool :=
  if r.closed then r.low ≤ x && x ≤ r.high else r.low < x && x < r.high

/-- On the grid of the multiples of `10 ^ power`, the neighbour of the middle
that reads back: the nearer of two, and of two equally near ones the greater. -/
def Rounding.onGrid? (r : Rounding) (power : Int) : Option Nat :=
  let up := Nat.pow 10 power.toNat
  let down := Nat.pow 10 (-power).toNat
  let step := up * r.unit
  let middle := r.middle * down
  let lower := middle / step
  let scaled : Rounding := { r with low := r.low * down, high := r.high * down }
  let fits := fun n => scaled.holds (n * step)
  match fits lower, fits (lower + 1) with
  | true, true =>
    some (if 2 * (middle - lower * step) < step then lower else lower + 1)
  | true, false => some lower
  | false, true => some (lower + 1)
  | false, false => none

/-- The digits and the power of ten of the shortest decimal that reads back.
The grids are tried from the coarsest on; seventeen digits always suffice. -/
def Rounding.shortest (r : Rounding) : Nat × Int :=
  let whole := r.middle / r.unit
  let top : Int :=
    if 0 < whole then (Number.naturalText whole).length
    else 1 - (Number.naturalText (r.unit / r.middle)).length + 1
  let grids := (List.range 20).map fun (i : Nat) => top - i
  (grids.findSome? fun power => (r.onGrid? power).map (·, power)).getD (r.middle, 0)

/-- Positional notation of `digits · 10 ^ power`. -/
def positional (digits : Nat) (power : Int) : Text :=
  let ds := Number.naturalText digits
  if 0 ≤ power then ds ++ List.replicate power.toNat '0'
  else
    let places := (-power).toNat
    let ds := List.replicate (places + 1 - ds.length) '0' ++ ds
    ds.take (ds.length - places) ++ '.' :: ds.drop (ds.length - places)

/-- The text of a double: the shortest digits that read back, never an
exponent, no point in a whole number, and the sign kept for zero. -/
def text : Double → Text
  | .nan => "NaN".toList
  | .infinite negative => (if negative then ['-'] else []) ++ "inf".toList
  | .finite negative m e =>
    (if negative then ['-'] else []) ++
      if m = 0 then ['0']
      else
        let (digits, power) := (Rounding.around m e).shortest
        positional digits power

end Double
end Stencil
