import Stencil.Number.Double
import Stencil.Text.Search

/-!
# Reading doubles

A double is written as an optional sign and a decimal, or as an optional sign
and one of the words `inf`, `infinity` and `nan` in any case. A decimal has
digits before the point, behind it, or both; an exponent may follow.
-/
namespace Stencil.Number

/-- The leading ASCII digits of a text, and the rest. -/
def spanDigits (t : Text) : Text × Text :=
  (t.takeWhile (digit? · |>.isSome), t.dropWhile (digit? · |>.isSome))

/-- The exponent behind a decimal: nothing, or `e` with a signed number. -/
def exponent? : Text → Option Int
  | [] => some 0
  | c :: t =>
    if c = 'e' ∨ c = 'E' then
      let (negative, digits) := takeSign t
      (natural? digits).map fun n => if negative then -(n : Int) else n
    else none

/-- The digits behind a decimal point, if there is one, and the rest. -/
def fraction : Text → Text × Text
  | '.' :: t => spanDigits t
  | t => ([], t)

/-- The double written by an unsigned decimal. -/
def decimal? (negative : Bool) (t : Text) : Option Double :=
  let (whole, behind) := spanDigits t
  let (places, behind) := fraction behind
  (natural? (whole ++ places)).bind fun digits =>
    (exponent? behind).map fun e => Double.ofDecimal negative digits (e - places.length)

def double? (t : Text) : Option Double :=
  let (negative, body) := takeSign t
  if Text.sameLetters body "inf".toList || Text.sameLetters body "infinity".toList then
    some (.infinite negative)
  else if Text.sameLetters body "nan".toList then some .nan
  else decimal? negative body

end Stencil.Number
