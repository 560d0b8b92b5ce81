import Stencil.Number.Decimal

/-!
# Scalars of TOML documents

A word in the place of a value is a truth value, an integer, a float, or a date
with or without a time. Underscores may stand between digits. Nobody asks for
the value of a float or a date, only whether it is one.
-/
namespace Stencil.Toml

inductive Scalar where
  | bool (b : Bool)
  | integer (n : Int)
  | float
  | datetime
  deriving DecidableEq, Repr

/-- Drops the underscores of digits, each of which must have a digit on both
sides. -/
def plainDigits? (isDigit : Char → Bool) : Text → Option Text
  | [] => none
  | [c] => if isDigit c then some [c] else none
  | c :: '_' :: t => if isDigit c then (plainDigits? isDigit t).map (c :: ·) else none
  | c :: t => if isDigit c then (plainDigits? isDigit t).map (c :: ·) else none

/-- The value of digits in a base of at most sixteen. -/
def valueIn (base : Nat) (digits : Text) : Nat :=
  digits.foldl (fun n c => base * n + (Number.hexDigit? c).getD 0) 0

def bounded? (n : Int) : Option Scalar := if Number.InRange n then some (.integer n) else none

/-- The digits of a whole decimal number, where a zero stands only alone. -/
def wholeDigits? (t : Text) : Option Text :=
  match t with
  | '0' :: _ :: _ => none
  | _ => plainDigits? Char.isDigit t

def integer? : Text → Option Scalar
  | '0' :: 'x' :: t =>
    (plainDigits? (Number.hexDigit? · |>.isSome) t).bind fun ds => bounded? (valueIn 16 ds)
  | '0' :: 'o' :: t =>
    (plainDigits? (fun c => '0' ≤ c && c ≤ '7') t).bind fun ds => bounded? (valueIn 8 ds)
  | '0' :: 'b' :: t =>
    (plainDigits? (fun c => c == '0' || c == '1') t).bind fun ds => bounded? (valueIn 2 ds)
  | t =>
    let (negative, digits) := Number.takeSign t
    (wholeDigits? digits).bind fun ds =>
      bounded? (if negative then -(valueIn 10 ds : Int) else valueIn 10 ds)

/-- The part of a float before its exponent, and the exponent with its mark. -/
def cutExponent (t : Text) : Text × Option Text :=
  (t.takeWhile fun c => c != 'e' && c != 'E',
    match t.dropWhile fun c => c != 'e' && c != 'E' with
    | [] => none
    | _ :: exponent => some exponent)

/-- The digits of an optional exponent, as they are read. -/
def exponentText? : Option Text → Option Text
  | none => some []
  | some t =>
    let (negative, digits) := Number.takeSign t
    (plainDigits? Char.isDigit digits).map fun ds => 'e' :: (if negative then '-' :: ds else ds)

/-- Whether a word is a float. A decimal needs a fraction or an exponent, and
one that is too large is none, unless it is negative. -/
def isFloat (t : Text) : Bool :=
  let (negative, body) := Number.takeSign t
  if body = "inf".toList ∨ body = "nan".toList then true
  else
    let (mantissa, exponent) := cutExponent body
    let fractional? :=
      match Text.cut? ['.'] mantissa with
      | some (whole, places) =>
        match wholeDigits? whole, plainDigits? Char.isDigit places with
        | some ds, some ps => some (ds ++ '.' :: ps)
        | _, _ => none
      | none => if exponent.isSome then wholeDigits? mantissa else none
    match fractional?, exponentText? exponent with
    | some decimal, some exponent =>
      match Number.decimal? negative (decimal ++ exponent) with
      | some x => x != .infinite false
      | none => false
    | _, _ => false

/-! ## Dates and times -/

/-- The number that exactly `count` digits at the front of a text write, and the rest. -/
def digits? (count : Nat) (t : Text) : Option (Nat × Text) :=
  let ds := t.take count
  if ds.length = count ∧ ds.all Char.isDigit then some (valueIn 10 ds, t.drop count) else none

def daysIn (year month : Nat) : Nat :=
  if month = 2 then
    if year % 4 = 0 ∧ (year % 100 ≠ 0 ∨ year % 400 = 0) then 29 else 28
  else if month = 4 ∨ month = 6 ∨ month = 9 ∨ month = 11 then 30
  else 31

/-- What follows a date at the front of a text. -/
def afterDate? (t : Text) : Option Text := do
  let (year, t) ← digits? 4 t
  let t ← Text.dropFront? ['-'] t
  let (month, t) ← digits? 2 t
  let t ← Text.dropFront? ['-'] t
  let (day, t) ← digits? 2 t
  if 1 ≤ month ∧ month ≤ 12 ∧ 1 ≤ day ∧ day ≤ daysIn year month then some t else none

/-- What follows hours and minutes at the front of a text. -/
def afterHour? (t : Text) : Option Text := do
  let (hour, t) ← digits? 2 t
  let t ← Text.dropFront? [':'] t
  let (minute, t) ← digits? 2 t
  if hour ≤ 23 ∧ minute ≤ 59 then some t else none

/-- What follows a time at the front of a text. Seconds may have a fraction. -/
def afterTime? (t : Text) : Option Text := do
  let t ← afterHour? t
  let t ← Text.dropFront? [':'] t
  let (second, t) ← digits? 2 t
  if 60 < second then none
  else
    match t with
    | '.' :: rest =>
      if (rest.takeWhile Char.isDigit).isEmpty then none else some (rest.dropWhile Char.isDigit)
    | t => some t

/-- Whether a text is empty or an offset from universal time. -/
def isOffset : Text → Bool
  | [] => true
  | ['Z'] | ['z'] => true
  | '+' :: t => afterHour? t == some []
  | '-' :: t => afterHour? t == some []
  | _ => false

def isDate (t : Text) : Bool := afterDate? t == some []

/-- Whether a text is a time with an optional offset. -/
def isTimeOfDay (t : Text) : Bool :=
  match afterTime? t with
  | some rest => isOffset rest
  | none => false

/-- Whether a word is a date, a time, or both. -/
def isDatetime (t : Text) : Bool :=
  afterTime? t == some [] ||
    match afterDate? t with
    | some [] => true
    | some (c :: rest) => (c == 'T' || c == 't') && isTimeOfDay rest
    | none => false

def scalar? (t : Text) : Option Scalar :=
  if t = "true".toList then some (.bool true)
  else if t = "false".toList then some (.bool false)
  else if isDatetime t then some .datetime
  else if isFloat t then some .float
  else integer? t

end Stencil.Toml
