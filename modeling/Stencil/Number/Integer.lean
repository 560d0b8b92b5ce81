import Stencil.Text.Blank

/-!
# Integers and their text

The integers of the language are those of 64 bits with a sign. An integer is
written as an optional sign and one or more ASCII digits; it is printed with
the fewest digits and a sign only when it is negative.
-/
namespace Stencil.Number

/-- The integers that a variable may hold: those of 64 bits with a sign. -/
def InRange (n : Int) : Prop := -9223372036854775808 ≤ n ∧ n < 9223372036854775808

instance (n : Int) : Decidable (InRange n) := inferInstanceAs (Decidable (_ ∧ _))

def digit? (c : Char) : Option Nat :=
  if '0' ≤ c ∧ c ≤ '9' then some (c.toNat - 48) else none

def hexDigit? (c : Char) : Option Nat :=
  if '0' ≤ c ∧ c ≤ '9' then some (c.toNat - 48)
  else if 'a' ≤ c ∧ c ≤ 'f' then some (c.toNat - 87)
  else if 'A' ≤ c ∧ c ≤ 'F' then some (c.toNat - 55)
  else none

/-- Reads digits behind a number already read. -/
def naturalAfter? (n : Nat) : Text → Option Nat
  | [] => some n
  | c :: t => (digit? c).bind fun d => naturalAfter? (10 * n + d) t

def natural? : Text → Option Nat
  | [] => none
  | t => naturalAfter? 0 t

/-- Takes an optional sign off a text, and says whether it was a minus. -/
def takeSign : Text → Bool × Text
  | '-' :: t => (true, t)
  | '+' :: t => (false, t)
  | t => (false, t)

/-- The number behind an optional sign, when 64 bits hold it. -/
def integer? (t : Text) : Option Int :=
  let (negative, digits) := takeSign t
  (natural? digits).bind fun n =>
    let i : Int := if negative then -n else n
    if InRange i then some i else none

def naturalText (n : Nat) : Text := Nat.toDigits 10 n

theorem digit?_digitChar {d : Nat} (h : d < 10) : digit? (Nat.digitChar d) = some d := by
  match d, h with
  | 0, _ | 1, _ | 2, _ | 3, _ | 4, _ | 5, _ | 6, _ | 7, _ | 8, _ | 9, _ => rfl

theorem naturalAfter?_append (n : Nat) (a b : Text) :
    naturalAfter? n (a ++ b) = (naturalAfter? n a).bind fun m => naturalAfter? m b := by
  induction a generalizing n with
  | nil => rfl
  | cons c a ih =>
    simp only [List.cons_append, naturalAfter?]
    cases digit? c <;> simp [ih]

theorem naturalAfter?_naturalText (n : Nat) : naturalAfter? 0 (naturalText n) = some n := by
  unfold naturalText
  induction n using Nat.strongRecOn with
  | _ n ih =>
    by_cases h : n < 10
    · rw [Nat.toDigits_of_lt_base h]
      simp [naturalAfter?, digit?_digitChar h]
    · rw [Nat.toDigits_of_base_le (by omega) (by omega), naturalAfter?_append,
        ih (n / 10) (by omega)]
      simp [naturalAfter?, digit?_digitChar (Nat.mod_lt n (by decide : 10 > 0))]
      omega

/-- The digits of a number read back as the number. -/
theorem natural?_naturalText (n : Nat) : natural? (naturalText n) = some n := by
  have h := naturalAfter?_naturalText n
  unfold natural?
  split
  · next heq => simp [naturalText] at heq
  · exact h

def integerText : Int → Text
  | .ofNat n => naturalText n
  | .negSucc n => '-' :: naturalText (n + 1)

end Stencil.Number
