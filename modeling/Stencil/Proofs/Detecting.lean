import Stencil.Proofs.Reading
import Stencil.Proofs.Tokens

/-!
# What literals are written with

Numbers are written with digits, signs, the point and the letter of the exponent, truth
values with letters, and quoted texts start with a quote. So one character that does not
belong tells that a fragment is no literal of a sort. A number in addition reads back
from the text it is printed as.

## Main definitions

* `Number.isSigned`, `Number.isNumeral`: the characters of integers and of doubles.
* `Form.read?`: the parameters that a form makes of a line, by an equation for each form.
-/
namespace Stencil

/-! ## The characters of numbers -/

namespace Number

variable {t : Text} {m n : Nat} {i : Int} {x : Double} {negative : Bool}

/-- The ASCII digits. -/
def isDigit (c : Char) : Bool := (digit? c).isSome

/-- The characters of integers. -/
def isSigned (c : Char) : Bool := c == '+' || c == '-' || isDigit c

/-- The characters of doubles with a point. -/
def isNumeral (c : Char) : Bool := isSigned c || c == '.' || c == 'e' || c == 'E'

theorem all_of_naturalAfter? (h : naturalAfter? n t = some m) : t.all isDigit = true := by
  induction t generalizing n with
  | nil => rfl
  | cons c t ih =>
    obtain ⟨d, hd, h⟩ := Option.bind_eq_some_iff.1 h
    rw [List.all_cons, isDigit, hd, ih h]
    rfl

theorem all_of_natural? (h : natural? t = some n) : t.all isDigit = true := by
  cases t with
  | nil => cases h
  | cons c t => exact all_of_naturalAfter? h

/-- What may stand first in an identifier may not stand in an integer. -/
theorem isSigned_of_isIdentifierStart {c : Char} (h : isIdentifierStart c = true) :
    isSigned c = false := by
  have hrest : isIdentifierRest c = true := by rw [isIdentifierRest, h, Bool.true_or]
  exact Text.of_ascii (P := fun c => isIdentifierStart c = true → isSigned c = false)
    (by decide +kernel) (Text.toNat_lt_of_isIdentifierRest hrest) h

theorem isSigned_of_isLetter {c : Char} (h : Text.isLetter c = true) : isSigned c = false := by
  refine isSigned_of_isIdentifierStart ?_
  rw [isIdentifierStart, ← Text.isLetter, h, Bool.true_or]

theorem isIdentifierRest_of_isDigit {c : Char} (h : isDigit c = true) :
    isIdentifierRest c = true := by
  rw [isDigit, digit?] at h
  split at h
  · next hc => simp [isIdentifierRest, hc]
  · cases h

/-- No character of a number is blank. -/
theorem isBlank_of_isNumeral {c : Char} (h : isNumeral c = true) : Text.isBlank c = false := by
  simp only [isNumeral, isSigned, Bool.or_eq_true, beq_iff_eq] at h
  rcases h with (((((rfl | rfl) | h) | rfl) | rfl) | rfl)
  · rfl
  · rfl
  · exact Text.isBlank_of_isIdentifierRest (isIdentifierRest_of_isDigit h)
  · rfl
  · rfl
  · rfl

theorem all_isSigned_of_digits (h : t.all isDigit = true) : t.all isSigned = true := by
  rw [List.all_eq_true] at *
  intro c hc
  rw [isSigned, h c hc, Bool.or_true]

/-- A sign is one character at most. -/
theorem exists_sign (t : Text) :
    ∃ sign, (sign = [] ∨ sign = ['-'] ∨ sign = ['+']) ∧ t = sign ++ (takeSign t).2 := by
  unfold takeSign
  split
  · exact ⟨['-'], by simp, rfl⟩
  · exact ⟨['+'], by simp, rfl⟩
  · exact ⟨[], by simp, rfl⟩

theorem all_isSigned_of_takeSign (h : (takeSign t).2.all isDigit = true) :
    t.all isSigned = true := by
  obtain ⟨sign, hsign, ht⟩ := exists_sign t
  rw [ht, List.all_append, all_isSigned_of_digits h]
  rcases hsign with rfl | rfl | rfl <;> rfl

/-- An integer is written with digits and signs. -/
theorem all_of_integer? (h : integer? t = some i) : t.all isSigned = true := by
  obtain ⟨n, hn, -⟩ := Option.bind_eq_some_iff.1 h
  exact all_isSigned_of_takeSign (all_of_natural? hn)

theorem all_isNumeral_of_signed (h : t.all isSigned = true) : t.all isNumeral = true := by
  rw [List.all_eq_true] at *
  intro c hc
  rw [isNumeral, h c hc]
  rfl

theorem all_of_exponent? (h : exponent? t = some i) : t.all isNumeral = true := by
  cases t with
  | nil => rfl
  | cons c t =>
    rw [exponent?] at h
    split at h
    · next hc =>
      obtain ⟨_, hi, -⟩ := Option.map_eq_some_iff.1 h
      obtain ⟨n, hn, -⟩ := Option.bind_eq_some_iff.1 hi
      have ht : t.all isNumeral = true :=
        all_isNumeral_of_signed (all_isSigned_of_takeSign (all_of_natural? hn))
      rw [List.all_cons, ht]
      rcases hc with rfl | rfl <;> rfl
    · cases h

theorem all_spanDigits (t : Text) : (spanDigits t).1.all isDigit = true := List.all_takeWhile

theorem spanDigits_append (t : Text) : (spanDigits t).1 ++ (spanDigits t).2 = t :=
  List.takeWhile_append_dropWhile

/-- The digits behind a point, and the point itself, are characters of doubles. -/
theorem all_of_fraction (h : (fraction t).2.all isNumeral = true) : t.all isNumeral = true := by
  unfold fraction at h
  split at h
  · next t =>
    rw [← spanDigits_append t, List.all_cons, List.all_append, h,
      all_isNumeral_of_signed (all_isSigned_of_digits (all_spanDigits t))]
    rfl
  · exact h

theorem all_of_decimal? (h : decimal? negative t = some x) : t.all isNumeral = true := by
  simp only [decimal?, Option.bind_eq_some_iff, Option.map_eq_some_iff] at h
  obtain ⟨digits, -, e, he, -⟩ := h
  rw [← spanDigits_append t, List.all_append, all_of_fraction (all_of_exponent? he),
    all_isNumeral_of_signed (all_isSigned_of_digits (all_spanDigits t))]
  rfl

/-- With a point in it, a double is not one of the words, but written in digits. -/
theorem all_of_double? (h : double? t = some x) (hpoint : '.' ∈ t) : t.all isNumeral = true := by
  obtain ⟨sign, hsign, ht⟩ := exists_sign t
  have hbody : '.' ∈ (takeSign t).2 := by
    rw [ht] at hpoint
    rcases hsign with rfl | rfl | rfl <;> simpa using hpoint
  have hword : ∀ word : Text, word.all Text.isLetter = true →
      Text.sameLetters (takeSign t).2 word = false := by
    intro word hletters
    rw [← Bool.not_eq_true]
    intro h
    exact Text.not_mem_of_all (Text.all_isLetter_of_sameLetters h hletters) (by decide) hbody
  simp only [double?, hword "inf".toList (by decide), hword "infinity".toList (by decide),
    hword "nan".toList (by decide), Bool.or_false, Bool.false_eq_true, if_false] at h
  have hsigned : sign.all isNumeral = true := by rcases hsign with rfl | rfl | rfl <;> rfl
  rw [ht, List.all_append, all_of_decimal? h, hsigned]
  rfl

/-- The digits of a number have no sign in front. -/
theorem takeSign_naturalText (n : Nat) : takeSign (naturalText n) = (false, naturalText n) := by
  have hdigits : (naturalText n).all isDigit = true := all_of_natural? (natural?_naturalText n)
  unfold takeSign
  split
  · next h => rw [h] at hdigits; cases hdigits
  · next h => rw [h] at hdigits; cases hdigits
  · rfl

/-- The number behind a sign is taken when it is in range. -/
theorem integer?_of_natural? {digits : Text} (ht : takeSign t = (negative, digits))
    (hn : natural? digits = some n) (hi : (if negative then -(n : Int) else n) = i)
    (h : InRange i) : integer? t = some i := by
  rw [integer?, ht]
  simp only [hn, Option.bind_some]
  rw [hi, if_pos h]

/-- An integer reads back from its text. -/
theorem integer?_integerText (h : InRange i) : integer? (integerText i) = some i := by
  cases i with
  | ofNat n =>
    exact integer?_of_natural? (takeSign_naturalText n) (natural?_naturalText n) rfl h
  | negSucc n =>
    have hsign : takeSign ('-' :: naturalText (n + 1)) = (true, naturalText (n + 1)) := rfl
    exact integer?_of_natural? hsign (natural?_naturalText (n + 1)) rfl h

end Number

/-! ## What forms read -/

namespace Form

variable {line token front back rest s : Text} {f inner : Form} {fs : List Form}
  {params : List Param} {c : Char}

/-- The parameters that a form makes of a line, if it accepts it. -/
def read? (f : Form) (line : Text) : Option (List Param) := (f.parse line).toOption

theorem read?_eq_some_iff : f.read? line = some params ↔ f.parse line = .ok params :=
  Steps.toOption_eq_some_iff

theorem read?_of_parse (h : f.parse line = inner.parse rest) : f.read? line = inner.read? rest := by
  rw [read?, h, read?]

theorem read?_of_not_accepts (h : f.accepts line = false) : f.read? line = none := by
  rw [read?, parse_of_not_accepts f h]
  rfl

/-- A form accepts the lines that it reads, and no others. -/
theorem isSome_read? (f : Form) (line : Text) : (f.read? line).isSome = f.accepts line := by
  cases h : f.accepts line with
  | false => rw [read?_of_not_accepts h]; rfl
  | true =>
    obtain ⟨params, hparams⟩ := f.parse_of_accepts h
    rw [read?_eq_some_iff.2 hparams]
    rfl

theorem read?_integer (line : Text) :
    integer.read? line = (integer? line).map fun n => [.literal (.int n)] := by
  rw [read?, parse]
  cases integer? line <;> rfl

theorem read?_double (line : Text) :
    double.read? line = (double? line).map fun x => [.literal (.double x)] := by
  rw [read?, parse]
  cases double? line <;> rfl

theorem read?_bool (line : Text) :
    bool.read? line = (bool? line).map fun b => [.literal (.bool b)] := by
  rw [read?, parse]
  cases bool? line <;> rfl

theorem read?_quoted (line : Text) :
    quoted.read? line = (quoted? line).map fun t => [.literal (.string t)] := by
  rw [read?, parse]
  cases quoted? line <;> rfl

theorem read?_identifier (line : Text) :
    identifier.read? line =
      if isIdentifier (Text.trim line) then some [.variable (Text.trim line)] else none := by
  rw [read?, parse]
  split <;> rfl

theorem read?_text (line : Text) : text.read? line = some [.literal (.string line)] := rfl

/-- A form that cuts something off a line leaves the rest to the inner form. -/
theorem read?_of_cut {cut : Option Text} (hnone : cut = none → f.accepts line = false)
    (hsome : ∀ rest, cut = some rest → f.accepts line = inner.accepts rest ∧
      (inner.accepts rest = true → f.parse line = inner.parse rest)) :
    f.read? line = cut.bind inner.read? := by
  cases h : cut with
  | none => exact read?_of_not_accepts (hnone h)
  | some rest =>
    obtain ⟨haccepts, hparse⟩ := hsome rest h
    cases hinner : inner.accepts rest with
    | false =>
      rw [Option.bind_some, read?_of_not_accepts hinner]
      exact read?_of_not_accepts (haccepts.trans hinner)
    | true => exact read?_of_parse (hparse hinner)

theorem read?_leading : (leading token inner).read? line =
    (afterFront? token line).bind inner.read? :=
  read?_of_cut (fun h => by rw [accepts, h]) fun rest h =>
    ⟨by rw [accepts, h], fun hinner => by rw [parse, h]; exact if_pos hinner⟩

theorem read?_trailing : (trailing token inner).read? line =
    (beforeBack? token line).bind inner.read? :=
  read?_of_cut (fun h => by rw [accepts, h]) fun rest h =>
    ⟨by rw [accepts, h], fun hinner => by rw [parse, h]; exact if_pos hinner⟩

theorem read?_enclosed : (enclosed front back inner).read? line =
    (between? front back line).bind inner.read? :=
  read?_of_cut (fun h => by rw [accepts, h]) fun content h =>
    ⟨by rw [accepts, h], fun hinner => by rw [parse, h]; exact if_pos hinner⟩

theorem read?_verbatim : (verbatim inner).read? line =
    (inner.read? line).map fun _ => [.literal (.string (Text.trim line))] := by
  cases hinner : inner.accepts line with
  | false =>
    rw [read?_of_not_accepts hinner]
    exact read?_of_not_accepts hinner
  | true =>
    obtain ⟨params, hparams⟩ := inner.parse_of_accepts hinner
    rw [read?_eq_some_iff.2 hparams, read?, parse, if_pos hinner]
    rfl

/-- A line that is not blank goes to the inner form without the blanks around it. -/
theorem read?_fallback (h : Text.isBlankText line = false) :
    (fallback inner).read? line = inner.read? (Text.trim line) := by
  have haccepts : (fallback inner).accepts line = inner.accepts (Text.trim line) := by
    rw [accepts, h]
    rfl
  cases hinner : inner.accepts (Text.trim line) with
  | false =>
    rw [read?_of_not_accepts hinner]
    exact read?_of_not_accepts (haccepts.trans hinner)
  | true =>
    refine read?_of_parse ?_
    rw [parse, if_pos (haccepts.trans hinner)]

theorem read?_firstOf_nil (line : Text) : (firstOf []).read? line = none := rfl

/-- The first alternative that reads a line decides. -/
theorem read?_firstOf_cons :
    (firstOf (f :: fs)).read? line = (f.read? line).or ((firstOf fs).read? line) := by
  cases h : f.accepts line with
  | false =>
    rw [read?_of_not_accepts h, Option.none_or]
    refine read?_of_parse ?_
    rw [parse, parseFirst?, if_neg (by simp [h]), parse]
    rfl
  | true =>
    obtain ⟨params, hparams⟩ := f.parse_of_accepts h
    rw [read?_eq_some_iff.2 hparams, Option.some_or, read?_eq_some_iff, parse, parseFirst?,
      if_pos h, hparams]

/-! ## Literals and values -/

theorem read?_literals (line : Text) :
    literals.read? line = (integer.read? line).or ((double.read? line).or
      ((bool.read? line).or (quoted.read? line))) := by
  rw [literals]
  simp only [read?_firstOf_cons, read?_firstOf_nil, Option.or_none]

/-- A value is a literal, or else the name of a variable. -/
theorem read?_values (line : Text) :
    values.read? line = (literals.read? line).or (identifier.read? line) := by
  rw [read?_literals, values]
  simp only [read?_firstOf_cons, read?_firstOf_nil, Option.or_none, Option.or_assoc]

theorem read?_literals_eq_none_iff : literals.read? line = none ↔
    integer? line = none ∧ double? line = none ∧ bool? line = none ∧ quoted? line = none := by
  simp [read?_literals, read?_integer, read?_double, read?_bool, read?_quoted]

theorem integer?_eq_none_of_mem (hmem : c ∈ Text.trim line) (hc : Number.isSigned c = false) :
    integer? line = none := by
  rw [integer?]
  split
  · rfl
  · rw [Option.eq_none_iff_forall_ne_some]
    intro n hn
    exact Text.not_mem_of_all (Number.all_of_integer? hn) hc hmem

theorem double?_eq_none_of_mem (hmem : c ∈ Text.trim line) (hc : Number.isNumeral c = false) :
    double? line = none := by
  rw [double?]
  split
  · next hpoint =>
    rw [Option.eq_none_iff_forall_ne_some]
    intro x hx
    exact Text.not_mem_of_all (Number.all_of_double? hx hpoint) hc hmem
  · rfl

theorem double?_eq_none_of_not_mem (h : '.' ∉ Text.trim line) : double? line = none := if_neg h

theorem bool?_eq_some_iff {b : Bool} :
    bool? line = some b ↔ Text.sameLetters (Text.trim line) (Value.text (.bool b)) = true := by
  have hdisjoint : Text.sameLetters (Text.trim line) "true".toList = true →
      ¬ Text.sameLetters (Text.trim line) "false".toList = true := by
    intro htrue hfalse
    have hlength :=
      (Text.length_eq_of_sameLetters htrue).symm.trans (Text.length_eq_of_sameLetters hfalse)
    cases hlength
  rw [bool?]
  cases b with
  | true =>
    rw [Value.text]
    split
    · next h => simpa using h
    · next h => split <;> simpa using h
  | false =>
    rw [Value.text]
    split
    · next h => simpa using hdisjoint h
    · split
      · next h => simpa using h
      · next h => simpa using h

/-- A truth value is written with letters. -/
theorem bool?_eq_none_of_mem (hmem : c ∈ Text.trim line) (hc : Text.isLetter c = false) :
    bool? line = none := by
  rw [Option.eq_none_iff_forall_ne_some]
  intro b hb
  have hletters : (Value.text (.bool b)).all Text.isLetter = true := by cases b <;> decide
  exact Text.not_mem_of_all (Text.all_isLetter_of_sameLetters (bool?_eq_some_iff.1 hb) hletters)
    hc hmem

theorem quoted?_eq_some_iff : quoted? line = some s ↔ Text.trim line = '"' :: (s ++ ['"']) := by
  rw [quoted?, Option.bind_eq_some_iff]
  simp only [Text.dropFront?_eq_some_iff, Text.dropBack?_eq_some_iff]
  constructor
  · rintro ⟨r, hr, rfl⟩
    simpa using hr
  · intro h
    exact ⟨s ++ ['"'], by simpa using h, rfl⟩

theorem quoted?_eq_none_of_not_mem (h : '"' ∉ Text.trim line) : quoted? line = none := by
  rw [Option.eq_none_iff_forall_ne_some]
  intro s hs
  simp [quoted?_eq_some_iff.1 hs] at h

/-- No name starts with a quote. -/
theorem exists_literal_of_quote (h : values.read? line = some params)
    (hquote : line.head? = some '"') : ∃ v, params = [.literal v] := by
  have htrim : (Text.trim line).head? = some '"' := by
    rw [Text.head?_trim, Text.trimStart_eq_self, hquote]
    intro c hc
    obtain rfl : '"' = c := by simpa [hquote] using hc
    rfl
  have hidentifier : isIdentifier (Text.trim line) = false := by
    obtain ⟨t, ht⟩ := List.head?_eq_some_iff.1 htrim
    rw [ht]
    rfl
  rw [read?_values, read?_identifier, hidentifier, if_neg (by simp), Option.or_none,
    read?_literals, read?_integer, read?_double, read?_bool, read?_quoted] at h
  simp only [Option.or_eq_some_iff, Option.map_eq_some_iff] at h
  grind

end Form
end Stencil
