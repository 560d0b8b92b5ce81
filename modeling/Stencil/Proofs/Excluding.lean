import Mathlib.Data.List.Pairwise
import Stencil.Proofs.Detecting

/-!
# Literals exclude each other

A fragment is a literal of at most one sort: an integer has no point and a double has one,
quotes stand in no number, and truth values are written with letters. So the alternatives for
literals may be tried in any order. A literal is no name either, except that the truth values
are words, so an alternative for names may stand anywhere among them, and its place matters
at the truth values alone.

## Main definitions

* `Form.sorts`: the forms of literals.
* `Form.Excludes`: two forms do not both accept a line.
* `Form.IsTruth`: the lines that write a truth value.
-/
namespace Stencil.Form

variable {line : Text} {f g : Form} {fs gs : List Form} {c : Char}

/-- The forms of literals, in the order in which they are tried. -/
def sorts : List Form := [.integer, .double, .bool, .quoted]

/-- The lines that write a truth value, in either case. -/
def IsTruth (line : Text) : Prop :=
  Text.sameLetters (Text.trim line) "true".toList = true ∨
    Text.sameLetters (Text.trim line) "false".toList = true

instance (line : Text) : Decidable (IsTruth line) := inferInstanceAs (Decidable (_ ∨ _))

/-- Two forms do not both accept a line. -/
def Excludes (line : Text) (f g : Form) : Prop := f.accepts line = true → g.accepts line = false

theorem Excludes.symm (h : Excludes line f g) : Excludes line g f := by
  intro hg
  rw [← Bool.not_eq_true]
  intro hf
  rw [h hf] at hg
  cases hg

instance (line : Text) : Std.Symm (Excludes line) := ⟨fun _ _ => Excludes.symm⟩

/-! ## Alternatives in any order -/

/-- Forms of one name that read a line alike also fail on it alike. -/
theorem parse_eq_of_read? (hname : f.name = g.name) (h : f.read? line = g.read? line) :
    f.parse line = g.parse line := by
  have haccepts : f.accepts line = g.accepts line := by rw [← isSome_read?, h, isSome_read?]
  by_cases hf : f.accepts line = true
  · obtain ⟨params, hparams⟩ := f.parse_of_accepts hf
    rw [hparams, eq_comm, ← read?_eq_some_iff, ← h, read?_eq_some_iff, hparams]
  · rw [Bool.not_eq_true] at hf
    rw [parse_of_not_accepts f hf, parse_of_not_accepts g (haccepts ▸ hf), hname]

/-- Alternatives accept what one of them accepts. -/
theorem accepts_firstOf (fs : List Form) (line : Text) :
    (firstOf fs).accepts line = fs.any (·.accepts line) := by
  rw [accepts]
  induction fs with
  | nil => rfl
  | cons f fs ih => rw [anyAccepts, ih, List.any_cons]

theorem accepts_firstOf_of_perm (hperm : fs.Perm gs) (line : Text) :
    (firstOf fs).accepts line = (firstOf gs).accepts line := by
  rw [accepts_firstOf, accepts_firstOf, hperm.any_eq]

/-- Alternatives that exclude each other may change places. -/
theorem read?_firstOf_of_perm (hperm : fs.Perm gs) (h : fs.Pairwise (Excludes line)) :
    (firstOf fs).read? line = (firstOf gs).read? line := by
  induction hperm with
  | nil => rfl
  | cons f _ ih => rw [read?_firstOf_cons, read?_firstOf_cons, ih h.of_cons]
  | swap f g fs =>
    have hexcludes : Excludes line g f := List.rel_of_pairwise_cons h List.mem_cons_self
    simp only [read?_firstOf_cons]
    by_cases hg : g.accepts line = true
    · simp [read?_of_not_accepts (hexcludes hg)]
    · simp [read?_of_not_accepts (Bool.not_eq_true _ ▸ hg)]
  | trans hfirst _ ih ih' => exact (ih h).trans (ih' (h.perm hfirst Excludes.symm))

theorem parse_firstOf_of_perm (hperm : fs.Perm gs) (h : fs.Pairwise (Excludes line)) :
    (firstOf fs).parse line = (firstOf gs).parse line :=
  parse_eq_of_read? rfl (read?_firstOf_of_perm hperm h)

/-! ## What tells the sorts apart -/

theorem accepts_bool_iff : bool.accepts line = true ↔ IsTruth line := by
  have hsome : bool.accepts line = true ↔ ∃ b, bool? line = some b := by
    rw [accepts, Option.isSome_iff_exists]
  rw [hsome, Bool.exists_bool, bool?_eq_some_iff, bool?_eq_some_iff, or_comm]
  rfl

theorem point_mem_of_double (h : double.accepts line = true) : '.' ∈ Text.trim line := by
  refine Decidable.byContradiction fun hpoint => ?_
  rw [accepts, double?_eq_none_of_not_mem hpoint] at h
  cases h

theorem quote_mem_of_quoted (h : quoted.accepts line = true) : '"' ∈ Text.trim line := by
  refine Decidable.byContradiction fun hquote => ?_
  rw [accepts, quoted?_eq_none_of_not_mem hquote] at h
  cases h

/-- A truth value starts with a letter, as names do. -/
theorem exists_letter_of_bool (h : bool.accepts line = true) :
    ∃ c ∈ Text.trim line, Text.isLetter c = true := by
  obtain ⟨b, hb⟩ := Option.isSome_iff_exists.1 h
  have hsame := bool?_eq_some_iff.1 hb
  have hletters : (Text.trim line).all Text.isLetter = true :=
    Text.all_isLetter_of_sameLetters hsame (by cases b <;> decide)
  cases htrim : Text.trim line with
  | nil =>
    rw [htrim] at hsame
    cases b <;> cases hsame
  | cons c t =>
    rw [htrim, List.all_cons, Bool.and_eq_true] at hletters
    exact ⟨c, List.mem_cons_self, hletters.1⟩

theorem not_accepts_integer_of_mem (hmem : c ∈ Text.trim line) (hc : Number.isSigned c = false) :
    integer.accepts line = false := by
  rw [accepts_integer, integer?_eq_none_of_mem hmem hc]
  rfl

theorem not_accepts_double_of_mem (hmem : c ∈ Text.trim line) (hc : Number.isNumeral c = false) :
    double.accepts line = false := by
  rw [accepts, double?_eq_none_of_mem hmem hc]
  rfl

theorem not_accepts_bool_of_mem (hmem : c ∈ Text.trim line) (hc : Text.isLetter c = false) :
    bool.accepts line = false := by
  rw [accepts, bool?_eq_none_of_mem hmem hc]
  rfl

/-- No line is a literal of two sorts. -/
theorem sorts_exclude (line : Text) : sorts.Pairwise (Excludes line) := by
  have hpoint : Excludes line double integer := fun h =>
    not_accepts_integer_of_mem (point_mem_of_double h) rfl
  have hword : Excludes line bool integer := fun h => by
    obtain ⟨c, hmem, hc⟩ := exists_letter_of_bool h
    exact not_accepts_integer_of_mem hmem (Number.isSigned_of_isLetter hc)
  have hquote : Excludes line quoted integer := fun h =>
    not_accepts_integer_of_mem (quote_mem_of_quoted h) rfl
  have hpointed : Excludes line double bool := fun h =>
    not_accepts_bool_of_mem (point_mem_of_double h) rfl
  have hnumeral : Excludes line quoted double := fun h =>
    not_accepts_double_of_mem (quote_mem_of_quoted h) rfl
  have hletter : Excludes line quoted bool := fun h =>
    not_accepts_bool_of_mem (quote_mem_of_quoted h) rfl
  simp [sorts, hpoint.symm, hword.symm, hquote.symm, hpointed, hnumeral.symm, hletter.symm]

/-- Only the truth values are literals and names at once. -/
theorem names_exclude (h : ¬ IsTruth line) : ∀ f ∈ sorts, Excludes line identifier f := by
  have hname : ∀ c ∈ Text.trim line, isIdentifierRest c = false →
      identifier.accepts line = false := fun _ hmem hc =>
    Text.isIdentifier_eq_false_of_mem hmem hc
  have hinteger : Excludes line identifier integer := fun haccepts => by
    obtain ⟨c, t, htrim, hc⟩ := Text.exists_head_of_isIdentifier haccepts
    exact not_accepts_integer_of_mem (htrim ▸ List.mem_cons_self)
      (Number.isSigned_of_isIdentifierStart hc)
  have hdouble : Excludes line double identifier := fun haccepts =>
    hname _ (point_mem_of_double haccepts) rfl
  have hbool : Excludes line bool identifier := fun haccepts =>
    absurd (accepts_bool_iff.1 haccepts) h
  have hquoted : Excludes line quoted identifier := fun haccepts =>
    hname _ (quote_mem_of_quoted haccepts) rfl
  simp [sorts, hinteger, hdouble.symm, hbool.symm, hquoted.symm]

/-- **Literals exclude each other.** At most one of the forms of literals accepts a line, so in
whatever order they are tried, they accept and read what they do in theirs. A name that is a
literal is a truth value. So wherever an alternative for names is put among them, the same lines
are accepted as values, and all but the truth values are read as they are with the names behind
the literals; a literal is then read as if there were no names. -/
theorem literals_exclude (line : Text) :
    (∀ f ∈ sorts, ∀ g ∈ sorts, f.accepts line = true → g.accepts line = true → f = g) ∧
    (∀ fs : List Form, fs.Perm sorts →
      (firstOf fs).accepts line = literals.accepts line ∧
        (firstOf fs).parse line = literals.parse line) ∧
    (∀ f ∈ sorts, f.accepts line = true → identifier.accepts line = true → IsTruth line) ∧
    ∀ fs : List Form, fs.Perm (identifier :: sorts) →
      (firstOf fs).accepts line = values.accepts line ∧
      (¬ IsTruth line → (firstOf fs).parse line = values.parse line ∧
        (literals.accepts line = true → (firstOf fs).parse line = literals.parse line)) := by
  refine ⟨?_, ?_, ?_, ?_⟩
  · intro f hf g hg haccepts haccepts'
    by_contra hne
    have hexcludes := (sorts_exclude line).forall hf hg hne
    rw [hexcludes haccepts] at haccepts'
    cases haccepts'
  · intro fs hperm
    refine ⟨accepts_firstOf_of_perm hperm line, ?_⟩
    exact (parse_firstOf_of_perm hperm.symm (sorts_exclude line)).symm
  · intro f hf haccepts hname
    refine Decidable.byContradiction fun h => ?_
    rw [names_exclude h f hf hname] at haccepts
    cases haccepts
  · intro fs hperm
    have hvalues : (identifier :: sorts).Perm [.integer, .double, .bool, .quoted, .identifier] :=
      (List.perm_append_singleton identifier sorts).symm
    refine ⟨accepts_firstOf_of_perm (hperm.trans hvalues) line, fun h => ?_⟩
    have hexclude : (identifier :: sorts).Pairwise (Excludes line) :=
      List.pairwise_cons.2 ⟨names_exclude h, sorts_exclude line⟩
    have hread : (firstOf fs).read? line = values.read? line :=
      (read?_firstOf_of_perm hperm.symm hexclude).symm.trans
        (read?_firstOf_of_perm hvalues hexclude)
    refine ⟨parse_eq_of_read? rfl hread, fun haccepts => parse_eq_of_read? rfl ?_⟩
    obtain ⟨params, hparams⟩ := Option.isSome_iff_exists.1 ((isSome_read? _ _).trans haccepts)
    rw [hread, read?_values, hparams, Option.some_or]

example : bool.accepts "True".toList = true ∧ identifier.accepts "True".toList = true := by decide

end Stencil.Form
