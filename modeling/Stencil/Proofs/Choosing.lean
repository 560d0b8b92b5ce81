import Stencil.Proofs.Reading

/-!
# Which construct takes a line

The constructs of a language are asked in order. One declines a line when its form does
not accept it, or when its rule declines the parameters; the first that does not decline
decides, by the command that its rule makes or by the error that it raises. A mismatch
would come from a form that accepts a line and cannot read it, and there is none: so a
language whose rules raise no mismatch never answers with one.

## Main definitions

* `Construct.Declines`: the construct leaves the line to the ones behind it.
* `Language.Decides`: how the answer of a language comes about.
-/
namespace Stencil

variable {α : Type} {line : Text} {a : α} {e : Error} {r : Except Error α}

namespace Construct

/-- The form does not accept the line, or the rule declines what it carries. -/
def Declines (c : Construct α) (line : Text) : Prop :=
  c.accepts line = false ∨ ∃ params, c.form.parse line = .ok params ∧ c.build params = .ok none

/-- The rule raises no mismatch of its own. -/
def NoMismatch (c : Construct α) : Prop :=
  ∀ params form text, c.build params ≠ .error (.mismatch form text)

variable {c : Construct α}

/-- A construct whose form accepts a line answers as its rule does. -/
theorem take?_eq_build {params : List Param} (haccepts : c.accepts line = true)
    (hparams : c.form.parse line = .ok params) : c.take? line = c.build params := by
  rw [take?, if_pos haccepts, hparams]

theorem take?_eq_none_of_not_accepts (h : c.accepts line = false) : c.take? line = .ok none := by
  rw [take?, h]
  rfl

theorem take?_eq_none_iff : c.take? line = .ok none ↔ c.Declines line := by
  cases haccepts : c.accepts line with
  | false => simp [take?_eq_none_of_not_accepts haccepts, Declines, haccepts]
  | true =>
    obtain ⟨params, hparams⟩ := c.form.parse_of_accepts haccepts
    simp [take?_eq_build haccepts hparams, Declines, haccepts, hparams]

end Construct

namespace Language

variable {l before behind : Language α} {c : Construct α}

/-- How the answer of a language comes about. -/
inductive Decides (l : Language α) (line : Text) : Except Error α → Prop
  /-- The first construct that does not decline makes a command. -/
  | taken {before behind : Language α} {c : Construct α} {params : List Param} {a : α} :
      l = before ++ c :: behind → (∀ d ∈ before, d.Declines line) → c.accepts line = true →
        c.form.parse line = .ok params → c.build params = .ok (some a) → Decides l line (.ok a)
  /-- The first construct that does not decline fails. -/
  | failed {before behind : Language α} {c : Construct α} {params : List Param} {e : Error} :
      l = before ++ c :: behind → (∀ d ∈ before, d.Declines line) → c.accepts line = true →
        c.form.parse line = .ok params → c.build params = .error e → Decides l line (.error e)
  /-- Every construct declines. -/
  | unknown : (∀ d ∈ l, d.Declines line) →
      Decides l line (.error (.unknownCommand (Text.trim line)))

/-- Constructs that decline leave the line to those behind them. -/
theorem take?_append_of_declines (h : ∀ d ∈ before, d.Declines line) :
    take? (before ++ behind) line = take? behind line := by
  induction before with
  | nil => rfl
  | cons d before ih =>
    rw [List.cons_append, take?, Construct.take?_eq_none_iff.2 (h d (by simp))]
    exact ih fun d' hd' => h d' (by simp [hd'])

/-- The answer of a language whose first construct takes the line. -/
theorem parse_cons_of_taken (h : c.take? line = .ok (some a)) :
    parse (c :: behind) line = .ok a := by
  rw [parse, take?, h]

theorem parse_cons_of_failed (h : c.take? line = .error e) :
    parse (c :: behind) line = .error e := by
  rw [parse, take?, h]

theorem parse_append_of_declines (h : ∀ d ∈ before, d.Declines line) :
    parse (before ++ behind) line = parse behind line := by
  rw [parse, parse, take?_append_of_declines h]

theorem parse_cons_of_declines (h : c.Declines line) :
    parse (c :: behind) line = parse behind line := by
  have hone : ∀ d ∈ [c], d.Declines line := by simpa using h
  exact parse_append_of_declines hone

/-- When the constructs in front make one command or none, their order does not matter. -/
theorem parse_append_of_agreed (hmem : ∃ c ∈ before, c.take? line = .ok (some a))
    (hall : ∀ c ∈ before, c.Declines line ∨ c.take? line = .ok (some a)) :
    parse (before ++ behind) line = .ok a := by
  induction before with
  | nil => simp at hmem
  | cons c before ih =>
    rw [List.cons_append]
    obtain ⟨hc, hbefore⟩ := List.forall_mem_cons.1 hall
    rcases hc with hdeclines | htaken
    · rw [parse_cons_of_declines hdeclines]
      refine ih ?_ hbefore
      obtain ⟨d, hd, htaken⟩ := hmem
      rcases List.mem_cons.1 hd with rfl | hd
      · rw [Construct.take?_eq_none_iff.2 hdeclines] at htaken
        cases htaken
      · exact ⟨d, hd, htaken⟩
    · exact parse_cons_of_taken htaken

theorem parse_of_declines (h : ∀ d ∈ l, d.Declines line) :
    l.parse line = .error (.unknownCommand (Text.trim line)) := by
  have hnil : parse (l ++ []) line = parse [] line := parse_append_of_declines h
  rwa [List.append_nil] at hnil

/-- Every line gets an answer in one of the three ways. -/
theorem exists_decides (l : Language α) (line : Text) : ∃ r, l.Decides line r := by
  induction l with
  | nil => exact ⟨_, .unknown (by simp)⟩
  | cons c l ih =>
    by_cases hc : c.Declines line
    · have hfront : ∀ {before : Language α}, (∀ d ∈ before, d.Declines line) →
          ∀ d ∈ c :: before, d.Declines line := fun h => List.forall_mem_cons.2 ⟨hc, h⟩
      obtain ⟨r, hr⟩ := ih
      cases hr with
      | taken he hbefore haccepts hparams hbuild =>
        exact ⟨_, .taken (congrArg (c :: ·) he) (hfront hbefore) haccepts hparams hbuild⟩
      | failed he hbefore haccepts hparams hbuild =>
        exact ⟨_, .failed (congrArg (c :: ·) he) (hfront hbefore) haccepts hparams hbuild⟩
      | unknown hl => exact ⟨_, .unknown (hfront hl)⟩
    · obtain ⟨haccepts, hbuild⟩ := not_or.1 hc
      rw [Bool.not_eq_false] at haccepts
      obtain ⟨params, hparams⟩ := c.form.parse_of_accepts haccepts
      have hnil : ∀ d ∈ ([] : Language α), d.Declines line := by simp
      cases hb : c.build params with
      | error e => exact ⟨_, .failed rfl hnil haccepts hparams hb⟩
      | ok taken =>
        cases taken with
        | none => exact absurd ⟨params, hparams, hb⟩ hbuild
        | some a => exact ⟨_, .taken rfl hnil haccepts hparams hb⟩

theorem Decides.parse_eq (h : l.Decides line r) : l.parse line = r := by
  cases h with
  | taken he hbefore haccepts hparams hbuild =>
    rw [he, parse_append_of_declines hbefore]
    exact parse_cons_of_taken ((Construct.take?_eq_build haccepts hparams).trans hbuild)
  | failed he hbefore haccepts hparams hbuild =>
    rw [he, parse_append_of_declines hbefore]
    exact parse_cons_of_failed ((Construct.take?_eq_build haccepts hparams).trans hbuild)
  | unknown hl => exact parse_of_declines hl

/-- A language answers as the first construct that does not decline decides. -/
theorem parse_eq_iff_decides : l.parse line = r ↔ l.Decides line r := by
  refine ⟨fun h => ?_, Decides.parse_eq⟩
  obtain ⟨r', hr'⟩ := l.exists_decides line
  rwa [← h, hr'.parse_eq]

/-- No rule raises a mismatch, and the answer is never one. -/
theorem parse_ne_mismatch (hl : ∀ c ∈ l, c.NoMismatch) (line form text : Text) :
    l.parse line ≠ .error (.mismatch form text) := by
  intro h
  rcases parse_error h with he | ⟨c, hc, params, hparams⟩
  · cases he
  · exact hl c hc params form text hparams

end Language

/-! ## The languages of templates -/

theorem Expression.noMismatch_of_mem : ∀ c ∈ language, c.NoMismatch := by
  intro c hc params form text hbuild
  simp only [language, List.mem_cons, List.not_mem_nil, or_false] at hc
  rcases hc with rfl | rfl | rfl | rfl | rfl | rfl | rfl | rfl <;> cases hbuild

/-- The rule of emitted lines fails as compiling does, which is never a mismatch. -/
theorem Statement.noMismatch_of_mem : ∀ c ∈ language, c.NoMismatch := by
  intro c hc params form text hbuild
  simp only [language, List.mem_cons, List.not_mem_nil, or_false] at hc
  rcases hc with rfl | rfl | rfl | rfl | rfl
  · cases hbuild
  · cases hbuild
  · cases hbuild
  · cases hbuild
  · simp only [ofText] at hbuild
    split at hbuild
    · cases Line.compile_error (Steps.map_eq_error_iff.1 hbuild)
    · cases hbuild

/-- **A form reads what it accepts, so no mismatch leaves a language.** A form that accepts
a line reads it, and one that does not names itself and the line as it was given. A
language whose rules raise no mismatch, such as those of expressions and of statements,
then answers with the first construct that does not decline: with its command, with its
error, or, when there is none, with the trimmed line as an unknown command. -/
theorem Language.answers_without_mismatch :
    (∀ (f : Form) (line : Text),
      (f.accepts line = true ↔ ∃ params, f.parse line = .ok params) ∧
        (f.accepts line = false → f.parse line = .error (.mismatch f.name line))) ∧
    (∀ (α : Type) (l : Language α), (∀ c ∈ l, c.NoMismatch) → ∀ line,
      (∀ form text, l.parse line ≠ .error (.mismatch form text)) ∧
        ∀ r, l.parse line = r ↔ l.Decides line r) ∧
    (∀ c ∈ Expression.language, c.NoMismatch) ∧ (∀ c ∈ Statement.language, c.NoMismatch) := by
  refine ⟨fun f line => ⟨⟨f.parse_of_accepts, ?_⟩, f.parse_of_not_accepts⟩, ?_,
    Expression.noMismatch_of_mem, Statement.noMismatch_of_mem⟩
  · rintro ⟨params, hparams⟩
    by_contra h
    rw [f.parse_of_not_accepts (Bool.not_eq_true _ ▸ h)] at hparams
    cases hparams
  · intro α l hl line
    exact ⟨parse_ne_mismatch hl line, fun r => parse_eq_iff_decides⟩

/-- A number with a point is no integer, and a sum is no expression. -/
theorem Language.answers_on_numbers :
    Form.integer.parse " 3.5".toList = .error (.mismatch "integer".toList " 3.5".toList) ∧
      Expression.language.Decides " 1 + 2 ".toList (.error (.unknownCommand "1 + 2".toList)) ∧
      Expression.language.Decides " 3.5 ".toList (.ok (.literal "3.5".toList)) := by
  obtain ⟨hforms, hlanguages, hexpressions, -⟩ := answers_without_mismatch
  have hdecides := fun line => (hlanguages Expression Expression.language hexpressions line).2
  refine ⟨(hforms .integer _).2 (by decide +kernel), (hdecides _ _).1 ?_, (hdecides _ _).1 ?_⟩
  · rfl
  · rfl

end Stencil
