import Stencil.Proofs.Slots
import Stencil.Proofs.Writing

/-!
# Declarations

A declaration writes a slot of the innermost frame. Its value is the one that it is made
with, or else the zero of its kind. A new slot has the kind that is declared. A slot that is
there already keeps the kind that it has, and takes a value of that kind or none at all: so
it is not the declared kind that decides, but the kind of the slot.

## Main definitions

* `Store.initial`: the value that a declaration starts from.
* `Expression.evaluate`: reads a text and evaluates the expression that it writes.
* `Expression.afterTexts`: the store that texts leave behind.
-/
namespace Stencil

open Steps (Within after)

variable {name : Text} {kind : Kind} {value : Value} {e : Error}

/-! ## Values of the wrong kind -/

theorem Variable.checkKind_eq_error (h : value.kind? ≠ some kind) :
    checkKind name kind value = .error (.kindMismatch name kind.type value.type) := if_neg h

namespace Frame

variable {f : Frame} {v : Variable}

theorem assign?_eq_error (hv : f.get? name = some v) (h : value.kind? ≠ some v.kind) :
    f.assign? name value = some (.error (.kindMismatch name v.kind.type value.type)) := by
  induction f with
  | nil => cases hv
  | cons w f ih =>
    rw [get?_cons] at hv
    by_cases hw : w.name = name
    · rw [if_pos hw] at hv
      obtain rfl : w = v := Option.some.inj hv
      simp [assign?, hw, Variable.write, Variable.checkKind_eq_error h, Except.map]
    · rw [if_neg hw] at hv
      simp [assign?, hw, ih hv, Except.map]

theorem declare_eq_error (h : value.kind? ≠ some ((f.kind? name).getD kind)) :
    f.declare name kind value =
      .error (.kindMismatch name ((f.kind? name).getD kind).type value.type) := by
  cases hv : f.get? name with
  | none =>
    have hkind : f.kind? name = none := kind?_eq_none_iff.2 hv
    rw [hkind, Option.getD_none] at h ⊢
    simp [declare, assign?_eq_none_iff.2 hv, Variable.new, Variable.checkKind_eq_error h,
      Except.map]
  | some v =>
    have hkind : f.kind? name = some v.kind := by rw [kind?, hv, Option.map_some]
    rw [hkind, Option.getD_some] at h ⊢
    rw [declare, assign?_eq_error hv h]

end Frame

namespace Store

variable {s : Store}

/-- A value that is not of the slot's kind is refused, and nothing changes. -/
theorem declare_eq_error (h : value.kind? ≠ some (s.kindFor s.top name kind)) :
    declare name kind value s =
      .error (.kindMismatch name (s.kindFor s.top name kind).type value.type) s := by
  rw [kindFor, slot_top] at h ⊢
  obtain ⟨locals, global⟩ := s
  cases locals with
  | nil =>
    have hglobal := Frame.declare_eq_error (f := global) h
    simp only [declare, hglobal]
    rfl
  | cons f locals =>
    have hlocal := Frame.declare_eq_error (f := f) h
    simp only [declare, hlocal]
    rfl

/-- A value of the slot's kind is written to the slot. -/
theorem declare_updates (h : value.kind? = some (s.kindFor s.top name kind)) :
    ∃ t, declare name kind value s = .ok () t ∧
      Updates s.top name ⟨name, s.kindFor s.top name kind, value⟩ s t := by
  obtain ⟨t, ht⟩ := exists_declare_iff.2 h
  obtain ⟨f, g, hst, hg⟩ := declare_rewrites ht
  have hkind : (f.kind? name).getD kind = s.kindFor s.top name kind := by
    rw [kindFor, hst.slot_old, Frame.kind?]
  refine ⟨t, ht, ?_⟩
  rw [← hkind]
  exact hst.updates (Frame.sets_of_declare hg)

/-- The value that a declaration starts from: the one that it is made with, or the zero of
its kind. -/
def initial (s : Store) (kind : Kind) : Option Param → Except Error Value
  | none => .ok kind.zero
  | some p => s.resolve p

end Store

/-! ## Declarations as expressions -/

namespace Expression

variable {s t : Store} {text r : Text} {init : Option Param}

/-- Reads a text and evaluates the expression that it writes. -/
def evaluate (text : Text) : Store.Step Text := fun s =>
  match parse text with
  | .ok e => e.eval s
  | .error e => .error e s

/-- The store that texts leave behind, one after the other, each failing or not. -/
def afterTexts (s : Store) (texts : List Text) : Store :=
  texts.foldl (fun s text => after (evaluate text) s) s

theorem evaluate_of_parse {expression : Expression} (h : parse text = .ok expression) :
    evaluate text s = expression.eval s := by
  rw [evaluate, h]

/-- What evaluating any expression does to a store is all that evaluating a text does. -/
theorem within_evaluate {R : Store → Store → Prop} (refl : ∀ s, R s s)
    (heval : ∀ e : Expression, Within R e.eval) (text : Text) : Within R (evaluate text) := by
  intro s
  cases h : parse text with
  | ok e =>
    rw [after, evaluate_of_parse h]
    exact heval e s
  | error e =>
    rw [after, evaluate, h]
    exact refl s

theorem resolve_of_ok {p : Param} (h : s.resolve p = .ok value) : resolve p s = .ok value s := by
  rw [resolve, h]

theorem resolve_of_error {p : Param} (h : s.resolve p = .error e) :
    resolve p s = .error e s := by
  rw [resolve, h]

theorem eval_declare_of_error (h : s.initial kind init = .error e) :
    (declare kind name init).eval s = .error e s := by
  cases init with
  | none => cases h
  | some p => exact Steps.run_bind_of_error (resolve_of_error h)

theorem eval_declare_of_ok (h : s.initial kind init = .ok value) :
    (declare kind name init).eval s = (do Store.declare name kind value; return []) s := by
  cases init with
  | none =>
    obtain rfl : kind.zero = value := Except.ok.inj h
    rfl
  | some p => exact Steps.run_bind_of_ok (resolve_of_ok h)

/-- A declaration whose value is of the slot's kind writes the slot. -/
theorem evaluate_of_fitting (h : parse text = .ok (.declare kind name init))
    (hvalue : s.initial kind init = .ok value)
    (hkind : value.kind? = some (s.kindFor s.top name kind)) :
    ∃ t, evaluate text s = .ok [] t ∧
      Store.Updates s.top name ⟨name, s.kindFor s.top name kind, value⟩ s t := by
  obtain ⟨t, ht, hupdates⟩ := Store.declare_updates hkind
  refine ⟨t, ?_, hupdates⟩
  rw [evaluate_of_parse h, eval_declare_of_ok hvalue]
  exact Steps.run_bind_of_ok ht

/-- A declaration whose value is of another kind fails, and changes nothing. -/
theorem evaluate_of_unfitting (h : parse text = .ok (.declare kind name init))
    (hvalue : s.initial kind init = .ok value)
    (hkind : value.kind? ≠ some (s.kindFor s.top name kind)) :
    evaluate text s =
      .error (.kindMismatch name (s.kindFor s.top name kind).type value.type) s := by
  rw [evaluate_of_parse h, eval_declare_of_ok hvalue]
  exact Steps.run_bind_of_error (Store.declare_eq_error hkind)

theorem kind?_zero (kind : Kind) : kind.zero.kind? = some kind := by cases kind <;> rfl

/-- The zero of a kind only fits where the slot has the kind. -/
theorem kindFor_of_evaluate (h : parse text = .ok (.declare kind name none))
    (hok : evaluate text s = .ok r t) : s.kindFor s.top name kind = kind := by
  by_cases hkind : kind.zero.kind? = some (s.kindFor s.top name kind)
  · rw [kind?_zero] at hkind
    exact (Option.some.inj hkind).symm
  · rw [evaluate_of_unfitting h rfl hkind] at hok
    cases hok

/-- **A declaration writes a slot of the innermost frame, of the kind that the slot has.** A
text is read as a declaration. When its value cannot be found, that is the failure. A value of
the slot's kind, which is the declared one if the frame does not have the name, is in the
slot afterwards, and nothing else changes. A value of any other kind is a mismatch, and then
nothing changes at all. A declaration without a value only succeeds where the slot has the
declared kind. -/
theorem declarations_write_slots (s : Store) (h : parse text = .ok (.declare kind name init)) :
    (∀ e, s.initial kind init = .error e → evaluate text s = .error e s) ∧
    (∀ value, s.initial kind init = .ok value →
      (value.kind? = some (s.kindFor s.top name kind) →
        ∃ t, evaluate text s = .ok [] t ∧
          Store.Updates s.top name ⟨name, s.kindFor s.top name kind, value⟩ s t) ∧
      (value.kind? ≠ some (s.kindFor s.top name kind) →
        evaluate text s =
          .error (.kindMismatch name (s.kindFor s.top name kind).type value.type) s)) ∧
    (init = none → ∀ r t, evaluate text s = .ok r t → s.kindFor s.top name kind = kind) := by
  refine ⟨?_, ?_, ?_⟩
  · intro e he
    rw [evaluate_of_parse h, eval_declare_of_error he]
  · intro value hvalue
    exact ⟨evaluate_of_fitting h hvalue, evaluate_of_unfitting h hvalue⟩
  · intro hinit r t hok
    subst hinit
    exact kindFor_of_evaluate h hok

/-- A truth value for a variable that is declared as an integer. -/
theorem parse_truth_for_int : parse "int a = true".toList =
    .ok (.declare .int ['a'] (some (.literal (.bool true)))) := by
  have hname : Plain ['a'] := ⟨by decide, by decide⟩
  have htruth : Param.Written (.literal (.bool true)) "true".toList := .bool (by decide)
  have hkeyword : Text.sameLetters "int".toList (Kind.name .int) = true := by decide
  have hblank : ([' '] : Text).all Text.isBlank = true := rfl
  exact parse_initialise (v := []) hkeyword rfl hname hblank hblank htruth rfl

/-- A variable that is there as a truth value takes one, although it is declared as an
integer. -/
theorem bool_takes_truth_for_int :
    parse "int a = true".toList =
        .ok (.declare .int ['a'] (some (.literal (.bool true)))) ∧
      ∃ t, evaluate "int a = true".toList (afterTexts .empty ["bool a".toList]) = .ok [] t ∧
        Store.Updates 0 ['a'] ⟨['a'], .bool, .bool true⟩
          (afterTexts .empty ["bool a".toList]) t := by
  refine ⟨parse_truth_for_int, ?_⟩
  have hwrites := declarations_write_slots (afterTexts .empty ["bool a".toList])
    parse_truth_for_int
  exact (hwrites.2.1 (.bool true) rfl).1 rfl

/-- A declaration that succeeds need not give its variable the kind that is declared. -/
theorem not_all_declarations_give_their_kind :
    ¬ ∀ (texts : List Text) (text r name : Text) (kind : Kind) (init : Option Param) (t : Store),
        parse text = .ok (.declare kind name init) →
          evaluate text (afterTexts .empty texts) = .ok r t →
            ∃ v, t.slot t.top name = some v ∧ v.kind = kind := by
  intro h
  have heval : evaluate "int a = true".toList (afterTexts .empty ["bool a".toList]) =
      .ok [] ⟨[], [⟨['a'], .bool, .bool true⟩]⟩ := by
    rw [evaluate_of_parse parse_truth_for_int]
    rfl
  obtain ⟨v, hv, hkind⟩ := h _ _ _ _ _ _ _ parse_truth_for_int heval
  obtain rfl := Option.some.inj hv
  cases hkind

end Expression
end Stencil
