import Stencil.Proofs.Endings
import Stencil.Proofs.Pushing

/-!
# What running can fail with

Behind a template that compiles there are four ways to fail: a name denotes nothing, it
denotes a value of the wrong type, an integer leaves its range, or a line does not fit
the indentation. None of them has a location of its own.
-/
namespace Stencil

open Steps (Raises Fails)

/-- The failures of using a name: it denotes nothing, or a value of the wrong type. -/
inductive Misuse : Error → Prop
  | unknownVariable (name : Text) : Misuse (.unknownVariable name)
  | kindMismatch (name : Text) (expected found : ValueType) :
      Misuse (.kindMismatch name expected found)

/-- The failures of a template that compiles. -/
inductive Runtime : Error → Prop
  | unknownVariable (name : Text) : Runtime (.unknownVariable name)
  | kindMismatch (name : Text) (expected found : ValueType) :
      Runtime (.kindMismatch name expected found)
  | overflow (name : Text) : Runtime (.overflow name)
  | indentUnderflow (line : Text) : Runtime (.indentUnderflow line)

theorem Misuse.runtime {e : Error} (h : Misuse e) : Runtime e := by
  cases h with
  | unknownVariable name => exact .unknownVariable name
  | kindMismatch name expected found => exact .kindMismatch name expected found

theorem Underflow.runtime {e : Error} (h : Underflow e) : Runtime e := by
  cases h
  exact .indentUnderflow _

/-- A failure without a location gets the one it is given. -/
theorem Runtime.locate {e : Error} (h : Runtime e) (template : Text) (line : Nat) :
    e.locate template line = .located template line e := by
  cases h <;> rfl

variable {e : Error} {name : Text} {kind : Kind} {value : Value}

/-! ## Stores -/

theorem Variable.checkKind_error (h : checkKind name kind value = .error e) : Misuse e := by
  rw [checkKind] at h
  split at h
  · cases h
  · cases h
    exact .kindMismatch name _ _

theorem Frame.assign?_error {f : Frame} (h : f.assign? name value = some (.error e)) :
    Misuse e := by
  induction f with
  | nil => cases h
  | cons v f ih =>
    rw [assign?] at h
    split at h
    · have hwrite := Steps.map_eq_error_iff.1 (Option.some.inj h)
      exact Variable.checkKind_error (Steps.map_eq_error_iff.1 hwrite)
    · obtain ⟨r, hr, he⟩ := Option.map_eq_some_iff.1 h
      exact ih (hr.trans (congrArg some (Steps.map_eq_error_iff.1 he)))

theorem Frame.declare_error {f : Frame} (h : f.declare name kind value = .error e) :
    Misuse e := by
  rw [declare] at h
  split at h
  · next r hr => exact assign?_error (hr.trans (congrArg some h))
  · have hnew := Steps.map_eq_error_iff.1 h
    exact Variable.checkKind_error (Steps.map_eq_error_iff.1 hnew)

namespace Store

theorem assignIn?_error {fs : List Frame} (h : assignIn? name value fs = some (.error e)) :
    Misuse e := by
  induction fs with
  | nil => cases h
  | cons f fs ih =>
    rw [assignIn?] at h
    split at h
    · next r hr =>
      have hassign := Steps.map_eq_error_iff.1 (Option.some.inj h)
      exact Frame.assign?_error (hr.trans (congrArg some hassign))
    · obtain ⟨r, hr, he⟩ := Option.map_eq_some_iff.1 h
      exact ih (hr.trans (congrArg some (Steps.map_eq_error_iff.1 he)))

theorem raises_declare (name : Text) (kind : Kind) (value : Value) :
    Raises Misuse (declare name kind value) := by
  rintro s e ⟨t, h⟩
  rw [declare] at h
  split at h
  · split at h
    · cases h
    · next hglobal =>
      cases h
      exact Frame.declare_error hglobal
  · split at h
    · cases h
    · next hlocal =>
      cases h
      exact Frame.declare_error hlocal

theorem raises_assignGlobal (name : Text) (value : Value) :
    Raises Misuse (assignGlobal name value) := by
  rintro s e ⟨t, h⟩
  rw [assignGlobal] at h
  split at h
  · cases h
    exact .unknownVariable name
  · cases h
  · next hassign =>
    cases h
    exact Frame.assign?_error hassign

theorem raises_assign (name : Text) (value : Value) : Raises Misuse (assign name value) := by
  rintro s e ⟨t, h⟩
  rw [assign] at h
  split at h
  · cases h
  · next hlocals =>
    cases h
    exact assignIn?_error hlocals
  · exact raises_assignGlobal name value s e ⟨t, h⟩

theorem raises_lookUp {α : Type} {f : Value → Except Error α}
    (hf : ∀ v e, f v = .error e → Misuse e) : Raises Misuse (lookUp name f) := by
  rintro s e ⟨t, h⟩
  rw [lookUp] at h
  split at h
  · cases h
    exact .unknownVariable name
  · split at h
    · cases h
    · next hv =>
      cases h
      exact hf _ _ hv

end Store

/-! ## Expressions, lines and conditions -/

namespace Expression

theorem raises_resolve (p : Param) : Raises Misuse (resolve p) := by
  match p with
  | .literal v => exact .pure v
  | .variable name =>
    rw [resolve_variable]
    exact Store.raises_lookUp fun v e h => by cases h

theorem raises_intOf (name : Text) : Raises Misuse (intOf name) := by
  rw [intOf_eq_lookUp]
  refine Store.raises_lookUp fun v e h => ?_
  split at h
  · cases h
  · cases h
    exact .kindMismatch name _ _

/-- Only an integer that leaves the range cannot be moved. -/
theorem fails_move {n delta : Int} {s : Store} (h : Fails (move name n delta) s e) :
    ¬ Number.InRange (n + delta) ∧ e = .overflow name := by
  obtain ⟨t, h⟩ := h
  rw [move] at h
  split at h
  · cases h
  · next hrange =>
    cases h
    exact ⟨hrange, rfl⟩

theorem intOf_eq_ok_iff {n : Int} {s t : Store} :
    intOf name s = .ok n t ↔ s = t ∧ s.value? name = some (.int n) := by
  rw [intOf_eq_lookUp, Store.lookUp_eq_ok_iff]
  constructor
  · rintro ⟨rfl, v, hv, hn⟩
    cases v with
    | int m =>
      cases hn
      exact ⟨rfl, hv⟩
    | double | bool | string => cases hn
  · rintro ⟨rfl, hv⟩
    exact ⟨rfl, _, hv, rfl⟩

/-- An expression fails by a name that it uses, or it steps an integer out of its range. -/
theorem fails_eval {expression : Expression} {s : Store} (h : Fails expression.eval s e) :
    Misuse e ∨ ∃ name delta n, expression = .step name delta ∧
      s.value? name = some (.int n) ∧ ¬ Number.InRange (n + delta) ∧ e = .overflow name := by
  have hmisuse : ∀ {x : Store.Step Text}, expression.eval = x → Raises Misuse x → Misuse e := by
    rintro x rfl hx
    exact hx s e h
  cases expression with
  | declare kind name init =>
    cases init with
    | none =>
      exact .inl (hmisuse rfl ((Store.raises_declare name kind _).bind fun _ => .pure _))
    | some p =>
      refine .inl (hmisuse rfl ((raises_resolve p).bind fun value => ?_))
      exact (Store.raises_declare name kind value).bind fun _ => .pure _
  | assign name p =>
    refine .inl (hmisuse rfl ((raises_resolve p).bind fun value => ?_))
    exact (Store.raises_assign name value).bind fun _ => .pure _
  | step name delta =>
    rcases Steps.fails_bind_iff.1 h with h | ⟨n, t, hn, h⟩
    · exact .inl (raises_intOf name s e h)
    · obtain ⟨rfl, hvalue⟩ := intOf_eq_ok_iff.1 hn
      rcases Steps.fails_bind_iff.1 h with h | ⟨next, t, -, h⟩
      · obtain ⟨hrange, he⟩ := fails_move h
        exact .inr ⟨name, delta, n, rfl, hvalue, hrange, he⟩
      · have hraises : Raises Misuse (do Store.assign name (.int next); return ([] : Text)) :=
          (Store.raises_assign name _).bind fun _ => .pure _
        exact .inl (hraises t e h)
  | literal text => exact absurd h (Steps.not_fails_of_ok rfl)
  | read name =>
    refine .inl (hmisuse (eval_read name) (Store.raises_lookUp fun v e h => ?_))
    cases h

theorem raises_eval (expression : Expression) : Raises Runtime expression.eval := by
  intro s e h
  rcases fails_eval h with hmisuse | ⟨name, -, -, -, -, -, rfl⟩
  · exact hmisuse.runtime
  · exact .overflow name

end Expression

theorem Piece.raises_render (p : Piece) : Raises Runtime p.render := by
  cases p with
  | fixed text => exact .pure _
  | dynamic expression => exact expression.raises_eval

theorem Line.raises_renderPieces (ps : List Piece) : Raises Runtime (Line.renderPieces ps) := by
  induction ps with
  | nil => exact .pure _
  | cons p ps ih => exact p.raises_render.bind fun text => ih.bind fun more => .pure _

theorem Line.raises_render (line : Line) : Raises Runtime line.render :=
  (Line.raises_renderPieces line.pieces).bind fun _ => .pure _

theorem Machine.raises_condition (name : Text) : Raises Runtime (condition name) := by
  rw [condition_eq_lookUp]
  refine (Store.raises_lookUp fun v e h => ?_).mono fun _ => Misuse.runtime
  split at h
  · cases h
  · cases h
    exact .kindMismatch name _ _

end Stencil
