import Stencil.Render
import Stencil.Proofs.Frames

/-!
# The frames around commands

A command declares in the innermost frame and nowhere else, and a block gives back
the frame it takes, whether its body succeeds or fails. So running commands keeps the
depth of the store and, in every frame, all names with their kinds; only the innermost
frame can have gained names. Rendering a table also gives the global frame the names
of the two variables that describe the table.
-/
namespace Stencil

open Steps (Within after)
open Store (Keeps innermost nowhere)

variable {α : Type} {may : Nat → Text → Prop}

/-! ## Expressions and lines -/

namespace Expression

theorem resolve_variable (name : Text) : resolve (.variable name) = Store.lookUp name .ok := by
  funext s
  rw [resolve, Store.resolve, Store.lookUp]
  cases s.value? name <;> rfl

theorem intOf_eq_lookUp (name : Text) :
    intOf name = Store.lookUp name fun
      | .int n => .ok n
      | v => .error (.kindMismatch name v.type .int) := by
  funext s
  rw [intOf, Store.lookUp]
  cases s.value? name with
  | none => rfl
  | some v => cases v <;> rfl

theorem eval_read (name : Text) : (read name).eval = Store.lookUp name fun v => .ok v.text := by
  funext s
  simp only [eval, Store.lookUp]
  cases s.value? name <;> rfl

theorem after_resolve (p : Param) (s : Store) : after (resolve p) s = s := by
  match p with
  | .literal v => rfl
  | .variable name => rw [resolve_variable, Store.after_lookUp]

theorem after_intOf (name : Text) (s : Store) : after (intOf name) s = s := by
  rw [intOf_eq_lookUp, Store.after_lookUp]

theorem after_move (name : Text) (n delta : Int) (s : Store) : after (move name n delta) s = s := by
  by_cases h : Number.InRange (n + delta) <;> simp [after, move, h]

theorem after_read (name : Text) (s : Store) : after (read name).eval s = s := by
  rw [eval_read, Store.after_lookUp]

section

variable {R : Store → Store → Prop}

theorem within_of_after {x : Store.Step α} (refl : ∀ s, R s s) (h : ∀ s, after x s = s) :
    Within R x := by
  intro s
  rw [h]
  exact refl s

/-- An expression reads, and then declares or assigns at most once: what these two do to a
store is all that is done to it. -/
theorem within_eval_of (refl : ∀ s, R s s) (trans : ∀ {s t u}, R s t → R t u → R s u)
    (hdeclare : ∀ name kind value, Within R (Store.declare name kind value))
    (hassign : ∀ name value, Within R (Store.assign name value)) (e : Expression) :
    Within R e.eval := by
  cases e with
  | declare kind name init =>
    cases init with
    | none => exact .bind trans (hdeclare _ _ _) fun _ => .pure refl _
    | some p =>
      refine .bind trans (within_of_after refl (after_resolve p)) fun v => ?_
      exact .bind trans (hdeclare _ _ _) fun _ => .pure refl _
  | assign name p =>
    refine .bind trans (within_of_after refl (after_resolve p)) fun v => ?_
    exact .bind trans (hassign _ _) fun _ => .pure refl _
  | step name delta =>
    refine .bind trans (within_of_after refl (after_intOf name)) fun n => ?_
    refine .bind trans (within_of_after refl (after_move name n delta)) fun next => ?_
    exact .bind trans (hassign _ _) fun _ => .pure refl _
  | literal text => exact .pure refl _
  | read name => exact within_of_after refl (after_read name)

end

/-- An expression declares in the innermost frame and nowhere else. -/
theorem within_eval (e : Expression) : Within (Keeps innermost) e.eval := by
  refine within_eval_of .refl .trans Store.within_declare ?_ e
  intro name value s
  exact (Store.within_assign name value s).of_nowhere

end Expression

theorem Piece.within_render (p : Piece) : Within (Keeps innermost) p.render := by
  cases p with
  | fixed text => exact .pure .refl _
  | dynamic e => exact e.within_eval

theorem Line.within_renderPieces (ps : List Piece) :
    Within (Keeps innermost) (Line.renderPieces ps) := by
  induction ps with
  | nil => exact .pure .refl _
  | cons p ps ih =>
    refine .bind .trans p.within_render fun text => ?_
    exact .bind .trans ih fun more => .pure .refl _

theorem Line.within_render (line : Line) : Within (Keeps innermost) line.render :=
  .bind .trans (Line.within_renderPieces line.pieces) fun _ => .pure .refl _

/-! ## Commands and blocks -/

namespace Machine

/-- What a step of a machine keeps of the store. -/
def Around (may : Nat → Text → Prop) (m m' : Machine) : Prop := Keeps may m.store m'.store

theorem Around.refl (m : Machine) : Around may m m := Keeps.refl m.store

theorem Around.trans {a b c : Machine} (h : Around may a b) (h' : Around may b c) :
    Around may a c :=
  Keeps.trans h h'

theorem after_onStore (x : Store.Step α) (m : Machine) :
    after (onStore x) m = { m with store := after x m.store } := by
  rw [after, onStore, after]
  cases x m.store <;> rfl

theorem within_onStore {x : Store.Step α} (h : Within (Keeps may) x) :
    Within (Around may) (onStore x) := by
  intro m
  rw [after_onStore]
  exact h m.store

/-- Writing to the file does not touch the store. -/
theorem within_onFile (x : CodeFile.Step α) : Within (Around may) (onFile x) := by
  intro m
  rw [after, onFile]
  cases x m.file <;> exact Keeps.refl m.store

theorem after_located (template : Text) (line : Nat) (x : Step α) (m : Machine) :
    after (located template line x) m = after x m := by
  rw [after, located, after]
  cases x m <;> rfl

theorem within_located {x : Step α} (template : Text) (line : Nat) (h : Within (Around may) x) :
    Within (Around may) (located template line x) := by
  intro m
  rw [after_located]
  exact h m

theorem onStore_pop {m : Machine} {f : Frame} {fs : List Frame} (h : m.store.locals = f :: fs) :
    onStore Store.pop m = .ok () { m with store := ⟨fs, m.store.global⟩ } := by
  simp only [onStore, Store.pop, h]

/-- A body that keeps the frames around its own gives the store back as it took it,
with all names and kinds and no others, and never drops a frame that it did not add. -/
theorem within_inFrame {x : Step Unit} (h : Within (Around innermost) x) :
    Within (Around nowhere) (inFrame x) := by
  intro m
  have hkeeps : Keeps innermost m.store.push (after x { m with store := m.store.push }).store :=
    h { m with store := m.store.push }
  rw [after, inFrame]
  cases hx : x { m with store := m.store.push } with
  | ok _ m' =>
    rw [Steps.after_of_ok hx] at hkeeps
    obtain ⟨f, fs, hlocals, hpop⟩ := hkeeps.exists_pop
    simp only [onStore_pop hlocals]
    exact hpop
  | error e m' =>
    rw [Steps.after_of_error hx] at hkeeps
    obtain ⟨f, fs, hlocals, hpop⟩ := hkeeps.exists_pop
    simp only [onStore_pop hlocals]
    exact hpop

theorem condition_eq_lookUp (name : Text) :
    condition name = Store.lookUp name fun
      | .bool b => .ok b
      | v => .error (.kindMismatch name .bool v.type) := by
  funext s
  rw [condition, Store.lookUp]
  cases s.value? name with
  | none => rfl
  | some v => cases v <;> rfl

theorem within_condition (name : Text) : Within (Keeps may) (condition name) := by
  intro s
  rw [condition_eq_lookUp, Store.after_lookUp]
  exact .refl s

theorem within_bindColumn (count index : Nat) (column : Column) :
    Within (Keeps innermost) (bindColumn count index column) := by
  refine .bind .trans (Store.within_declare _ _ _) fun _ => ?_
  refine .bind .trans (Store.within_declare _ _ _) fun _ => ?_
  refine .bind .trans (Store.within_declare _ _ _) fun _ => ?_
  refine .bind .trans (Store.within_declare _ _ _) fun _ => ?_
  refine .bind .trans (Store.within_declare _ _ _) fun _ => ?_
  exact Store.within_declare _ _ _

/-- Each column has a frame of its own, so nothing of it stays. -/
theorem within_overColumns {body : Step Unit} (count : Nat) (h : Within (Around innermost) body)
    (index : Nat) (columns : List Column) :
    Within (Around nowhere) (overColumns count body index columns) := by
  induction columns generalizing index with
  | nil => exact .pure .refl _
  | cons column columns ih =>
    refine .bind .trans (within_inFrame ?_) fun _ => ih (index + 1)
    exact .bind .trans (within_onStore (within_bindColumn count index column)) fun _ => h

end Machine

namespace Command
open Machine

mutual

/-- A command keeps the frames, and gives names to the innermost one only. -/
theorem within_run (template : Text) (table : Table) :
    ∀ command : Command, Within (Around innermost) (run template table command)
  | .blank line => within_located template line (within_onFile _)
  | .emit line content => by
    refine within_located template line (.bind .trans ?_ fun text => within_onFile _)
    exact within_onStore content.within_render
  | .forEach line body => by
    refine within_located template line fun m => ?_
    exact (within_overColumns _ (within_runAll template table body) 0 table.columns m).of_nowhere
  | .cond line name negate body => by
    refine within_located template line (.bind .trans (within_onStore (within_condition name)) ?_)
    intro holds
    split
    · intro m
      exact (within_inFrame (within_runAll template table body) m).of_nowhere
    · exact .pure .refl _

/-- Commands one after the other keep what each of them keeps. -/
theorem within_runAll (template : Text) (table : Table) :
    ∀ commands : List Command, Within (Around innermost) (runAll template table commands)
  | [] => .pure .refl _
  | command :: commands =>
    .bind .trans (within_run template table command) fun _ => within_runAll template table commands

end

end Command

/-! ## Tables and templates -/

namespace Template

/-- The frames that may gain names while a table is rendered: the innermost one, and
the global one those that describe the table. -/
def TableNames (s : Store) (i : Nat) (n : Text) : Prop :=
  i = 0 ∨ (i + 1 = s.depth ∧ (n = tableName ∨ n = columnCount))

/-- What rendering tables keeps of the store. -/
def AroundTables (s t : Store) : Prop := Keeps (TableNames s) s t

namespace AroundTables

variable {s t u : Store}

theorem refl (s : Store) : AroundTables s s := Keeps.refl s

theorem trans (h : AroundTables s t) (h' : AroundTables t u) : AroundTables s u := by
  refine Keeps.trans h (h'.mono fun i n hi => ?_)
  rwa [TableNames, h.depth] at hi

theorem of_innermost (h : Keeps innermost s t) : AroundTables s t := h.mono fun _ _ => .inl

/-- The global frame is the last one. -/
theorem global (h : AroundTables s t) {n : Text} {v : Variable} (hv : s.getGlobal? n = some v) :
    ∃ v', t.getGlobal? n = some v' ∧ v'.kind = v.kind := by
  have hlocals : t.locals.length = s.locals.length := Nat.succ.inj h.depth
  have hs : s.kindAt s.locals.length n = some v.kind := by
    rw [Store.kindAt_eq, if_neg (Nat.lt_irrefl _), if_pos rfl, Frame.kind?]
    rw [Store.getGlobal?] at hv
    rw [hv, Option.map_some]
  have ht : t.kindAt s.locals.length n = (t.getGlobal? n).map Variable.kind := by
    rw [← hlocals, Store.kindAt_eq, if_neg (Nat.lt_irrefl _), if_pos rfl, Frame.kind?]
    rfl
  rcases h.kind s.locals.length n with hk | ⟨hk, -⟩
  · rw [hs, ht, Option.map_eq_some_iff] at hk
    exact hk
  · rw [hs] at hk
    cases hk

end AroundTables

theorem within_declareGlobal (name : Text) (kind : Kind) (value : Value)
    (hname : name = tableName ∨ name = columnCount) :
    Within AroundTables (Store.declareGlobal name kind value) := by
  intro s
  refine (Store.within_declareGlobal name kind value s).mono fun i n hi => ?_
  exact .inr ⟨hi.1, hname.imp (fun h => hi.2.trans h) fun h => hi.2.trans h⟩

/-- Rendering a table gives the innermost frame names, and the global one those that
describe the table. -/
theorem within_renderTable (t : Template) (commands : List Command) (table : Table)
    (file : CodeFile) : Within AroundTables (t.renderTable commands table file) := by
  refine .bind .trans (within_declareGlobal _ _ _ (.inl rfl)) fun _ => ?_
  refine .bind .trans (within_declareGlobal _ _ _ (.inr rfl)) fun _ s => ?_
  have h : Within (Machine.Around innermost) (do
      Command.runAll t.name table commands
      Machine.onFile CodeFile.finish) :=
    .bind .trans (Command.within_runAll t.name table commands) fun _ => Machine.within_onFile _
  have hs := h ⟨s, file⟩
  simp only [after] at hs ⊢
  split at hs
  · next heq =>
    simp only [heq]
    exact .of_innermost hs
  · next heq =>
    simp only [heq]
    exact .of_innermost hs

theorem within_renderTables (t : Template) (commands : List Command)
    (newFile : Text → Except Error CodeFile) (tables : List Table) :
    Within AroundTables (t.renderTables commands newFile tables) := by
  induction tables with
  | nil => exact .pure .refl _
  | cons table tables ih =>
    refine .bind .trans (fun s => ?_) fun file => ?_
    · -- A file that cannot be made is an error before anything is declared.
      simp only [after]
      cases newFile t.fileType <;> exact .refl s
    · refine .bind .trans (within_renderTable t commands table file) fun rendered => ?_
      exact .bind .trans ih fun more => .pure .refl _

theorem within_render (t : Template) (tables : List Table)
    (newFile : Text → Except Error CodeFile) : Within AroundTables (t.render tables newFile) := by
  intro s
  rw [after, render]
  cases t.compile with
  | error e => exact .refl s
  | ok commands? =>
    cases commands? with
    | none => exact .refl s
    | some commands => exact within_renderTables t commands newFile tables s

/-- A call that renders a template for some tables. -/
structure Call where
  template : Template
  tables : List Table
  newFile : Text → Except Error CodeFile

/-- The store that calls leave behind, one after the other, each failing or not. -/
def afterCalls (s : Store) (calls : List Call) : Store :=
  calls.foldl (fun s call => after (call.template.render call.tables call.newFile) s) s

theorem aroundTables_afterCalls (s : Store) (calls : List Call) :
    AroundTables s (afterCalls s calls) := by
  induction calls generalizing s with
  | nil => exact .refl s
  | cons call calls ih =>
    exact (within_render call.template call.tables call.newFile s).trans (ih _)

/-- **Blocks keep the frames around them.** Commands leave as many frames as they
found, with all names and kinds, whether they succeed or fail at any place; they give
names to the innermost frame only. Rendering a table adds those that describe it to the
global frame. So calls on one store leave its depth, and every global variable with its
kind. -/
theorem frames_kept :
    (∀ template table commands m,
      Keeps innermost m.store (after (Command.runAll template table commands) m).store) ∧
    (∀ t commands table file s,
      Keeps (TableNames s) s (after (renderTable t commands table file) s)) ∧
    ∀ calls s, (afterCalls s calls).depth = s.depth ∧
      ∀ n v, s.getGlobal? n = some v →
        ∃ v', (afterCalls s calls).getGlobal? n = some v' ∧ v'.kind = v.kind := by
  refine ⟨?_, ?_, ?_⟩
  · intro template table commands m
    exact Command.within_runAll template table commands m
  · intro t commands table file s
    exact within_renderTable t commands table file s
  · intro calls s
    have h := aroundTables_afterCalls s calls
    exact ⟨h.depth, fun n v hv => h.global hv⟩

end Template

end Stencil
