import Stencil.Generator
import Stencil.Proofs.Endings

/-!
# Tables share a store

The tables of a template are rendered on one store, so a table finds the global
variables that the tables before it declared. Those have the kinds that the template
itself gives them, for it declares them in the same order every time. So the table is
rendered as it would be on an empty store.

The proof runs each step on two stores: one that knows only what the table declared so
far, and one that has more global variables. `Store.Shared` relates the two; what is
declared and what is still to be declared are its indices.

## Main definitions

* `Command.declaredBy`: the global variables that commands declare, in order.
* `Store.Shared`: a store, and one that also has variables of earlier tables.
-/
namespace Stencil

open Steps (Carries)

variable {α : Type}

/-! ## Two stores -/

namespace Store

/-- A store `s` at a depth that knows the global variables `done`, and a store `s'` that
may have more of them. What `s'` has is of the kind that `done` or `todo` first gives it. -/
structure Shared (done todo : List (Text × Kind)) (d : Nat) (s s' : Store) : Prop where
  depth : s.locals.length = d
  locals : s'.locals = s.locals
  global : Frame.Sub s.global s'.global
  known : ∀ n, s.global.kind? n = done.lookup n
  fits : ∀ n k, s'.global.kind? n = some k → (done ++ todo).lookup n = some k

/-- The declarations that reach the global frame from a depth. -/
def reaching (d : Nat) (ds : List (Text × Kind)) : List (Text × Kind) := if d = 0 then ds else []

@[simp] theorem reaching_zero (ds : List (Text × Kind)) : reaching 0 ds = ds := rfl

@[simp] theorem reaching_succ (d : Nat) (ds : List (Text × Kind)) : reaching (d + 1) ds = [] := rfl

@[simp] theorem reaching_nil (d : Nat) : reaching d [] = [] := ite_self []

theorem reaching_append (d : Nat) (a b : List (Text × Kind)) :
    reaching d (a ++ b) = reaching d a ++ reaching d b := by
  cases d <;> rfl

variable {done todo : List (Text × Kind)} {d : Nat} {s s' : Store} {name n : Text} {kind : Kind}
  {value : Value}

namespace Shared

theorem get? {v : Variable} (h : Shared done todo d s s') (hv : s.get? n = some v) :
    s'.get? n = some v := by
  rw [Store.get?] at hv ⊢
  rw [h.locals]
  cases hlocal : s.locals.findSome? (·.get? n) with
  | some u => simpa [hlocal] using hv
  | none =>
    rw [hlocal, Option.none_or] at hv
    rw [Option.none_or]
    exact h.global n v hv

theorem value? (h : Shared done todo d s s') (hv : s.value? n = some value) :
    s'.value? n = some value := by
  obtain ⟨v, hget, rfl⟩ := Option.map_eq_some_iff.1 hv
  rw [Store.value?, h.get? hget, Option.map_some]

/-- Where the next variable is declared, both stores admit the same kind. -/
theorem getD_kind (h : Shared done ((name, kind) :: todo) d s s') :
    (s'.global.kind? name).getD kind = (s.global.kind? name).getD kind := by
  cases hs : s.global.kind? name with
  | some k => rw [h.global.kind? hs]
  | none =>
    cases hs' : s'.global.kind? name with
    | none => rfl
    | some k =>
      have hlookup := h.fits name k hs'
      rw [List.lookup_append, ← h.known, hs, Option.none_or, List.lookup_cons_self] at hlookup
      rw [Option.getD_some, Option.getD_none, Option.some.inj hlookup]

/-- The stores of the next table: what is known now is to be declared again. -/
theorem restart (h : Shared done [] 0 s s') : Shared [] done 0 Store.empty s' := by
  refine ⟨rfl, h.locals.trans (List.length_eq_zero_iff.1 h.depth), ?_, fun _ => rfl, ?_⟩
  · intro n v hv
    cases hv
  · intro n k hk
    simpa using h.fits n k hk

end Shared

/-! ## Steps on two stores -/

/-- Assigning reaches the same frame of both stores: where no local frame has the name, the
smaller global frame has it, or the step fails. -/
theorem carries_assign (name : Text) (value : Value) :
    Carries (Shared done todo d) (Shared done todo d) (assign name value) := by
  intro s s' a t hs h
  rcases assign_cases name value s with ⟨e, he⟩ | ⟨fs, hfs, hok⟩ | ⟨g, hlocals, hg, hok⟩
  · rw [he] at h
    cases h
  · rw [hok] at h
    cases h
    refine ⟨{ s' with locals := fs }, ?_, ?_, rfl, hs.global, hs.known, hs.fits⟩
    · simp only [assign, hs.locals, hfs]
    · exact (kinds_assignIn? hfs).1.trans hs.depth
  · rw [hok] at h
    cases h
    obtain ⟨g', hg', hsub⟩ := hs.global.assign? hg
    refine ⟨{ s' with global := g' }, ?_, hs.depth, hs.locals, hsub, ?_, ?_⟩
    · simp only [assign, hs.locals, hlocals, assignGlobal, hg']
    · intro n
      rw [Frame.kind?_assign? hg n]
      exact hs.known n
    · intro n k hn
      rw [Frame.kind?_assign? hg' n] at hn
      exact hs.fits n k hn

/-- The next global declaration succeeds on both stores, and makes the same variable. -/
theorem carries_declareGlobal (name : Text) (kind : Kind) (value : Value) :
    Carries (Shared done ((name, kind) :: todo) d) (Shared (done ++ [(name, kind)]) todo d)
      (declareGlobal name kind value) := by
  intro s s' a t hs h
  rcases declareGlobal_cases name kind value s with ⟨e, he⟩ | ⟨g, hg, hok⟩
  · rw [he] at h
    cases h
  rw [hok] at h
  cases h
  obtain ⟨g', hg', hsub⟩ := hs.global.declare hs.getD_kind hg
  refine ⟨{ s' with global := g' }, ?_, hs.depth, hs.locals, hsub, ?_, ?_⟩
  · simp only [declareGlobal, hg']
  · intro n
    rw [Frame.kind?_declare hg n, hs.known, List.lookup_append]
    by_cases hn : n = name
    · rw [if_pos hn, hn, List.lookup_cons_self]
    · rw [if_neg hn, List.lookup_cons, beq_eq_false_iff_ne.2 hn]
      rfl
  · intro n k hk
    rw [Frame.kind?_declare hg' n] at hk
    rw [List.append_assoc, List.singleton_append]
    cases hs' : s'.global.kind? n with
    | some k' =>
      rw [hs', Option.some_or] at hk
      exact (hs.fits n k' hs').trans hk
    | none =>
      rw [hs', Option.none_or] at hk
      split at hk
      · next hn =>
        -- neither store knows the name, so this is the declaration that gives its kind
        have hdone : done.lookup n = none := by
          rw [← hs.known, hs.global.kind?_eq_none hs']
        rw [List.lookup_append, hdone, Option.none_or, hn, List.lookup_cons_self]
        exact hk
      · cases hk

/-- A declaration reaches the global frame when there is no other. -/
theorem carries_declare (name : Text) (kind : Kind) (value : Value) :
    Carries (Shared done (reaching d [(name, kind)] ++ todo) d)
      (Shared (done ++ reaching d [(name, kind)]) todo d) (declare name kind value) := by
  intro s s' a t hs h
  obtain ⟨locals, global⟩ := s
  obtain ⟨locals', global'⟩ := s'
  obtain rfl : locals' = locals := hs.locals
  cases locals' with
  | nil =>
    obtain rfl : 0 = d := hs.depth
    exact carries_declareGlobal name kind value _ _ a t hs h
  | cons f fs =>
    obtain rfl : fs.length + 1 = d := hs.depth
    rw [declare] at h
    cases hf : f.declare name kind value with
    | error e => simp only [hf] at h; cases h
    | ok g =>
      simp only [hf] at h
      cases h
      refine ⟨⟨g :: fs, global'⟩, by simp only [declare, hf], rfl, rfl, hs.global, ?_, ?_⟩
      · simpa using hs.known
      · simpa using hs.fits

theorem carries_lookUp {f : Value → Except Error α} :
    Carries (Shared done todo d) (Shared done todo d) (lookUp name f) := by
  refine .of_reads fun s s' a t hs h => ?_
  obtain ⟨rfl, v, hv, hf⟩ := lookUp_eq_ok_iff.1 h
  exact ⟨rfl, lookUp_eq_ok_iff.2 ⟨rfl, v, hs.value? hv, hf⟩⟩

theorem shared_push (h : Shared done todo d s s') : Shared done todo (d + 1) s.push s'.push :=
  ⟨congrArg Nat.succ h.depth, congrArg (List.cons []) h.locals, h.global, h.known, h.fits⟩

theorem carries_pop : Carries (Shared done todo (d + 1)) (Shared done todo d) pop := by
  intro s s' a t hs h
  obtain ⟨locals, global⟩ := s
  obtain ⟨locals', global'⟩ := s'
  obtain rfl : locals' = locals := hs.locals
  cases locals' with
  | nil => cases hs.depth
  | cons f fs =>
    cases h
    exact ⟨⟨fs, global'⟩, rfl, Nat.succ.inj hs.depth, rfl, hs.global, hs.known, hs.fits⟩

end Store

/-! ## Expressions and lines -/

namespace Expression

open Store (Shared reaching)

variable {done todo : List (Text × Kind)} {d : Nat}

/-- What an expression declares. -/
def declaredBy : Expression → List (Text × Kind)
  | .declare kind name _ => [(name, kind)]
  | _ => []

theorem carries_resolve (p : Param) :
    Carries (Shared done todo d) (Shared done todo d) (resolve p) := by
  match p with
  | .literal v => exact .pure v
  | .variable name =>
    rw [resolve_variable]
    exact Store.carries_lookUp

theorem carries_intOf (name : Text) :
    Carries (Shared done todo d) (Shared done todo d) (intOf name) := by
  rw [intOf_eq_lookUp]
  exact Store.carries_lookUp

theorem carries_move (name : Text) (n delta : Int) :
    Carries (Shared done todo d) (Shared done todo d) (move name n delta) := by
  refine .of_reads fun s s' m t _ h => ?_
  rw [move] at h
  split at h
  · next hrange =>
    cases h
    exact ⟨rfl, if_pos hrange⟩
  · cases h

theorem carries_read (name : Text) :
    Carries (Shared done todo d) (Shared done todo d) (read name).eval := by
  rw [eval_read]
  exact Store.carries_lookUp

theorem carries_eval (e : Expression) :
    Carries (Shared done (reaching d e.declaredBy ++ todo) d)
      (Shared (done ++ reaching d e.declaredBy) todo d) e.eval := by
  cases e with
  | declare kind name init =>
    cases init with
    | none => exact .bind (Store.carries_declare name kind _) fun _ => .pure _
    | some p =>
      refine .bind (carries_resolve p) fun value => ?_
      exact .bind (Store.carries_declare name kind value) fun _ => .pure _
  | assign name p =>
    simp only [declaredBy, Store.reaching_nil, List.nil_append, List.append_nil]
    refine .bind (carries_resolve p) fun value => ?_
    exact .bind (Store.carries_assign name value) fun _ => .pure _
  | step name delta =>
    simp only [declaredBy, Store.reaching_nil, List.nil_append, List.append_nil]
    refine .bind (carries_intOf name) fun n => ?_
    refine .bind (carries_move name n delta) fun next => ?_
    exact .bind (Store.carries_assign name _) fun _ => .pure _
  | literal text =>
    simp only [declaredBy, Store.reaching_nil, List.nil_append, List.append_nil]
    exact .pure _
  | read name =>
    simp only [declaredBy, Store.reaching_nil, List.nil_append, List.append_nil]
    exact carries_read name

end Expression

namespace Line

open Store (Shared reaching)

variable {done todo : List (Text × Kind)} {d : Nat}

/-- What pieces declare, in order. -/
def declaredBy : List Piece → List (Text × Kind)
  | [] => []
  | .fixed _ :: ps => declaredBy ps
  | .dynamic e :: ps => e.declaredBy ++ declaredBy ps

theorem carries_renderPieces (ps : List Piece) :
    Carries (Shared done (reaching d (declaredBy ps) ++ todo) d)
      (Shared (done ++ reaching d (declaredBy ps)) todo d) (renderPieces ps) := by
  induction ps generalizing done with
  | nil =>
    simp only [declaredBy, Store.reaching_nil, List.nil_append, List.append_nil]
    exact .pure _
  | cons p ps ih =>
    cases p with
    | fixed text => exact .bind (.pure text) fun _ => .bind ih fun _ => .pure _
    | dynamic e =>
      simp only [declaredBy, Store.reaching_append, List.append_assoc]
      refine .bind (Expression.carries_eval e) fun text => ?_
      rw [← List.append_assoc]
      exact .bind ih fun more => .pure _

theorem carries_render (line : Line) :
    Carries (Shared done (reaching d (declaredBy line.pieces) ++ todo) d)
      (Shared (done ++ reaching d (declaredBy line.pieces)) todo d) line.render :=
  .bind (carries_renderPieces line.pieces) fun _ => .pure _

end Line

/-! ## Commands -/

namespace Machine

variable {done todo : List (Text × Kind)} {d : Nat} {P Q : Store → Store → Prop}

/-- Two machines with the same file. -/
def Alike (P : Store → Store → Prop) (m m' : Machine) : Prop :=
  P m.store m'.store ∧ m'.file = m.file

theorem carries_onStore {x : Store.Step α} (h : Carries P Q x) :
    Carries (Alike P) (Alike Q) (onStore x) := by
  rintro ⟨s, file⟩ ⟨s', file'⟩ a n ⟨hs, hfile⟩ hx
  rw [onStore] at hx
  cases hok : x s with
  | error e t => simp only [hok] at hx; cases hx
  | ok b t =>
    simp only [hok] at hx
    cases hx
    obtain ⟨t', hok', ht⟩ := h s s' a t hs hok
    exact ⟨⟨t', file'⟩, by simp only [onStore, hok'], ht, hfile⟩

theorem carries_onFile (x : CodeFile.Step α) : Carries (Alike P) (Alike P) (onFile x) := by
  rintro ⟨s, file⟩ ⟨s', file'⟩ a n ⟨hs, hfile⟩ hx
  obtain rfl : file' = file := hfile
  rw [onFile] at hx
  cases hok : x file' with
  | error e f => simp only [hok] at hx; cases hx
  | ok b f =>
    simp only [hok] at hx
    cases hx
    exact ⟨⟨s', f⟩, by simp only [onFile, hok], hs, rfl⟩

theorem carries_located {R S : Machine → Machine → Prop} {x : Step α} (template : Text) (line : Nat)
    (h : Carries R S x) : Carries R S (located template line x) := by
  intro m m' a n hm hx
  obtain ⟨n', hx', hn⟩ := h m m' a n hm (located_eq_ok_iff.1 hx)
  exact ⟨n', located_eq_ok_iff.2 hx', hn⟩

open Store (Shared reaching)

/-- A body in a frame of its own declares nothing globally. -/
theorem carries_inFrame {x : Step Unit}
    (h : Carries (Alike (Shared done todo (d + 1))) (Alike (Shared done todo (d + 1))) x) :
    Carries (Alike (Shared done todo d)) (Alike (Shared done todo d)) (inFrame x) := by
  intro m m' u n hm hx
  obtain ⟨k, hbody, hpop⟩ := inFrame_eq_ok_iff.1 hx
  obtain ⟨k', hbody', hk⟩ := h { m with store := m.store.push }
    { m' with store := m'.store.push } () k ⟨Store.shared_push hm.1, hm.2⟩ hbody
  obtain ⟨n', hpop', hn⟩ := carries_onStore Store.carries_pop k k' u n hk hpop
  exact ⟨n', inFrame_eq_ok_iff.2 ⟨k', hbody', hpop'⟩, hn⟩

theorem carries_condition (name : Text) :
    Carries (Shared done todo d) (Shared done todo d) (condition name) := by
  rw [condition_eq_lookUp]
  exact Store.carries_lookUp

/-- In a frame of their own, declarations stay local. -/
theorem carries_declare_local (name : Text) (kind : Kind) (value : Value) :
    Carries (Shared done todo (d + 1)) (Shared done todo (d + 1))
      (Store.declare name kind value) := by
  simpa using @Store.carries_declare done todo (d + 1) name kind value

theorem carries_bindColumn (count index : Nat) (column : Column) :
    Carries (Shared done todo (d + 1)) (Shared done todo (d + 1))
      (bindColumn count index column) := by
  refine .bind (carries_declare_local _ _ _) fun _ => ?_
  refine .bind (carries_declare_local _ _ _) fun _ => ?_
  refine .bind (carries_declare_local _ _ _) fun _ => ?_
  refine .bind (carries_declare_local _ _ _) fun _ => ?_
  refine .bind (carries_declare_local _ _ _) fun _ => ?_
  exact carries_declare_local _ _ _

theorem carries_overColumns {body : Step Unit} (count : Nat)
    (h : Carries (Alike (Shared done todo (d + 1))) (Alike (Shared done todo (d + 1))) body)
    (index : Nat) (columns : List Column) :
    Carries (Alike (Shared done todo d)) (Alike (Shared done todo d))
      (overColumns count body index columns) := by
  induction columns generalizing index with
  | nil => exact .pure _
  | cons column columns ih =>
    refine .bind (carries_inFrame ?_) fun _ => ih (index + 1)
    exact .bind (carries_onStore (carries_bindColumn count index column)) fun _ => h

end Machine

namespace Command

open Machine
open Store (Shared reaching)

variable {done todo : List (Text × Kind)} {d : Nat}

/-- What a command declares outside of all blocks. -/
def declared : Command → List (Text × Kind)
  | .emit _ content => Line.declaredBy content.pieces
  | _ => []

/-- What commands declare outside of all blocks, in order. -/
def declaredBy (commands : List Command) : List (Text × Kind) := commands.flatMap declared

mutual

/-- A command that succeeds does the same where more global variables are known. -/
theorem carries_run (template : Text) (table : Table) :
    ∀ (command : Command) (done todo : List (Text × Kind)) (d : Nat),
      Carries (Alike (Shared done (reaching d command.declared ++ todo) d))
        (Alike (Shared (done ++ reaching d command.declared) todo d)) (run template table command)
  | .blank line, done, todo, d => by
    simp only [declared, Store.reaching_nil, List.nil_append, List.append_nil]
    exact carries_located template line (carries_onFile _)
  | .emit line content, done, todo, d => by
    refine carries_located template line (.bind ?_ fun text => carries_onFile _)
    exact carries_onStore (Line.carries_render content)
  | .forEach line body, done, todo, d => by
    simp only [declared, Store.reaching_nil, List.nil_append, List.append_nil]
    refine carries_located template line (carries_overColumns _ ?_ 0 table.columns)
    simpa using carries_runAll template table body done todo (d + 1)
  | .cond line name negate body, done, todo, d => by
    simp only [declared, Store.reaching_nil, List.nil_append, List.append_nil]
    refine carries_located template line (.bind (carries_onStore (carries_condition name)) ?_)
    intro holds
    split
    · refine carries_inFrame ?_
      simpa using carries_runAll template table body done todo (d + 1)
    · exact .pure _

theorem carries_runAll (template : Text) (table : Table) :
    ∀ (commands : List Command) (done todo : List (Text × Kind)) (d : Nat),
      Carries (Alike (Shared done (reaching d (declaredBy commands) ++ todo) d))
        (Alike (Shared (done ++ reaching d (declaredBy commands)) todo d))
        (runAll template table commands)
  | [], done, todo, d => by
    simp only [declaredBy, List.flatMap_nil, Store.reaching_nil, List.nil_append, List.append_nil]
    exact .pure _
  | command :: commands, done, todo, d => by
    have hcons : declaredBy (command :: commands) = command.declared ++ declaredBy commands := rfl
    rw [hcons, Store.reaching_append, List.append_assoc, ← List.append_assoc done]
    exact .bind (carries_run template table command done _ d) fun _ =>
      carries_runAll template table commands _ todo d

end

end Command

/-! ## Tables -/

namespace Template

open Machine (Alike)
open Store (Shared)

variable {t : Template} {commands : List Command} {newFile : Text → Except Error CodeFile}

/-- What rendering a table declares globally, in order. -/
def declaredBy (commands : List Command) : List (Text × Kind) :=
  (tableName, .string) :: (columnCount, .int) :: Command.declaredBy commands

/-- The variables that describe a table are the first that it declares. -/
theorem carries_describe (table : Table) (done todo : List (Text × Kind)) :
    Carries (Shared done ((tableName, .string) :: (columnCount, .int) :: todo) 0)
      (Shared (done ++ [(tableName, .string), (columnCount, .int)]) todo 0) (describe table) := by
  rw [List.append_cons]
  exact .bind (Store.carries_declareGlobal _ _ _) fun _ => Store.carries_declareGlobal _ _ _

theorem carries_runTable (t : Template) (commands : List Command) (table : Table)
    (done : List (Text × Kind)) :
    Carries (Alike (Shared done (Command.declaredBy commands) 0))
      (Alike (Shared (done ++ Command.declaredBy commands) [] 0)) (t.runTable commands table) := by
  refine .bind ?_ fun _ => Machine.carries_onFile _
  simpa using Command.carries_runAll t.name table commands done [] 0

/-- A table that renders on a store renders in the same way where more global variables are
known. -/
theorem carries_renderTable (t : Template) (commands : List Command) (table : Table)
    (file : CodeFile) (done : List (Text × Kind)) :
    Carries (Shared done (declaredBy commands) 0) (Shared (done ++ declaredBy commands) [] 0)
      (t.renderTable commands table file) := by
  intro s s' rendered u hs h
  rcases Steps.ok_or_fails (describe table) s with ⟨_, s₁, hs₁⟩ | ⟨e, hfails⟩
  · obtain ⟨s₁', hs₁', hshared⟩ := carries_describe table done _ s s' () s₁ hs hs₁
    rw [renderTable_eq hs₁] at h
    split at h
    · next m hm =>
      cases h
      obtain ⟨m', hm', hstore, hfile⟩ := carries_runTable t commands table _ ⟨s₁, file⟩ ⟨s₁', file⟩
        () m ⟨hshared, rfl⟩ hm
      refine ⟨m'.store, ?_, ?_⟩
      · rw [renderTable_of_runTable hs₁' hm', hfile]
      · rwa [List.append_assoc] at hstore
    · cases h
  · exact absurd (fails_renderTable_of_describe hfails) (Steps.not_fails_of_ok h)

end Template

namespace Generator

open Store (Shared)

variable {g : Generator} {t : Template} {tables : List Table} {files : Table → List OutputFile}

theorem nameAll_append {a b : List RenderedFile} {x y : List OutputFile}
    (ha : g.nameAll a = .ok x) (hb : g.nameAll b = .ok y) : g.nameAll (a ++ b) = .ok (x ++ y) := by
  induction a generalizing x with
  | nil =>
    cases ha
    exact hb
  | cons file a ih =>
    obtain ⟨name, hname, ha⟩ := Steps.bind_eq_ok_iff.1 ha
    obtain ⟨rest, hrest, he⟩ := Steps.bind_eq_ok_iff.1 ha
    cases he
    exact Steps.bind_eq_ok_iff.2
      ⟨name, hname, Steps.bind_eq_ok_iff.2 ⟨rest ++ y, ih hrest, rfl⟩⟩

/-- The induction over the tables: what each leaves behind is what the next may find. -/
theorem renderTables_of_each {commands : List Command} {s : Store}
    (hs : Shared [] (Template.declaredBy commands) 0 Store.empty s)
    (h : ∀ table ∈ tables, ∃ rendered u,
      t.renderTables commands g.config.newFile [table] Store.empty = .ok rendered u ∧
        g.nameAll rendered = .ok (files table)) :
    ∃ rendered u, t.renderTables commands g.config.newFile tables s = .ok rendered u ∧
      g.nameAll rendered = .ok (tables.flatMap files) := by
  induction tables generalizing s with
  | nil => exact ⟨[], s, rfl, rfl⟩
  | cons table tables ih =>
    obtain ⟨single, u, hsingle, hname⟩ := h table List.mem_cons_self
    obtain ⟨file, rendered, v, _, hfile, hrendered, hnil, rfl⟩ :=
      Template.renderTables_cons_eq_ok_iff.1 hsingle
    cases hnil
    -- the empty store and the store of the earlier tables go through the same steps
    obtain ⟨v', hrendered', hv⟩ :=
      Template.carries_renderTable t commands table file [] _ s rendered u hs hrendered
    obtain ⟨more, w, hmore, hnames⟩ :=
      ih hv.restart fun table' hmem => h table' (List.mem_cons_of_mem table hmem)
    refine ⟨rendered :: more, w, ?_, nameAll_append hname hnames⟩
    exact Template.renderTables_cons_eq_ok_iff.2
      ⟨file, rendered, v', more, hfile, hrendered', hmore, rfl⟩

theorem generate_eq_ok_iff {all : List OutputFile} :
    g.generate t tables = .ok all ↔
      ∃ rendered u, t.render tables g.config.newFile Store.empty = .ok rendered u ∧
        g.nameAll rendered = .ok all := by
  rw [generate]
  cases t.render tables g.config.newFile Store.empty with
  | error e u => simp
  | ok rendered u =>
    constructor
    · intro h
      exact ⟨rendered, u, rfl, h⟩
    · rintro ⟨_, _, he, h⟩
      cases he
      exact h

theorem generate_of_static (h : t.isDynamic = false) (tables : List Table) :
    g.generate t tables = g.nameAll [t.copy] := by
  simp only [generate, Template.render, Template.compile, h, Bool.false_eq_true, if_false]

theorem generate_of_dynamic (h : t.isDynamic = true) (hne : tables ≠ [])
    (heach : ∀ table ∈ tables, g.generate t [table] = .ok (files table)) :
    g.generate t tables = .ok (tables.flatMap files) := by
  have hrender : ∀ ts, t.render ts g.config.newFile Store.empty =
      match Command.compile t.name t.lines with
      | .error e => .error e Store.empty
      | .ok commands => t.renderTables commands g.config.newFile ts Store.empty := by
    intro ts
    simp only [Template.render, Template.compile, h, if_true]
    cases Command.compile t.name t.lines <;> rfl
  cases hcompile : Command.compile t.name t.lines with
  | error e =>
    obtain ⟨table, hmem⟩ := List.exists_mem_of_ne_nil tables hne
    obtain ⟨rendered, u, hok, -⟩ := generate_eq_ok_iff.1 (heach table hmem)
    rw [hrender, hcompile] at hok
    cases hok
  | ok commands =>
    have hstart : Shared [] (Template.declaredBy commands) 0 Store.empty Store.empty :=
      ⟨rfl, rfl, fun _ _ hv => hv, fun _ => rfl, fun _ _ hk => by cases hk⟩
    refine generate_eq_ok_iff.2 ?_
    simp only [hrender, hcompile]
    refine renderTables_of_each hstart fun table hmem => ?_
    obtain ⟨rendered, u, hok, hname⟩ := generate_eq_ok_iff.1 (heach table hmem)
    rw [hrender, hcompile] at hok
    exact ⟨rendered, u, hok, hname⟩

/-- **Earlier tables do not change later ones.** Where each table of a list can be
generated alone, the list can be generated on one store: a template with markers makes the
files of the single tables one after the other, and one without makes its copy. -/
theorem generate_of_each (g : Generator) (t : Template) (tables : List Table)
    (files : Table → List OutputFile) (hne : tables ≠ [])
    (heach : ∀ table ∈ tables, g.generate t [table] = .ok (files table)) :
    ∃ all, g.generate t tables = .ok all ∧
      (t.isDynamic = true → all = tables.flatMap files) ∧
      (t.isDynamic = false → ∀ table ∈ tables, all = files table) := by
  cases hdynamic : t.isDynamic with
  | true =>
    refine ⟨tables.flatMap files, generate_of_dynamic hdynamic hne heach, fun _ => rfl, ?_⟩
    intro h
    cases h
  | false =>
    obtain ⟨table, hmem⟩ := List.exists_mem_of_ne_nil tables hne
    have hcopy : ∀ table ∈ tables, g.nameAll [t.copy] = .ok (files table) := by
      intro table hmem
      rw [← generate_of_static hdynamic [table], heach table hmem]
    refine ⟨files table, ?_, ?_, ?_⟩
    · rw [generate_of_static hdynamic, hcopy table hmem]
    · intro h
      cases h
    · intro _ table' hmem'
      exact Except.ok.inj ((hcopy table hmem).symm.trans (hcopy table' hmem'))

/-- Files named by their tables and file types. -/
def byTable : Generator where
  config := ⟨"info".toList, ['.'], .overwrite, Config.defaultFileName, Config.builtinTypes⟩
  pattern := [.value ["table".toList], .literal ['.'], .value ["extension".toList]]

/-- A template that counts the columns of a table in a global variable. -/
def counting : Template :=
  ⟨"Count".toList, "cs".toList, ["!@int n@!".toList, "!@foreach column@!".toList,
    "!@n++@!".toList, "!@end foreach@!".toList, "!@n@!".toList]⟩

/-- A table with a column for each name. -/
def tableOf (name : Text) (columns : List Text) : Table :=
  ⟨name, columns.map fun column => ⟨column, "int".toList, false, false⟩⟩

/-- The file with the number of the columns. -/
def counted (table : Table) : List OutputFile :=
  [⟨table.name ++ ".cs".toList, Number.integerText table.columns.length ++ ['\n']⟩]

/-- The count starts again for the second table, which finds the first count in the store. -/
theorem generate_counting :
    byTable.generate counting [tableOf ['A'] [['x'], ['y']], tableOf ['B'] [['z']]] =
      .ok [⟨"A.cs".toList, "2\n".toList⟩, ⟨"B.cs".toList, "1\n".toList⟩] := by
  obtain ⟨all, hall, hdynamic, -⟩ := generate_of_each byTable counting
    [tableOf ['A'] [['x'], ['y']], tableOf ['B'] [['z']]] counted (by decide)
    (List.forall_mem_cons.2 ⟨Steps.toOption_eq_some_iff.1 (by decide +kernel),
      List.forall_mem_singleton.2 (Steps.toOption_eq_some_iff.1 (by decide +kernel))⟩)
  rw [hall, hdynamic (by decide +kernel)]
  exact congrArg Except.ok (by decide +kernel)

end Generator

end Stencil
