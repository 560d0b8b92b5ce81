import Mathlib.Tactic.Choose
import Stencil.Proofs.Prediction
import Stencil.Proofs.Slots

/-!
# What a table owes to earlier tables

A table that is rendered behind others can fail alone, for it may read a global variable
before it declares it: behind other tables the variable is there. No other difference
shows. Alone, the table makes the file that it makes behind the others, or it fails with an
unknown variable that the earlier tables left in the store.

Each step runs on two stores again, and its failure on the smaller one is traced.

## Main definitions

* `Store.Awaited`: the names that only the larger store can have.
* `Template.LeavesBehind`: the global variables that tables leave.
-/
namespace Stencil

open Steps (Carries Fails FailsAlike)

variable {α : Type}

/-- An error that says that one of some names is unknown, at a line or not. -/
def Error.Misses (L : Text → Prop) (e : Error) : Prop :=
  ∃ n, L n ∧ (e = .unknownVariable n ∨ ∃ t l, e = .located t l (.unknownVariable n))

namespace Error.Misses

variable {L L' : Text → Prop} {e : Error}

theorem mono (h : e.Misses L) (hL : ∀ n, L n → L' n) : e.Misses L' := by
  obtain ⟨n, hn, he⟩ := h
  exact ⟨n, hL n hn, he⟩

theorem locate (h : e.Misses L) (template : Text) (line : Nat) :
    (e.locate template line).Misses L := by
  obtain ⟨n, hn, rfl | ⟨t, l, rfl⟩⟩ := h
  · exact ⟨n, hn, .inr ⟨template, line, rfl⟩⟩
  · exact ⟨n, hn, .inr ⟨t, l, rfl⟩⟩

end Error.Misses

/-! ## Steps on two stores -/

namespace Store

/-- A name that is not declared yet, and is to be declared. -/
def Awaited (done todo : List (Text × Kind)) (n : Text) : Prop :=
  done.lookup n = none ∧ todo.lookup n ≠ none

variable {done todo ds : List (Text × Kind)} {d : Nat} {s s' : Store} {name n : Text} {kind : Kind}
  {value : Value}

/-- What is awaited behind some declarations is awaited before them. -/
theorem Awaited.before (h : Awaited (done ++ ds) todo n) : Awaited done (ds ++ todo) n := by
  obtain ⟨hdone, htodo⟩ := h
  rw [List.lookup_append, Option.or_eq_none_iff] at hdone
  refine ⟨hdone.1, ?_⟩
  rwa [List.lookup_append, hdone.2, Option.none_or]

theorem Awaited.declared (h : Awaited done todo n) : (done ++ todo).lookup n ≠ none := by
  rw [List.lookup_append, h.1, Option.none_or]
  exact h.2

/-- Only an awaited name can be known to one store alone. -/
theorem Shared.awaited (h : Shared done todo d s s') (hs : s.get? n = none)
    (hs' : s'.get? n ≠ none) : Awaited done todo n := by
  rw [Store.get?, Option.or_eq_none_iff] at hs
  rw [Store.get?, h.locals, hs.1, Option.none_or, ne_eq, ← Frame.kind?_eq_none_iff] at hs'
  obtain ⟨k, hk⟩ := Option.ne_none_iff_exists'.1 hs'
  have hdone : done.lookup n = none := by
    rw [← h.known]
    exact Frame.kind?_eq_none_iff.2 hs.2
  have hlookup := h.fits n k hk
  rw [List.lookup_append, hdone, Option.none_or] at hlookup
  exact ⟨hdone, by simp [hlookup]⟩

/-- Where a name is unknown to the smaller store, it is unknown to both or awaited. -/
theorem Shared.unknown (h : Shared done todo d s s') (hs : s.get? n = none) :
    s'.get? n = none ∨ (Error.unknownVariable n).Misses (Awaited done todo) := by
  by_cases hs' : s'.get? n = none
  · exact .inl hs'
  · exact .inr ⟨n, h.awaited hs hs', .inl rfl⟩

theorem fails_lookUp_iff {f : Value → Except Error α} {e : Error} :
    Fails (lookUp name f) s e ↔
      (s.get? name = none ∧ e = .unknownVariable name) ∨
        ∃ v, s.get? name = some v ∧ f v.value = .error e := by
  rw [Fails, lookUp, value?]
  cases s.get? name with
  | none => simp [eq_comm]
  | some v => cases h : f v.value <;> simp [h]

theorem failsAlike_lookUp {f : Value → Except Error α} :
    FailsAlike (Error.Misses (Awaited done todo)) (Shared done todo d) (lookUp name f) := by
  intro s s' e hs h
  rcases fails_lookUp_iff.1 h with ⟨hnone, rfl⟩ | ⟨v, hv, hf⟩
  · refine (hs.unknown hnone).imp_left fun hnone' => ?_
    exact ⟨_, fails_lookUp_iff.2 (.inl ⟨hnone', rfl⟩)⟩
  · exact .inl ⟨e, fails_lookUp_iff.2 (.inr ⟨v, hs.get? hv, hf⟩)⟩

theorem assign_of_unknown (h : s.get? name = none) :
    assign name value s = .error (.unknownVariable name) s := by
  rw [get?, Option.or_eq_none_iff] at h
  have hlocals : assignIn? name value s.locals = none :=
    assignIn?_eq_none_iff.2 (List.findSome?_eq_none_iff.1 h.1)
  simp only [assign, hlocals, assignGlobal, Frame.assign?_eq_none_iff.2 h.2]

/-- What cannot be assigned is unknown, or of another kind in both stores. -/
theorem failsAlike_assign (name : Text) (value : Value) :
    FailsAlike (Error.Misses (Awaited done todo)) (Shared done todo d) (assign name value) := by
  intro s s' e hs h
  cases hget : s.get? name with
  | none =>
    obtain rfl := h.unique ⟨s, assign_of_unknown hget⟩
    refine (hs.unknown hget).imp_left fun hnone' => ?_
    exact ⟨_, s', assign_of_unknown hnone'⟩
  | some v =>
    refine .inl (Steps.exists_fails_of_fails ?_ h)
    intro u t' hok
    obtain ⟨v', hv', hkind⟩ := exists_assign_iff.1 ⟨t', hok⟩
    obtain rfl : v = v' := Option.some.inj ((hs.get? hget).symm.trans hv')
    obtain ⟨t, ht⟩ := exists_assign_iff.2 ⟨v, hget, hkind⟩
    exact ⟨(), t, ht⟩

theorem failsAlike_declareGlobal {E : Error → Prop} (name : Text) (kind : Kind) (value : Value) :
    FailsAlike E (Shared done ((name, kind) :: todo) d) (declareGlobal name kind value) := by
  intro s s' e hs h
  refine .inl (Steps.exists_fails_of_fails ?_ h)
  intro u t' hok
  rcases declareGlobal_cases name kind value s' with ⟨e', he'⟩ | ⟨g', hg', -⟩
  · rw [he'] at hok
    cases hok
  · have hkind := Frame.exists_declare_iff.1 ⟨g', hg'⟩
    rw [hs.getD_kind] at hkind
    obtain ⟨g, hg⟩ := Frame.exists_declare_iff.2 hkind
    exact ⟨(), { s with global := g }, by simp only [declareGlobal, hg]⟩

theorem failsAlike_declare {E : Error → Prop} (name : Text) (kind : Kind) (value : Value) :
    FailsAlike E (Shared done (reaching d [(name, kind)] ++ todo) d) (declare name kind value) := by
  intro s s' e hs h
  obtain ⟨locals, global⟩ := s
  obtain ⟨locals', global'⟩ := s'
  obtain rfl : locals' = locals := hs.locals
  cases locals' with
  | nil =>
    obtain rfl : 0 = d := hs.depth
    exact failsAlike_declareGlobal name kind value _ _ e hs h
  | cons f fs =>
    -- both stores declare in the same local frame
    rw [Fails, declare] at h
    cases hf : f.declare name kind value with
    | ok g => simp only [hf] at h; obtain ⟨t, ht⟩ := h; cases ht
    | error e' => exact .inl ⟨e', ⟨f :: fs, global'⟩, by simp only [declare, hf]⟩

end Store

/-! ## Expressions and lines -/

namespace Expression

open Store (Shared Awaited reaching)

variable {done todo : List (Text × Kind)} {d : Nat}

theorem failsAlike_resolve (p : Param) :
    FailsAlike (Error.Misses (Awaited done todo)) (Shared done todo d) (resolve p) := by
  match p with
  | .literal v => exact .pure v
  | .variable name =>
    rw [resolve_variable]
    exact Store.failsAlike_lookUp

theorem failsAlike_move {E : Error → Prop} {P : Store → Store → Prop} (name : Text)
    (n delta : Int) : FailsAlike E P (move name n delta) := by
  rintro s s' e - ⟨t, h⟩
  rw [move] at h
  split at h
  · cases h
  · next hrange => exact .inl ⟨_, s', if_neg hrange⟩

theorem failsAlike_eval (e : Expression) :
    FailsAlike (Error.Misses (Awaited done (reaching d e.declaredBy ++ todo)))
      (Shared done (reaching d e.declaredBy ++ todo) d) e.eval := by
  cases e with
  | declare kind name init =>
    cases init with
    | none =>
      exact .bind (Store.carries_declare name kind _) (Store.failsAlike_declare name kind _)
        fun _ => .pure _
    | some p =>
      refine .bind (carries_resolve p) (failsAlike_resolve p) fun value => ?_
      exact .bind (Store.carries_declare name kind value) (Store.failsAlike_declare name kind value)
        fun _ => .pure _
  | assign name p =>
    refine .bind (carries_resolve p) (failsAlike_resolve p) fun value => ?_
    exact .bind (Store.carries_assign name value) (Store.failsAlike_assign name value)
      fun _ => .pure _
  | step name delta =>
    refine .bind (carries_intOf name) ?_ fun n => ?_
    · rw [intOf_eq_lookUp]
      exact Store.failsAlike_lookUp
    · refine .bind (carries_move name n delta) (failsAlike_move name n delta) fun next => ?_
      exact .bind (Store.carries_assign name _) (Store.failsAlike_assign name _) fun _ => .pure _
  | literal text => exact .pure _
  | read name =>
    rw [eval_read]
    exact Store.failsAlike_lookUp

end Expression

namespace Line

open Store (Shared Awaited reaching)

variable {done todo : List (Text × Kind)} {d : Nat}

theorem failsAlike_renderPieces (ps : List Piece) :
    FailsAlike (Error.Misses (Awaited done (reaching d (declaredBy ps) ++ todo)))
      (Shared done (reaching d (declaredBy ps) ++ todo) d) (renderPieces ps) := by
  induction ps generalizing done with
  | nil => exact .pure _
  | cons p ps ih =>
    cases p with
    | fixed text =>
      refine .bind (.pure text) (.pure text) fun _ => ?_
      exact .bind (carries_renderPieces ps) ih fun _ => .pure _
    | dynamic e =>
      simp only [declaredBy, Store.reaching_append, List.append_assoc]
      refine .bind (Expression.carries_eval e) (Expression.failsAlike_eval e) fun text => ?_
      rw [← List.append_assoc]
      refine .bind (carries_renderPieces ps) (ih.mono fun e' he' => ?_) fun more => .pure _
      exact he'.mono fun n hn => by simpa only [List.append_assoc] using hn.before

theorem failsAlike_render (line : Line) :
    FailsAlike (Error.Misses (Awaited done (reaching d (declaredBy line.pieces) ++ todo)))
      (Shared done (reaching d (declaredBy line.pieces) ++ todo) d) line.render :=
  .bind (carries_renderPieces line.pieces) (failsAlike_renderPieces line.pieces) fun _ => .pure _

end Line

/-! ## Commands -/

namespace Machine

open Store (Shared Awaited)

variable {done todo : List (Text × Kind)} {d : Nat} {E : Error → Prop} {P : Store → Store → Prop}
  {R : Machine → Machine → Prop}

theorem failsAlike_onStore {x : Store.Step α} (h : FailsAlike E P x) :
    FailsAlike E (Alike P) (onStore x) := by
  intro m m' e hm hx
  refine (h m.store m'.store e hm.1 (fails_onStore_iff.1 hx)).imp_left ?_
  rintro ⟨e', he'⟩
  exact ⟨e', fails_onStore_iff.2 he'⟩

/-- Both machines have the same file. -/
theorem failsAlike_onFile (x : CodeFile.Step α) : FailsAlike E (Alike P) (onFile x) := by
  intro m m' e hm hx
  refine .inl ⟨e, fails_onFile_iff.2 ?_⟩
  rw [hm.2]
  exact fails_onFile_iff.1 hx

theorem failsAlike_located {L : Text → Prop} {x : Step α} (template : Text) (line : Nat)
    (h : FailsAlike (Error.Misses L) R x) :
    FailsAlike (Error.Misses L) R (located template line x) := by
  intro m m' e hm hx
  obtain ⟨cause, hcause, rfl⟩ := fails_located_iff.1 hx
  refine (h m m' cause hm hcause).imp ?_ fun hmisses => hmisses.locate template line
  rintro ⟨e', he'⟩
  exact ⟨_, fails_located_iff.2 ⟨e', he', rfl⟩⟩

theorem failsAlike_inFrame {x : Step Unit} (hkeeps : Steps.Within (Around Store.innermost) x)
    (h : FailsAlike E (Alike (Shared done todo (d + 1))) x) :
    FailsAlike E (Alike (Shared done todo d)) (inFrame x) := by
  intro m m' e hm hx
  have henter : Alike (Shared done todo (d + 1)) m.enter m'.enter :=
    ⟨Store.shared_push hm.1, hm.2⟩
  refine (h _ _ e henter ((fails_inFrame_iff hkeeps).1 hx)).imp_left ?_
  rintro ⟨e', he'⟩
  exact ⟨e', (fails_inFrame_iff hkeeps).2 he'⟩

theorem failsAlike_condition (name : Text) :
    FailsAlike (Error.Misses (Awaited done todo)) (Shared done todo d) (condition name) := by
  rw [condition_eq_lookUp]
  exact Store.failsAlike_lookUp

/-- In a new frame the variables of a column can be declared on both machines. -/
theorem failsAlike_overColumns {body : Step Unit} (count : Nat)
    (hkeeps : Steps.Within (Around Store.innermost) body)
    (hcarries : Carries (Alike (Shared done todo (d + 1))) (Alike (Shared done todo (d + 1))) body)
    (h : FailsAlike E (Alike (Shared done todo (d + 1))) body) (index : Nat)
    (columns : List Column) :
    FailsAlike E (Alike (Shared done todo d)) (overColumns count body index columns) := by
  induction columns generalizing index with
  | nil => exact .pure _
  | cons column columns ih =>
    have hbind := carries_onStore (@carries_bindColumn done todo d count index column)
    refine .bind (carries_inFrame (.bind hbind fun _ => hcarries)) ?_ fun _ => ih (index + 1)
    intro m m' e hm hx
    have henter : Alike (Shared done todo (d + 1)) m.enter m'.enter :=
      ⟨Store.shared_push hm.1, hm.2⟩
    obtain ⟨n', hn', hn⟩ := hbind _ _ _ _ henter (onStore_bindColumn count index column m)
    rw [onStore_bindColumn] at hn'
    cases hn'
    refine (h _ _ e hn ((fails_forColumn_iff hkeeps).1 hx)).imp_left ?_
    rintro ⟨e', he'⟩
    exact ⟨e', (fails_forColumn_iff hkeeps).2 he'⟩

end Machine

namespace Command

open Machine
open Store (Shared Awaited reaching)

mutual

/-- A command that fails fails where more global variables are known too, or it misses one
of them. -/
theorem failsAlike_run (template : Text) (table : Table) :
    ∀ (command : Command) (done todo : List (Text × Kind)) (d : Nat),
      FailsAlike (Error.Misses (Awaited done (reaching d command.declared ++ todo)))
        (Alike (Shared done (reaching d command.declared ++ todo) d)) (run template table command)
  | .blank line, done, todo, d => failsAlike_located template line (failsAlike_onFile _)
  | .emit line content, done, todo, d => by
    refine failsAlike_located template line (.bind (carries_onStore (Line.carries_render content))
      (failsAlike_onStore (Line.failsAlike_render content)) fun text => failsAlike_onFile _)
  | .forEach line body, done, todo, d => by
    simp only [declared, Store.reaching_nil, List.nil_append]
    refine failsAlike_located template line (failsAlike_overColumns _ ?_ ?_ ?_ 0 table.columns)
    · exact within_runAll template table body
    · simpa using carries_runAll template table body done todo (d + 1)
    · simpa using failsAlike_runAll template table body done todo (d + 1)
  | .cond line name negate body, done, todo, d => by
    simp only [declared, Store.reaching_nil, List.nil_append]
    refine failsAlike_located template line (.bind (carries_onStore (carries_condition name))
      (failsAlike_onStore (failsAlike_condition name)) fun holds => ?_)
    split
    · refine failsAlike_inFrame (within_runAll template table body) ?_
      simpa using failsAlike_runAll template table body done todo (d + 1)
    · exact .pure _

theorem failsAlike_runAll (template : Text) (table : Table) :
    ∀ (commands : List Command) (done todo : List (Text × Kind)) (d : Nat),
      FailsAlike (Error.Misses (Awaited done (reaching d (declaredBy commands) ++ todo)))
        (Alike (Shared done (reaching d (declaredBy commands) ++ todo) d))
        (runAll template table commands)
  | [], done, todo, d => .pure _
  | command :: commands, done, todo, d => by
    have hcons : declaredBy (command :: commands) = command.declared ++ declaredBy commands := rfl
    rw [hcons, Store.reaching_append, List.append_assoc]
    refine .bind (carries_run template table command done _ d)
      (failsAlike_run template table command done _ d) fun _ => ?_
    refine (failsAlike_runAll template table commands _ todo d).mono fun e he => ?_
    exact he.mono fun n hn => hn.before

end

end Command

/-! ## Tables -/

namespace Template

open Store (Shared Awaited)

variable {t : Template} {commands : List Command} {newFile : Text → Except Error CodeFile}
  {table : Table} {tables before behind : List Table} {file : CodeFile} {s v u : Store}

/-- Tables that render leave a global variable, which none of the two is that describe a
table. -/
def LeavesBehind (t : Template) (newFile : Text → Except Error CodeFile) (tables : List Table)
    (name : Text) : Prop :=
  name ≠ tableName ∧ name ≠ columnCount ∧
    ∃ files u x, t.render tables newFile Store.empty = .ok files u ∧
      u.getGlobal? name = some x

theorem renderTables_append_eq_ok_iff {files : List RenderedFile} :
    t.renderTables commands newFile (before ++ behind) s = .ok files u ↔
      ∃ first v more, t.renderTables commands newFile before s = .ok first v ∧
        t.renderTables commands newFile behind v = .ok more u ∧ first ++ more = files := by
  induction before generalizing s files with
  | nil =>
    constructor
    · intro h
      exact ⟨[], s, files, rfl, h, rfl⟩
    · rintro ⟨first, v, more, hfirst, hmore, rfl⟩
      cases hfirst
      exact hmore
  | cons table before ih =>
    rw [List.cons_append, renderTables_cons_eq_ok_iff]
    constructor
    · rintro ⟨file, rendered, v, rest, hfile, hrendered, hrest, rfl⟩
      obtain ⟨first, w, more, hfirst, hmore, rfl⟩ := ih.1 hrest
      exact ⟨rendered :: first, w, more, renderTables_cons_eq_ok_iff.2
        ⟨file, rendered, v, first, hfile, hrendered, hfirst, rfl⟩, hmore, rfl⟩
    · rintro ⟨first, w, more, hfirst, hmore, rfl⟩
      obtain ⟨file, rendered, v, rest, hfile, hrendered, hrest, rfl⟩ :=
        renderTables_cons_eq_ok_iff.1 hfirst
      exact ⟨file, rendered, v, rest ++ more, hfile, hrendered,
        ih.2 ⟨rest, w, more, hrest, hmore, rfl⟩, rfl⟩

theorem length_of_renderTables {files : List RenderedFile}
    (h : t.renderTables commands newFile tables s = .ok files u) :
    files.length = tables.length := by
  induction tables generalizing s files with
  | nil =>
    cases h
    rfl
  | cons table tables ih =>
    obtain ⟨file, rendered, v, more, -, -, hmore, rfl⟩ := renderTables_cons_eq_ok_iff.1 h
    rw [List.length_cons, List.length_cons, ih hmore]

/-- A store with the global variables of some declarations and no others, each of the kind that
it is first declared with. -/
def Declares (ds : List (Text × Kind)) (s : Store) : Prop := Shared ds [] 0 s s

theorem shared_empty (todo : List (Text × Kind)) : Shared [] todo 0 Store.empty Store.empty :=
  ⟨rfl, rfl, fun _ _ hv => hv, fun _ => rfl, fun _ _ hk => by cases hk⟩

/-- Behind a table all declarations of the template are made. -/
theorem declares_of_renderTable {rendered : RenderedFile}
    (hs : s = Store.empty ∨ Declares (declaredBy commands) s)
    (h : t.renderTable commands table file s = .ok rendered u) :
    Declares (declaredBy commands) u := by
  rcases hs with rfl | hs
  · obtain ⟨u', hu', hshared⟩ :=
      carries_renderTable t commands table file [] _ _ _ _ (shared_empty _) h
    cases h.symm.trans hu'
    exact hshared
  · -- the declarations are made again, and change no kind
    have hagain : Shared (declaredBy commands) (declaredBy commands) 0 s s := by
      refine ⟨hs.depth, rfl, hs.global, hs.known, fun n k hk => ?_⟩
      rw [List.lookup_append, ← hs.known, hk, Option.some_or]
    obtain ⟨u', hu', hshared⟩ := carries_renderTable t commands table file _ _ _ _ _ hagain h
    cases h.symm.trans hu'
    have hknown : ∀ n, u.global.kind? n = (declaredBy commands).lookup n := by
      intro n
      rw [hshared.known, List.lookup_append, Option.or_self]
    refine ⟨hshared.depth, rfl, hshared.global, hknown, fun n k hk => ?_⟩
    rw [List.append_nil, ← hknown, hk]

theorem declares_of_renderTables {files : List RenderedFile}
    (hs : s = Store.empty ∨ Declares (declaredBy commands) s)
    (h : t.renderTables commands newFile tables s = .ok files u) :
    (tables = [] ∧ u = s) ∨ Declares (declaredBy commands) u := by
  induction tables generalizing s files with
  | nil =>
    cases h
    exact .inl ⟨rfl, rfl⟩
  | cons table tables ih =>
    obtain ⟨file, rendered, v, more, -, hrendered, hmore, -⟩ := renderTables_cons_eq_ok_iff.1 h
    have hv := declares_of_renderTable hs hrendered
    rcases ih (.inr hv) hmore with ⟨-, rfl⟩ | hu
    · exact .inr hv
    · exact .inr hu

/-- The next table may find what tables left, and nothing else. -/
theorem shared_of_renderTables {files : List RenderedFile}
    (h : t.renderTables commands newFile tables Store.empty = .ok files v) :
    Shared [] (declaredBy commands) 0 Store.empty v := by
  rcases declares_of_renderTables (.inl rfl) h with ⟨-, rfl⟩ | hv
  · exact shared_empty _
  · exact hv.restart

theorem failsAlike_runTable (t : Template) (commands : List Command) (table : Table)
    (done : List (Text × Kind)) :
    FailsAlike (Error.Misses (Awaited done (Command.declaredBy commands)))
      (Machine.Alike (Shared done (Command.declaredBy commands) 0))
      (t.runTable commands table) := by
  have hcarries := Command.carries_runAll t.name table commands done [] 0
  have halike := Command.failsAlike_runAll t.name table commands done [] 0
  rw [Store.reaching_zero, List.append_nil] at hcarries halike
  exact .bind hcarries halike fun _ => Machine.failsAlike_onFile _

/-- What fails in a table and is missed there points at a line. -/
theorem line_of_misses {L : Text → Prop} {e : Error} {m : Machine}
    (hcompile : Command.compile t.name t.lines = .ok commands)
    (h : Fails (t.runTable commands table) m e) (he : e.Misses L) :
    ∃ line name, L name ∧ 1 ≤ line ∧ line ≤ t.lines.length ∧
      e = .located t.name line (.unknownVariable name) := by
  obtain ⟨tr, hreads, rfl⟩ := BlockTree.exists_reads_of_compile hcompile
  rcases fails_runTable_iff.1 h with htraced | ⟨o, -, hfinish⟩
  · obtain ⟨line, cause, hfirst, hlast, -, rfl⟩ := pointsAtLine_of_traced hreads htraced
    obtain ⟨name, hname, hraw | ⟨_, _, hlocated⟩⟩ := he
    · cases hraw
    · cases hlocated
      exact ⟨line, name, hname, hfirst, hlast, rfl⟩
  · have hunderflow := CodeFile.raises_finish _ _ hfinish
    obtain ⟨name, -, rfl | ⟨_, _, rfl⟩⟩ := he <;> cases hunderflow

/-- A table that renders behind others renders alone, or it misses what they left. -/
theorem renderTable_alone {first : List RenderedFile} {rendered : RenderedFile}
    (hcompile : Command.compile t.name t.lines = .ok commands)
    (hbefore : t.renderTables commands newFile before Store.empty = .ok first v)
    (h : t.renderTable commands table file v = .ok rendered u) :
    (∃ w, t.renderTable commands table file Store.empty = .ok rendered w) ∨
      ∃ line name, Fails (t.renderTable commands table file) Store.empty
          (.located t.name line (.unknownVariable name)) ∧
        1 ≤ line ∧ line ≤ t.lines.length ∧ name ≠ tableName ∧ name ≠ columnCount ∧
          ∃ x, v.getGlobal? name = some x := by
  have hshared := shared_of_renderTables hbefore
  rcases Steps.ok_or_fails (t.renderTable commands table file) Store.empty with
    ⟨alone, w, halone⟩ | ⟨e, hfails⟩
  · obtain ⟨u', hu', -⟩ := carries_renderTable t commands table file [] _ _ _ _ hshared halone
    cases h.symm.trans hu'
    exact .inl ⟨w, halone⟩
  · have hrun := (fails_renderTable_iff (describe_empty table)).1 hfails
    obtain ⟨v₁, hv₁, hshared₁⟩ :=
      carries_describe table [] _ _ _ () _ hshared (describe_empty table)
    have hboth := failsAlike_runTable t commands table _ ⟨tableStore table, file⟩ ⟨v₁, file⟩ e
      ⟨hshared₁, rfl⟩ hrun
    rcases hboth with ⟨e', he'⟩ | hmisses
    · exact absurd ((fails_renderTable_iff hv₁).2 he') (Steps.not_fails_of_ok h)
    · obtain ⟨line, name, ⟨hdone, htodo⟩, hfirst, hlast, rfl⟩ :=
        line_of_misses hcompile hrun hmisses
      refine .inr ⟨line, name, hfails, hfirst, hlast, ?_, ?_, ?_⟩
      · rintro rfl
        cases hdone
      · rintro rfl
        cases hdone
      · rcases declares_of_renderTables (.inl rfl) hbefore with ⟨-, rfl⟩ | hv
        · exact absurd hfails (Steps.not_fails_of_ok h)
        · have hkind : v.global.kind? name ≠ none := by
            rw [hv.known]
            exact Awaited.declared ⟨hdone, htodo⟩
          exact Option.ne_none_iff_exists'.1 fun hnone => hkind (Frame.kind?_eq_none_iff.2 hnone)

end Template

namespace Generator

variable {g : Generator} {t : Template} {table : Table} {tables before behind : List Table}
  {files : List OutputFile}

theorem nameAll_append_eq_ok_iff {a b : List RenderedFile} :
    g.nameAll (a ++ b) = .ok files ↔
      ∃ x y, g.nameAll a = .ok x ∧ g.nameAll b = .ok y ∧ x ++ y = files := by
  constructor
  · intro h
    induction a generalizing files with
    | nil => exact ⟨[], files, rfl, h, rfl⟩
    | cons file a ih =>
      obtain ⟨name, hname, h⟩ := Steps.bind_eq_ok_iff.1 h
      obtain ⟨rest, hrest, he⟩ := Steps.bind_eq_ok_iff.1 h
      cases he
      obtain ⟨x, y, hx, hy, rfl⟩ := ih hrest
      refine ⟨⟨name, file.contents⟩ :: x, y, ?_, hy, rfl⟩
      exact Steps.bind_eq_ok_iff.2 ⟨name, hname, Steps.bind_eq_ok_iff.2 ⟨x, hx, rfl⟩⟩
  · rintro ⟨x, y, hx, hy, rfl⟩
    exact nameAll_append hx hy

theorem length_of_nameAll {a : List RenderedFile} (h : g.nameAll a = .ok files) :
    files.length = a.length := by
  induction a generalizing files with
  | nil =>
    cases h
    rfl
  | cons file a ih =>
    obtain ⟨name, -, h⟩ := Steps.bind_eq_ok_iff.1 h
    obtain ⟨rest, hrest, he⟩ := Steps.bind_eq_ok_iff.1 h
    cases he
    rw [List.length_cons, List.length_cons, ih hrest]

/-- A template with markers is compiled, rendered for the tables, and its files are named. -/
theorem generate_dynamic_eq_ok_iff (hdynamic : t.isDynamic = true) :
    g.generate t tables = .ok files ↔
      ∃ commands rendered u, Command.compile t.name t.lines = .ok commands ∧
        t.renderTables commands g.config.newFile tables Store.empty = .ok rendered u ∧
          g.nameAll rendered = .ok files := by
  rw [generate_eq_ok_iff]
  constructor
  · rintro ⟨rendered, u, hrender, hname⟩
    cases hcompile : Command.compile t.name t.lines with
    | error e =>
      simp only [Template.render, Template.compile, hdynamic, if_true, hcompile] at hrender
      cases hrender
    | ok commands =>
      rw [Template.render_of_compile hdynamic hcompile] at hrender
      exact ⟨commands, rendered, u, rfl, hrender, hname⟩
  · rintro ⟨commands, rendered, u, hcompile, hrender, hname⟩
    rw [← Template.render_of_compile hdynamic hcompile] at hrender
    exact ⟨rendered, u, hrender, hname⟩

/-- The first tables of a list make the first of its files. -/
theorem generate_before (h : g.generate t (before ++ behind) = .ok files) :
    ∃ first, g.generate t before = .ok first ∧ first <+: files := by
  cases hdynamic : t.isDynamic with
  | false =>
    rw [generate_of_static hdynamic] at h ⊢
    exact ⟨files, h, List.prefix_rfl⟩
  | true =>
    obtain ⟨commands, rendered, u, hcompile, hrender, hname⟩ :=
      (generate_dynamic_eq_ok_iff hdynamic).1 h
    obtain ⟨first, v, more, hfirst, -, rfl⟩ :=
      Template.renderTables_append_eq_ok_iff.1 hrender
    obtain ⟨x, y, hx, -, rfl⟩ := nameAll_append_eq_ok_iff.1 hname
    exact ⟨x, (generate_dynamic_eq_ok_iff hdynamic).2 ⟨commands, first, v, hcompile, hfirst, hx⟩,
      List.prefix_append x y⟩

/-- A table of a list makes its file alone, or it misses what the tables before it left. -/
theorem generate_table (hdynamic : t.isDynamic = true)
    (h : g.generate t (before ++ table :: behind) = .ok files) :
    (∃ file, g.generate t [table] = .ok [file] ∧ files[before.length]? = some file) ∨
      ∃ line name, g.generate t [table] = .error (.located t.name line (.unknownVariable name)) ∧
        1 ≤ line ∧ line ≤ t.lines.length ∧ t.LeavesBehind g.config.newFile before name := by
  obtain ⟨commands, rendered, u, hcompile, hrender, hname⟩ :=
    (generate_dynamic_eq_ok_iff hdynamic).1 h
  obtain ⟨first, v, more, hbefore, hrest, rfl⟩ := Template.renderTables_append_eq_ok_iff.1 hrender
  obtain ⟨file, one, w, rest, hfile, hone, -, rfl⟩ := Template.renderTables_cons_eq_ok_iff.1 hrest
  rcases Template.renderTable_alone hcompile hbefore hone with
    ⟨o, halone⟩ | ⟨line, name, hfails, hfirst, hlast, hne, hne', hleft⟩
  · obtain ⟨x, y, hx, hy, rfl⟩ := nameAll_append_eq_ok_iff.1 hname
    obtain ⟨z, z', hz, -, rfl⟩ := nameAll_append_eq_ok_iff (a := [one]) (b := rest).1 hy
    obtain ⟨file', rfl⟩ := List.length_eq_one_iff.1 (length_of_nameAll hz)
    refine .inl ⟨file', ?_, ?_⟩
    · refine (generate_dynamic_eq_ok_iff hdynamic).2 ⟨commands, [one], o, hcompile, ?_, hz⟩
      exact Template.renderTables_cons_eq_ok_iff.2 ⟨file, one, o, [], hfile, halone, rfl, rfl⟩
    · rw [← Template.length_of_renderTables hbefore, ← length_of_nameAll hx]
      simp
  · refine .inr ⟨line, name, ?_, hfirst, hlast, hne, hne', first, v, ?_⟩
    · refine generate_eq_error_iff.2 (.inl ?_)
      rw [Template.render_of_compile hdynamic hcompile]
      exact (Template.fails_renderTables_cons_iff hfile).2 (.inl hfails)
    · obtain ⟨x, hx⟩ := hleft
      rw [Template.render_of_compile hdynamic hcompile]
      exact ⟨x, hbefore, hx⟩

/-- **A table may owe its success to earlier tables, for a variable and for nothing else.** Let
a list of tables be generated. Then so are its first tables, with the first of the files. Each
of its tables makes the same file alone, or it fails alone with an unknown variable at a line,
which is a global variable that the tables before it left. And any tables that are generated
alone are generated together, in any order. -/
theorem tables_owe_variables (g : Generator) (t : Template) (tables : List Table)
    (files : List OutputFile) (h : g.generate t tables = .ok files) :
    (∀ before behind, tables = before ++ behind →
      ∃ first, g.generate t before = .ok first ∧ first <+: files) ∧
    (∀ before table behind, tables = before ++ table :: behind →
      (∃ file, g.generate t [table] = .ok [file] ∧
        (t.isDynamic = true → files[before.length]? = some file) ∧
        (t.isDynamic = false → files = [file])) ∨
      ∃ line name, g.generate t [table] = .error (.located t.name line (.unknownVariable name)) ∧
        1 ≤ line ∧ line ≤ t.lines.length ∧ t.LeavesBehind g.config.newFile before name) ∧
    ∀ others, (∀ table ∈ others, ∃ alone, g.generate t [table] = .ok alone) →
      ∃ all, g.generate t others = .ok all := by
  refine ⟨?_, ?_, ?_⟩
  · rintro before behind rfl
    exact generate_before h
  · rintro before table behind rfl
    cases hdynamic : t.isDynamic with
    | true =>
      refine (generate_table hdynamic h).imp_left ?_
      rintro ⟨file, hfile, hat⟩
      refine ⟨file, hfile, fun _ => hat, ?_⟩
      intro hstatic
      cases hstatic
    | false =>
      rw [generate_of_static hdynamic] at h
      obtain ⟨file, rfl⟩ := List.length_eq_one_iff.1 (length_of_nameAll h)
      refine .inl ⟨file, ?_, ?_, fun _ => rfl⟩
      · rw [generate_of_static hdynamic, h]
      · intro hdynamic
        cases hdynamic
  · intro others heach
    by_cases hnil : others = []
    · obtain ⟨first, hfirst, -⟩ := @generate_before g t [] tables files h
      exact ⟨first, hnil ▸ hfirst⟩
    · cases hdynamic : t.isDynamic with
      | true =>
        choose! alone halone using heach
        exact ⟨_, generate_of_dynamic hdynamic hnil halone⟩
      | false =>
        rw [generate_of_static hdynamic] at h ⊢
        exact ⟨files, h⟩

/-- A template that reads a variable for every column, and declares it below. -/
def late : Template :=
  ⟨"Late".toList, "cs".toList, ["!@foreach column@!".toList, "!@n@!".toList,
    "!@end foreach@!".toList, "!@int n@!".toList]⟩

theorem generate_late_together :
    byTable.generate late [tableOf ['A'] [], tableOf ['B'] [['x']]] =
      .ok [⟨"A.cs".toList, []⟩, ⟨"B.cs".toList, "0\n".toList⟩] :=
  Steps.toOption_eq_some_iff.1 (by decide +kernel)

theorem generate_late_alone :
    byTable.generate late [tableOf ['B'] [['x']]] =
      .error (.located "Late".toList 2 (.unknownVariable ['n'])) := by
  decide +kernel

/-- The second table reads what the first one declared. -/
theorem late_owes_variable :
    byTable.generate late [tableOf ['A'] [], tableOf ['B'] [['x']]] =
        .ok [⟨"A.cs".toList, []⟩, ⟨"B.cs".toList, "0\n".toList⟩] ∧
      byTable.generate late [tableOf ['B'] [['x']]] =
        .error (.located "Late".toList 2 (.unknownVariable ['n'])) ∧
      late.LeavesBehind byTable.config.newFile [tableOf ['A'] []] ['n'] := by
  refine ⟨generate_late_together, generate_late_alone, ?_⟩
  obtain ⟨-, hone, -⟩ := tables_owe_variables byTable late _ _ generate_late_together
  rcases hone [tableOf ['A'] []] (tableOf ['B'] [['x']]) [] rfl with
    ⟨file, hfile, -⟩ | ⟨line, name, hfails, -, -, hleft⟩
  · rw [generate_late_alone] at hfile
    cases hfile
  · rw [generate_late_alone] at hfails
    cases hfails
    exact hleft

/-- So not every table of a list is generated alone. -/
theorem not_all_tables_alone :
    ¬ ∀ (g : Generator) (t : Template) (tables : List Table) (files : List OutputFile),
        g.generate t tables = .ok files →
          ∀ table ∈ tables, ∃ alone, g.generate t [table] = .ok alone := by
  intro h
  obtain ⟨alone, halone⟩ := h byTable late _ _ generate_late_together (tableOf ['B'] [['x']])
    (by simp)
  rw [generate_late_alone] at halone
  cases halone

end Generator
end Stencil
