import Stencil.Proofs.Discipline

/-!
# How a machine ends

When the steps of a machine succeed and when they fail. A block gives its frame back in
both cases, so it ends as its body does; the variables of a column can always be
declared in the new frame; and the two variables that describe a table can be declared
whenever they have their own kinds or none, which is so in every store that renderings
leave behind an empty one.

## Main definitions

* `Machine.enter`, `Machine.enterColumn`: a machine in a new frame.
* `Store.Describable`: the stores that the next table can be described in.
-/
namespace Stencil

open Steps (Fails Within)

variable {α : Type}

namespace Machine

variable {x : Step α} {m n : Machine} {a : α} {e : Error}

/-! ## Steps of the store and of the file -/

theorem onStore_eq_ok_iff {y : Store.Step α} :
    onStore y m = .ok a n ↔ ∃ s, y m.store = .ok a s ∧ { m with store := s } = n := by
  rw [onStore]
  cases y m.store with
  | ok b s =>
    constructor
    · intro h
      cases h
      exact ⟨s, rfl, rfl⟩
    · rintro ⟨_, hs, rfl⟩
      cases hs
      rfl
  | error e s => simp

theorem fails_onStore_iff {y : Store.Step α} : Fails (onStore y) m e ↔ Fails y m.store e := by
  rw [Fails, Fails, onStore]
  cases y m.store with
  | ok b s => simp
  | error e' s => simp

theorem onFile_eq_ok_iff {y : CodeFile.Step α} :
    onFile y m = .ok a n ↔ ∃ f, y m.file = .ok a f ∧ { m with file := f } = n := by
  rw [onFile]
  cases y m.file with
  | ok b f =>
    constructor
    · intro h
      cases h
      exact ⟨f, rfl, rfl⟩
    · rintro ⟨_, hf, rfl⟩
      cases hf
      rfl
  | error e f => simp

theorem fails_onFile_iff {y : CodeFile.Step α} : Fails (onFile y) m e ↔ Fails y m.file e := by
  rw [Fails, Fails, onFile]
  cases y m.file with
  | ok b f => simp
  | error e' f => simp

/-- Looking a condition up leaves the store as it is. -/
theorem onStore_condition_eq_ok_iff {name : Text} {holds : Bool} :
    onStore (condition name) m = .ok holds n ↔
      condition name m.store = .ok holds m.store ∧ m = n := by
  rw [onStore_eq_ok_iff, condition_eq_lookUp]
  constructor
  · rintro ⟨s, hs, rfl⟩
    obtain ⟨rfl, -⟩ := Store.lookUp_eq_ok_iff.1 hs
    exact ⟨hs, rfl⟩
  · rintro ⟨hs, rfl⟩
    exact ⟨m.store, hs, rfl⟩

/-! ## Locations -/

theorem located_eq_ok_iff {template : Text} {line : Nat} :
    located template line x m = .ok a n ↔ x m = .ok a n := by
  rw [located]
  cases x m <;> simp

theorem fails_located_iff {template : Text} {line : Nat} :
    Fails (located template line x) m e ↔
      ∃ cause, Fails x m cause ∧ cause.locate template line = e := by
  rw [Fails, located]
  constructor
  · rintro ⟨n, h⟩
    split at h
    · cases h
    · next cause k hx =>
      cases h
      exact ⟨cause, ⟨n, hx⟩, rfl⟩
  · rintro ⟨cause, ⟨k, hx⟩, rfl⟩
    exact ⟨k, by rw [hx]⟩

/-! ## Frames -/

/-- The machine in a frame of its own. -/
def enter (m : Machine) : Machine := { m with store := m.store.push }

theorem inFrame_eq_ok_iff {x : Step Unit} {u : Unit} :
    inFrame x m = .ok u n ↔ ∃ k, x m.enter = .ok () k ∧ onStore Store.pop k = .ok u n := by
  rw [inFrame, enter]
  cases x { m with store := m.store.push } with
  | ok v k => simp
  | error e k => cases h : onStore Store.pop k <;> simp [h]

/-- A step in a frame of its own fails as it does without one: the frame can be dropped. -/
theorem fails_inFrame_iff {x : Step Unit} (h : Within (Around Store.innermost) x) :
    Fails (inFrame x) m e ↔ Fails x m.enter e := by
  have hkeeps : Store.Keeps Store.innermost m.store.push (Steps.after x m.enter).store := h m.enter
  rw [Fails, Fails, inFrame, enter]
  cases hx : x { m with store := m.store.push } with
  | ok u k =>
    rw [enter, Steps.after_of_ok hx] at hkeeps
    obtain ⟨f, fs, hlocals, -⟩ := hkeeps.exists_pop
    simp [onStore_pop hlocals]
  | error e' k =>
    rw [enter, Steps.after_of_error hx] at hkeeps
    obtain ⟨f, fs, hlocals, -⟩ := hkeeps.exists_pop
    simp [onStore_pop hlocals]

/-! ## Columns -/

/-- The variables of the column at `index` of `count`. -/
def columnFrame (count index : Nat) (column : Column) : Frame :=
  [⟨"ColumnName".toList, .string, .string column.name⟩,
    ⟨"ColumnType".toList, .string, .string column.type⟩,
    ⟨"IsNullable".toList, .bool, .bool column.nullable⟩,
    ⟨"IsPrimaryKey".toList, .bool, .bool column.primaryKey⟩,
    ⟨"ColumnIndex".toList, .int, .int index⟩,
    ⟨"IsLastColumn".toList, .bool, .bool (index + 1 == count)⟩]

/-- The machine in a frame with the variables of a column. -/
def enterColumn (count index : Nat) (column : Column) (m : Machine) : Machine :=
  { m with store := ⟨columnFrame count index column :: m.store.locals, m.store.global⟩ }

/-- In a new frame all variables of a column can be declared. -/
theorem onStore_bindColumn (count index : Nat) (column : Column) (m : Machine) :
    onStore (bindColumn count index column) m.enter =
      .ok () (m.enterColumn count index column) := rfl

/-- A body for a column, in the frame of the column. -/
def forColumn (count index : Nat) (column : Column) (body : Step Unit) : Step Unit :=
  inFrame do
    onStore (bindColumn count index column)
    body

theorem fails_forColumn_iff {body : Step Unit} {count index : Nat} {column : Column}
    (h : Within (Around Store.innermost) body) :
    Fails (forColumn count index column body) m e ↔
      Fails body (m.enterColumn count index column) e := by
  refine (fails_inFrame_iff ?_).trans
    (Steps.fails_bind_iff_of_ok (onStore_bindColumn count index column m))
  exact .bind .trans (within_onStore (within_bindColumn count index column)) fun _ => h

/-- Where a body for each of the columns fails, it succeeds for some and fails for the next. -/
theorem fails_overColumns_iff {body : Step Unit} {count index : Nat} {columns : List Column}
    (h : Within (Around Store.innermost) body) :
    Fails (overColumns count body index columns) m e ↔
      ∃ before column after k, columns = before ++ column :: after ∧
        overColumns count body index before m = .ok () k ∧
          Fails body (k.enterColumn count (index + before.length) column) e := by
  induction columns generalizing index m with
  | nil =>
    constructor
    · intro hnil
      exact absurd hnil (Steps.not_fails_of_ok rfl)
    · rintro ⟨before, column, after, k, hcolumns, -⟩
      simp at hcolumns
  | cons first columns ih =>
    refine (Steps.fails_bind_iff (x := forColumn count index first body)).trans ?_
    rw [fails_forColumn_iff h]
    constructor
    · rintro (hfirst | ⟨_, m', hfirst, hrest⟩)
      · exact ⟨[], first, columns, m, rfl, rfl, hfirst⟩
      · obtain ⟨before, column, after, k, rfl, hbefore, hfails⟩ := ih.1 hrest
        refine ⟨first :: before, column, after, k, rfl, ?_, ?_⟩
        · exact (Steps.run_bind_of_ok hfirst).trans hbefore
        · rwa [List.length_cons, ← Nat.add_assoc, Nat.add_right_comm]
    · rintro ⟨before, column, after, k, hcolumns, hbefore, hfails⟩
      cases before with
      | nil =>
        cases hcolumns
        cases hbefore
        exact .inl hfails
      | cons _ before =>
        cases hcolumns
        obtain ⟨_, m', hfirst, hbefore⟩ := Steps.run_bind_eq_ok_iff.1 hbefore
        refine .inr ⟨(), m', hfirst, ih.2 ⟨before, column, after, k, rfl, hbefore, ?_⟩⟩
        rwa [Nat.add_right_comm, Nat.add_assoc, ← List.length_cons]

end Machine

/-! ## Tables -/

namespace Template

variable {t : Template} {commands : List Command} {table : Table} {tables : List Table}
  {newFile : Text → Except Error CodeFile} {file : CodeFile} {s s' u : Store} {e : Error}

/-- Declares the two variables that describe a table. -/
def describe (table : Table) : Store.Step Unit := do
  Store.declareGlobal tableName .string (.string table.name)
  Store.declareGlobal columnCount .int (.int table.columns.length)

/-- Runs commands for a table and finishes the file. -/
def runTable (t : Template) (commands : List Command) (table : Table) : Machine.Step Unit := do
  Command.runAll t.name table commands
  Machine.onFile CodeFile.finish

/-- The file with the contents that a machine has written. -/
def rendered (t : Template) (table : Table) (file : CodeFile) : RenderedFile :=
  ⟨t.name, some table.name, t.fileType, file.contents⟩

theorem renderTable_eq (h : describe table s = .ok () s') :
    t.renderTable commands table file s =
      match t.runTable commands table ⟨s', file⟩ with
      | .ok _ m => .ok (t.rendered table m.file) m.store
      | .error e m => .error e m.store := by
  obtain ⟨_, s₁, hname, hcount⟩ := Steps.run_bind_eq_ok_iff.1 h
  exact (Steps.run_bind_of_ok hname).trans (Steps.run_bind_of_ok hcount)

theorem renderTable_of_runTable {m : Machine} (h : describe table s = .ok () s')
    (hrun : t.runTable commands table ⟨s', file⟩ = .ok () m) :
    t.renderTable commands table file s = .ok (t.rendered table m.file) m.store := by
  rw [renderTable_eq h, hrun]

theorem fails_renderTable_of_describe (h : Fails (describe table) s e) :
    Fails (t.renderTable commands table file) s e := by
  rcases Steps.fails_bind_iff.1 h with hname | ⟨_, s₁, hname, hcount⟩
  · exact Steps.fails_bind_iff.2 (.inl hname)
  · exact (Steps.fails_bind_iff_of_ok hname).2 (Steps.fails_bind_iff.2 (.inl hcount))

theorem fails_renderTable_iff (h : describe table s = .ok () s') :
    Fails (t.renderTable commands table file) s e ↔
      Fails (t.runTable commands table) ⟨s', file⟩ e := by
  rw [Fails, Fails, renderTable_eq h]
  cases t.runTable commands table ⟨s', file⟩ with
  | ok v m => simp
  | error e' m => simp

/-- The stores in which a table can be described: the two names are free, or have the
kinds that describing gives them. -/
structure Describable (s : Store) : Prop where
  name : (s.global.kind? tableName).getD .string = .string
  count : (s.global.kind? columnCount).getD .int = .int

theorem describable_empty : Describable Store.empty := ⟨rfl, rfl⟩

theorem kind?_of_getD {o : Option Kind} {kind : Kind} (h : o.getD kind = kind) :
    o.or (some kind) = some kind := by
  cases o with
  | none => rfl
  | some k => rw [Option.some_or, ← h, Option.getD_some]

theorem Describable.exists_describe (h : Describable s) (table : Table) :
    ∃ s', describe table s = .ok () s' ∧ s'.global.kind? tableName = some .string ∧
      s'.global.kind? columnCount = some .int := by
  have hne : columnCount ≠ tableName := by decide
  obtain ⟨f, hf⟩ : ∃ f, s.global.declare tableName .string (.string table.name) = .ok f :=
    Frame.exists_declare_iff.2 (by rw [h.name]; rfl)
  have hcount : f.kind? columnCount = s.global.kind? columnCount := by
    rw [Frame.kind?_declare hf, if_neg hne, Option.or_none]
  have hname : f.kind? tableName = some .string := by
    rw [Frame.kind?_declare hf, if_pos rfl, kind?_of_getD h.name]
  obtain ⟨g, hg⟩ : ∃ g, f.declare columnCount .int (.int table.columns.length) = .ok g :=
    Frame.exists_declare_iff.2 (by rw [hcount, h.count]; rfl)
  refine ⟨{ s with global := g }, ?_, ?_, ?_⟩
  · refine Steps.run_bind_eq_ok_iff.2 ⟨(), { s with global := f }, ?_, ?_⟩
    · simp only [Store.declareGlobal, hf]
    · simp only [Store.declareGlobal, hg]
  · rw [Frame.kind?_declare hg, hname, Option.some_or]
  · rw [Frame.kind?_declare hg, if_pos rfl, hcount, kind?_of_getD h.count]

/-- A global variable keeps its kind when tables are rendered. -/
theorem AroundTables.kind?_global (h : AroundTables s u) {n : Text} {kind : Kind}
    (hk : s.global.kind? n = some kind) : u.global.kind? n = some kind := by
  obtain ⟨v, hv, rfl⟩ := Option.map_eq_some_iff.1 hk
  obtain ⟨v', hv', hkind⟩ := h.global hv
  exact Option.map_eq_some_iff.2 ⟨v', hv', hkind⟩

/-- The next table can be described in the store that a table leaves behind. -/
theorem Describable.after_runTable {m : Machine} (hname : s.global.kind? tableName = some .string)
    (hcount : s.global.kind? columnCount = some .int)
    (h : t.runTable commands table ⟨s, file⟩ = .ok () m) : Describable m.store := by
  have hwithin : Within (Machine.Around Store.innermost) (t.runTable commands table) :=
    .bind .trans (Command.within_runAll t.name table commands) fun _ => Machine.within_onFile _
  have haround : AroundTables s m.store := by
    have haround := hwithin ⟨s, file⟩
    rw [Steps.after_of_ok h] at haround
    exact .of_innermost haround
  constructor
  · rw [haround.kind?_global hname, Option.getD_some]
  · rw [haround.kind?_global hcount, Option.getD_some]

/-- Rendering tables is making a file for the first, rendering it, and going on with the
store that it leaves. -/
theorem renderTables_cons_eq_ok_iff {files : List RenderedFile} :
    t.renderTables commands newFile (table :: tables) s = .ok files u ↔
      ∃ file rendered v more, newFile t.fileType = .ok file ∧
        t.renderTable commands table file s = .ok rendered v ∧
        t.renderTables commands newFile tables v = .ok more u ∧ rendered :: more = files := by
  refine Steps.run_bind_eq_ok_iff.trans ?_
  cases newFile t.fileType with
  | error e => simp
  | ok file =>
    simp only [Steps.run_bind_eq_ok_iff]
    constructor
    · rintro ⟨_, _, hfile, rendered, v, hrendered, more, w, hmore, hfiles⟩
      cases hfile
      cases hfiles
      exact ⟨file, rendered, v, more, rfl, hrendered, hmore, rfl⟩
    · rintro ⟨_, rendered, v, more, hfile, hrendered, hmore, rfl⟩
      cases hfile
      exact ⟨file, s, rfl, rendered, v, hrendered, more, u, hmore, rfl⟩

theorem fails_renderTables_cons_iff (hfile : newFile t.fileType = .ok file) :
    Fails (t.renderTables commands newFile (table :: tables)) s e ↔
      Fails (t.renderTable commands table file) s e ∨
        ∃ rendered v, t.renderTable commands table file s = .ok rendered v ∧
          Fails (t.renderTables commands newFile tables) v e := by
  refine (Steps.fails_bind_iff_of_ok (a := file) (t := s) ?_).trans
    (Steps.fails_bind_iff.trans ?_)
  · rw [hfile]
  refine or_congr_right ?_
  constructor
  · rintro ⟨rendered, v, hrendered, h⟩
    rcases Steps.fails_bind_iff.1 h with h | ⟨more, w, -, h⟩
    · exact ⟨rendered, v, hrendered, h⟩
    · exact absurd h (Steps.not_fails_of_ok rfl)
  · rintro ⟨rendered, v, hrendered, h⟩
    exact ⟨rendered, v, hrendered, Steps.fails_bind_iff.2 (.inl h)⟩

/-- Where rendering tables fails, it fails for one of them. -/
theorem exists_of_fails_renderTables (hfile : newFile t.fileType = .ok file) (hs : Describable s)
    (h : Fails (t.renderTables commands newFile tables) s e) :
    ∃ table ∈ tables, ∃ s', Fails (t.runTable commands table) ⟨s', file⟩ e := by
  induction tables generalizing s with
  | nil => exact absurd h (Steps.not_fails_of_ok rfl)
  | cons table tables ih =>
    obtain ⟨s', hs', hname, hcount⟩ := hs.exists_describe table
    rcases (fails_renderTables_cons_iff hfile).1 h with h | ⟨r, v, hr, h⟩
    · exact ⟨table, List.mem_cons_self, s', (fails_renderTable_iff hs').1 h⟩
    · rw [renderTable_eq hs'] at hr
      cases hrun : t.runTable commands table ⟨s', file⟩ with
      | error e' m => rw [hrun] at hr; cases hr
      | ok _ m =>
        rw [hrun] at hr
        cases hr
        obtain ⟨table', hmem, hfails⟩ := ih (.after_runTable hname hcount hrun) h
        exact ⟨table', List.mem_cons_of_mem table hmem, hfails⟩

/-- Only a template with markers is compiled. -/
theorem compile_eq_some_iff :
    t.compile = .ok (some commands) ↔
      t.isDynamic = true ∧ Command.compile t.name t.lines = .ok commands := by
  rw [compile]
  split
  · next hdynamic => simp [Steps.map_eq_ok_iff, hdynamic]
  · next hdynamic => simp [hdynamic]

theorem render_of_compile (hdynamic : t.isDynamic = true)
    (hcompile : Command.compile t.name t.lines = .ok commands) (tables : List Table) :
    t.render tables newFile = t.renderTables commands newFile tables := by
  funext s
  simp only [render, compile, hdynamic, if_true, hcompile]
  rfl

/-- The store in which a table alone is rendered. -/
def tableStore (table : Table) : Store :=
  ⟨[], [⟨tableName, .string, .string table.name⟩,
    ⟨columnCount, .int, .int table.columns.length⟩]⟩

theorem describe_empty (table : Table) :
    describe table Store.empty = .ok () (tableStore table) := rfl

/-- A table alone is rendered by running it on its own store. -/
theorem render_single_of_runTable {m : Machine}
    (hdynamic : t.isDynamic = true) (hcompile : Command.compile t.name t.lines = .ok commands)
    (hfile : newFile t.fileType = .ok file)
    (h : t.runTable commands table ⟨tableStore table, file⟩ = .ok () m) :
    t.render [table] newFile Store.empty = .ok [t.rendered table m.file] m.store := by
  rw [render_of_compile hdynamic hcompile, renderTables_cons_eq_ok_iff]
  exact ⟨file, _, m.store, [], hfile, renderTable_of_runTable (describe_empty table) h, rfl, rfl⟩

/-- Rendering a table on an empty store fails as running it on its own store does. -/
theorem fails_render_single_iff (hdynamic : t.isDynamic = true)
    (hcompile : Command.compile t.name t.lines = .ok commands)
    (hfile : newFile t.fileType = .ok file) :
    Fails (t.render [table] newFile) Store.empty e ↔
      Fails (t.runTable commands table) ⟨tableStore table, file⟩ e := by
  rw [render_of_compile hdynamic hcompile, fails_renderTables_cons_iff hfile,
    fails_renderTable_iff (describe_empty table)]
  constructor
  · rintro (h | ⟨rendered, s, -, h⟩)
    · exact h
    · exact absurd h (Steps.not_fails_of_ok rfl)
  · intro h
    exact .inl h

/-- Files of every type with the rules for braces. -/
def bracedFile (fileType : Text) : Except Error CodeFile :=
  .ok (.new fileType 4 IndentRule.braces)

end Template

end Stencil
