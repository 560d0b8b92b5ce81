import Stencil.Proofs.BlockTree
import Stencil.Proofs.Endings
import Stencil.Proofs.Pushing

/-!
# Templates that only read

A template whose expressions are literals and reads stands for a text: every expression
is replaced by its value, a block over columns is its body for every column, and a
condition keeps its body or drops it. The text is defined on the block tree and mentions
no machine. Rendering writes that text, cut into lines and blocks, where it is the same
as pushing it at once.

## Main definitions

* `Env`: what names stand for.
* `BlockTree.expand`: the text of a tree.
* `Machine.Writes`: a step that writes a text and leaves the store as it is.
-/
namespace Stencil

open Nesting (WellNested Reads)
open Steps (Fails Within)
open Machine (Around)

/-! ## The text of a tree -/

/-- What names stand for. The first entry of a name counts. -/
abbrev Env := List (Text × Value)

namespace Env

/-- What the names of a table stand for. -/
def ofTable (table : Table) : Env :=
  [(Template.tableName, .string table.name), (Template.columnCount, .int table.columns.length)]

/-- What names stand for in the column at `index` of `count`. -/
def withColumn (count index : Nat) (column : Column) (env : Env) : Env :=
  ("ColumnName".toList, .string column.name) ::
    ("ColumnType".toList, .string column.type) ::
    ("IsNullable".toList, .bool column.nullable) ::
    ("IsPrimaryKey".toList, .bool column.primaryKey) ::
    ("ColumnIndex".toList, .int index) ::
    ("IsLastColumn".toList, .bool (index + 1 == count)) :: env

/-- The truth value that a name stands for. -/
def truth? (env : Env) (name : Text) : Option Bool :=
  match env.lookup name with
  | some (.bool b) => some b
  | _ => none

end Env

/-- The text of a piece. Only literals and reads have one. -/
def Piece.expand (env : Env) : Piece → Option Text
  | .fixed text => some text
  | .dynamic (.literal text) => some text
  | .dynamic (.read name) => (env.lookup name).map Value.text
  | .dynamic _ => none

/-- The texts of pieces, joined. -/
def Line.expandPieces (env : Env) : List Piece → Option Text
  | [] => some []
  | piece :: pieces => do
    let text ← piece.expand env
    let more ← expandPieces env pieces
    return text ++ more

/-- The text of a line, which ends in a line feed unless its last piece is dynamic. -/
def Line.expand (env : Env) (line : Line) : Option Text := do
  let text ← expandPieces env line.pieces
  return text ++ if line.endsDynamic then [] else ['\n']

namespace BlockTree

/-- The text of a body for each of the columns from `index` on. -/
def expandColumns (count : Nat) (body : Env → Option Text) (env : Env) :
    Nat → List Column → Option Text
  | _, [] => some []
  | index, column :: columns => do
    let text ← body (env.withColumn count index column)
    let more ← expandColumns count body env (index + 1) columns
    return text ++ more

/-- The text of a tree for a table. -/
def expand (table : Table) : BlockTree → Env → Option Text
  | nil, _ => some []
  | blank rest, env => do
    let more ← rest.expand table env
    return '\n' :: more
  | line content rest, env => do
    let text ← content.expand env
    let more ← rest.expand table env
    return text ++ more
  | block .forEach body rest, env => do
    let text ← expandColumns table.columns.length (body.expand table) env 0 table.columns
    let more ← rest.expand table env
    return text ++ more
  | block (.cond name negate) body rest, env => do
    let holds ← env.truth? name
    let text ← (if holds != negate then body.expand table env else some [])
    let more ← rest.expand table env
    return text ++ more

end BlockTree

/-! ## Stores and environments -/

/-- The names of a frame with their values. -/
def Frame.entries (f : Frame) : Env := f.map fun v => (v.name, v.value)

theorem Frame.lookup_entries (f : Frame) (n : Text) :
    f.entries.lookup n = (f.get? n).map (·.value) := by
  induction f with
  | nil => rfl
  | cons v f ih =>
    rw [entries, List.map_cons, List.lookup_cons, get?_cons]
    by_cases h : v.name = n
    · simp [h]
    · rw [beq_eq_false_iff_ne.2 (Ne.symm h), if_neg h]
      exact ih

/-- Names have the same values in a store as in an environment. -/
def Store.Agrees (s : Store) (env : Env) : Prop := ∀ n, s.value? n = env.lookup n

namespace Store.Agrees

variable {s : Store} {env : Env}

/-- The variables of a new frame hide others as its entries do. -/
theorem cons (h : s.Agrees env) (f : Frame) :
    Agrees ⟨f :: s.locals, s.global⟩ (f.entries ++ env) := by
  intro n
  rw [List.lookup_append, Frame.lookup_entries, ← h n, value?, get?, List.findSome?_cons]
  cases f.get? n with
  | none => rfl
  | some v => rfl

theorem enterColumn (h : s.Agrees env) (count index : Nat) (column : Column) :
    Agrees ⟨Machine.columnFrame count index column :: s.locals, s.global⟩
      (env.withColumn count index column) :=
  h.cons (Machine.columnFrame count index column)

theorem tableStore (table : Table) : (Template.tableStore table).Agrees (.ofTable table) :=
  fun n => (Frame.lookup_entries (Template.tableStore table).global n).symm

variable {text : Text}

/-! ## What reading yields -/

theorem piece (h : s.Agrees env) {p : Piece} (hp : p.expand env = some text) :
    p.render s = .ok text s := by
  match p with
  | .fixed _ | .dynamic (.literal _) =>
    cases hp
    rfl
  | .dynamic (.read name) =>
    obtain ⟨v, hv, rfl⟩ := Option.map_eq_some_iff.1 hp
    rw [Piece.render, Expression.eval_read, Store.lookUp_eq_ok_iff]
    exact ⟨rfl, v, (h name).trans hv, rfl⟩
  | .dynamic (.declare ..) | .dynamic (.assign ..) | .dynamic (.step ..) => cases hp

theorem pieces (h : s.Agrees env) {ps : List Piece} (hps : Line.expandPieces env ps = some text) :
    Line.renderPieces ps s = .ok text s := by
  induction ps generalizing text with
  | nil =>
    cases hps
    rfl
  | cons p ps ih =>
    obtain ⟨a, ha, hps⟩ := Option.bind_eq_some_iff.1 hps
    obtain ⟨b, hb, hps⟩ := Option.bind_eq_some_iff.1 hps
    cases hps
    refine (Steps.run_bind_of_ok (h.piece ha)).trans ?_
    exact (Steps.run_bind_of_ok (ih hb)).trans rfl

theorem line (h : s.Agrees env) {content : Line} (hc : content.expand env = some text) :
    content.render s = .ok text s := by
  obtain ⟨a, ha, hc⟩ := Option.bind_eq_some_iff.1 hc
  cases hc
  exact Steps.run_bind_of_ok (h.pieces ha)

theorem condition (h : s.Agrees env) {name : Text} {b : Bool} (hb : env.truth? name = some b) :
    Machine.condition name s = .ok b s := by
  rw [Machine.condition, h name]
  rw [Env.truth?] at hb
  split at hb
  · next heq =>
    cases hb
    rw [heq]
  · cases hb

end Store.Agrees

/-! ## Steps that write -/

namespace Machine

/-- On a store, a step writes a text: it does to every file what pushing the text at once
does, and leaves the store as it is. Where pushing fails, it fails so at some line. -/
structure Writes (template : Text) (x : Step Unit) (s : Store) (text : Text) : Prop where
  ok : ∀ f g, CodeFile.push text f = .ok () g → x ⟨s, f⟩ = .ok () ⟨s, g⟩
  fails : ∀ f e, Fails (CodeFile.push text) f e → ∃ line, Fails x ⟨s, f⟩ (.located template line e)

namespace Writes

variable {template : Text} {x y : Step Unit} {s : Store} {text more : Text} {line : Nat}

theorem nothing : Writes template (pure ()) s [] := by
  constructor
  · intro f g h
    cases h
    rfl
  · intro f e h
    exact absurd h (Steps.not_fails_of_ok rfl)

theorem bind (hx : Writes template x s text) (hy : Writes template y s more) :
    Writes template (do x; y) s (text ++ more) := by
  constructor
  · intro f g h
    rw [CodeFile.push_append] at h
    obtain ⟨_, f', hf, hg⟩ := Steps.run_bind_eq_ok_iff.1 h
    exact (Steps.run_bind_of_ok (hx.ok f f' hf)).trans (hy.ok f' g hg)
  · intro f e h
    rw [CodeFile.push_append] at h
    rcases Steps.fails_bind_iff.1 h with h | ⟨_, f', hf, h⟩
    · obtain ⟨line, hline⟩ := hx.fails f e h
      exact ⟨line, Steps.fails_bind_iff.2 (.inl hline)⟩
    · obtain ⟨line, hline⟩ := hy.fails f' e h
      exact ⟨line, (Steps.fails_bind_iff_of_ok (hx.ok f f' hf)).2 hline⟩

/-- A location does not change what is located already. -/
theorem located (h : Writes template x s text) :
    Writes template (located template line x) s text := by
  constructor
  · intro f g hpush
    exact located_eq_ok_iff.2 (h.ok f g hpush)
  · intro f e hpush
    obtain ⟨l, hl⟩ := h.fails f e hpush
    exact ⟨l, fails_located_iff.2 ⟨_, hl, rfl⟩⟩

/-- Pushing a text, at a line. -/
theorem push (text : Text) :
    Writes template (Machine.located template line (onFile (CodeFile.push text))) s text := by
  constructor
  · intro f g h
    exact located_eq_ok_iff.2 (onFile_eq_ok_iff.2 ⟨g, h, rfl⟩)
  · intro f e h
    refine ⟨line, fails_located_iff.2 ⟨e, fails_onFile_iff.2 h, ?_⟩⟩
    cases CodeFile.raises_push text f e h
    rfl

/-- A step of the store that leaves it as it is can go before. -/
theorem behind {α : Type} {z : Store.Step α} {a : α} {k : α → Step Unit} (hz : z s = .ok a s)
    (h : Writes template (Machine.located template line (k a)) s text) :
    Writes template (Machine.located template line do
      let a ← onStore z
      k a) s text := by
  have hstep : ∀ f, (Machine.located template line do
      let a ← onStore z
      k a) ⟨s, f⟩ = Machine.located template line (k a) ⟨s, f⟩ := by
    intro f
    have hstore : onStore z ⟨s, f⟩ = .ok a ⟨s, f⟩ := onStore_eq_ok_iff.2 ⟨s, hz, rfl⟩
    rw [Machine.located, Steps.run_bind_of_ok hstore, Machine.located]
  constructor
  · intro f g hpush
    rw [hstep]
    exact h.ok f g hpush
  · intro f e hpush
    obtain ⟨l, n, hl⟩ := h.fails f e hpush
    exact ⟨l, n, (hstep f).trans hl⟩

/-- A step in a frame of its own writes what it writes in that frame. -/
theorem inFrame {frame : Frame} (hwithin : Within (Around Store.innermost) x)
    (hframe : ∀ f, x (enter ⟨s, f⟩) = y ⟨⟨frame :: s.locals, s.global⟩, f⟩)
    (h : Writes template y ⟨frame :: s.locals, s.global⟩ text) :
    Writes template (inFrame x) s text := by
  constructor
  · intro f g hpush
    exact inFrame_eq_ok_iff.2 ⟨_, (hframe f).trans (h.ok f g hpush), rfl⟩
  · intro f e hpush
    obtain ⟨line, n, hline⟩ := h.fails f e hpush
    exact ⟨line, (fails_inFrame_iff hwithin).2 ⟨n, (hframe f).trans hline⟩⟩

/-- A body for each column writes the texts of the columns. -/
theorem overColumns {body : Step Unit} {expand : Env → Option Text} {env : Env} {count : Nat}
    (hwithin : Within (Around Store.innermost) body)
    (hbody : ∀ s env text, s.Agrees env → expand env = some text → Writes template body s text)
    (hs : s.Agrees env) {index : Nat} {columns : List Column}
    (h : BlockTree.expandColumns count expand env index columns = some text) :
    Writes template (overColumns count body index columns) s text := by
  induction columns generalizing index text with
  | nil =>
    cases h
    exact nothing
  | cons column columns ih =>
    obtain ⟨a, ha, h⟩ := Option.bind_eq_some_iff.1 h
    obtain ⟨b, hb, h⟩ := Option.bind_eq_some_iff.1 h
    cases h
    have hcolumn := hbody _ _ a (hs.enterColumn count index column) ha
    refine .bind (.inFrame ?_ (fun f => ?_) hcolumn) (ih hb)
    · exact .bind .trans (within_onStore (within_bindColumn count index column)) fun _ => hwithin
    · exact Steps.run_bind_of_ok (onStore_bindColumn count index column ⟨s, f⟩)

end Writes

end Machine

/-! ## Running a tree -/

namespace BlockTree

variable {tr : BlockTree} {table : Table} {s : Store} {env : Env} {text : Text}

/-- The commands of a tree write its text. -/
theorem writes_runAll (template : Text) (hs : s.Agrees env) (h : tr.expand table env = some text)
    (n : Nat) : Machine.Writes template (Command.runAll template table (tr.commands n)) s text := by
  -- writing leaves the store as it is, so it still agrees behind every part of the tree
  induction tr generalizing s env text n with
  | nil =>
    cases h
    exact .nothing
  | blank rest ih =>
    obtain ⟨more, hmore, h⟩ := Option.bind_eq_some_iff.1 h
    cases h
    exact .bind (.push ['\n']) (ih hs hmore (n + 1))
  | line content rest ih =>
    obtain ⟨a, ha, h⟩ := Option.bind_eq_some_iff.1 h
    obtain ⟨more, hmore, h⟩ := Option.bind_eq_some_iff.1 h
    cases h
    exact .bind (.behind (hs.line ha) (.push a)) (ih hs hmore (n + 1))
  | block b body rest ihbody ih =>
    cases b with
    | forEach =>
      obtain ⟨a, ha, h⟩ := Option.bind_eq_some_iff.1 h
      obtain ⟨more, hmore, h⟩ := Option.bind_eq_some_iff.1 h
      cases h
      refine .bind (.located (.overColumns ?_ ?_ hs ha)) (ih hs hmore _)
      · exact Command.within_runAll template table _
      · intro s env text hs h
        exact ihbody hs h _
    | cond name negate =>
      obtain ⟨holds, hholds, h⟩ := Option.bind_eq_some_iff.1 h
      obtain ⟨a, ha, h⟩ := Option.bind_eq_some_iff.1 h
      obtain ⟨more, hmore, h⟩ := Option.bind_eq_some_iff.1 h
      cases h
      refine .bind (.behind (hs.condition hholds) (.located ?_)) (ih hs hmore _)
      split at ha
      · next heq =>
        rw [if_pos heq]
        have hpush : Store.Agrees ⟨[] :: s.locals, s.global⟩ env := hs.cons []
        refine .inFrame ?_ (fun _ => rfl) (ihbody hpush ha _)
        exact Command.within_runAll template table _
      · next heq =>
        rw [if_neg heq]
        cases ha
        exact .nothing

end BlockTree

/-! ## Rendering a table -/

/-- Pushes a text at once and finishes the file. -/
def CodeFile.write (text : Text) : Step Unit := do
  push text
  finish

theorem CodeFile.raises_write (text : Text) : Steps.Raises Underflow (write text) :=
  (raises_push text).bind fun _ => raises_finish

namespace Template

variable {t : Template} {tr : BlockTree} {table : Table} {text : Text} {file done : CodeFile}
  {newFile : Text → Except Error CodeFile} {e : Error}

/-- Where the text of a table can be written, the table is rendered with it. -/
theorem render_of_expand (hdynamic : t.isDynamic = true) (hreads : Reads t.lines tr.word)
    (hfile : newFile t.fileType = .ok file) (h : tr.expand table (.ofTable table) = some text)
    (hwrite : CodeFile.write text file = .ok () done) :
    t.render [table] newFile Store.empty = .ok [t.rendered table done] (tableStore table) := by
  have hrun := tr.writes_runAll t.name (.tableStore table) h 1
  obtain ⟨_, f, hpush, hfinish⟩ := Steps.run_bind_eq_ok_iff.1 hwrite
  have htable : t.runTable (tr.commands 1) table ⟨tableStore table, file⟩ =
      .ok () ⟨tableStore table, done⟩ := by
    refine (Steps.run_bind_of_ok (hrun.ok file f hpush)).trans ?_
    exact Machine.onFile_eq_ok_iff.2 ⟨done, hfinish, rfl⟩
  exact render_single_of_runTable hdynamic (BlockTree.compile_of_reads t.name hreads) hfile htable

/-- Where it cannot be written, rendering fails in the same way: at a line while the text is
pushed, and without one when the file is finished. -/
theorem fails_render_of_expand (hdynamic : t.isDynamic = true) (hreads : Reads t.lines tr.word)
    (hfile : newFile t.fileType = .ok file) (h : tr.expand table (.ofTable table) = some text)
    (hwrite : Fails (CodeFile.write text) file e) :
    ∃ e', Fails (t.render [table] newFile) Store.empty e' ∧
      (e' = e ∨ ∃ line, e' = .located t.name line e) := by
  have hrun := tr.writes_runAll t.name (.tableStore table) h 1
  have hcompile := BlockTree.compile_of_reads t.name hreads
  simp only [fails_render_single_iff hdynamic hcompile hfile]
  rcases Steps.fails_bind_iff.1 hwrite with hpush | ⟨_, f, hpush, hfinish⟩
  · obtain ⟨line, hline⟩ := hrun.fails file e hpush
    exact ⟨_, Steps.fails_bind_iff.2 (.inl hline), .inr ⟨line, rfl⟩⟩
  · refine ⟨e, ?_, .inl rfl⟩
    refine (Steps.fails_bind_iff_of_ok (hrun.ok file f hpush)).2 ?_
    exact Machine.fails_onFile_iff.2 hfinish

/-- **Templates that only read render by substitution.** A well-nested template is one
block tree. Where the text of the tree is defined, rendering a table on an empty store
gives the file into which that text is pushed at once, and fails when pushing it fails:
with the same underflow, at a line if some line pushed it. The text is defined when every
expression that is reached is a literal or reads a name with a value, and every condition
a truth value. -/
theorem renders_expansion (t : Template) (hdynamic : t.isDynamic = true)
    (hnested : ∃ w, Reads t.lines w ∧ WellNested w) :
    ∃ tr : BlockTree, (∀ u : BlockTree, Reads t.lines u.word ↔ u = tr) ∧
      ∀ table newFile file text, newFile t.fileType = .ok file →
        tr.expand table (.ofTable table) = some text →
          (∀ files, (∃ s, t.render [table] newFile Store.empty = .ok files s) ↔
            ∃ done, CodeFile.write text file = .ok () done ∧ [t.rendered table done] = files) ∧
          ((∃ e, Fails (t.render [table] newFile) Store.empty e) ↔
            ∃ e, Fails (CodeFile.write text) file e) ∧
          ∀ e, Fails (t.render [table] newFile) Store.empty e →
            ∃ cause, Underflow cause ∧ Fails (CodeFile.write text) file cause ∧
              (e = cause ∨ ∃ line, e = .located t.name line cause) := by
  obtain ⟨w, hw, hnested⟩ := hnested
  obtain ⟨tr, rfl⟩ := BlockTree.exists_word_eq hnested
  refine ⟨tr, fun u => ⟨fun hu => BlockTree.word_injective (hu.unique hw), ?_⟩, ?_⟩
  · rintro rfl
    exact hw
  intro table newFile file text hfile hexpand
  have hok : ∀ done, CodeFile.write text file = .ok () done →
      t.render [table] newFile Store.empty = .ok [t.rendered table done] (tableStore table) :=
    fun _ => render_of_expand hdynamic hw hfile hexpand
  have hfails : ∀ cause, Fails (CodeFile.write text) file cause →
      ∃ e, Fails (t.render [table] newFile) Store.empty e ∧
        (e = cause ∨ ∃ line, e = .located t.name line cause) :=
    fun _ => fails_render_of_expand hdynamic hw hfile hexpand
  have hcause : ∀ e, Fails (t.render [table] newFile) Store.empty e →
      ∃ cause, Fails (CodeFile.write text) file cause := fun e =>
    Steps.exists_fails_of_fails fun _ done hdone => ⟨_, _, hok done hdone⟩
  refine ⟨fun files => ⟨?_, ?_⟩, ⟨?_, ?_⟩, ?_⟩
  · rintro ⟨s, hs⟩
    obtain ⟨_, done, hdone⟩ : ∃ u done, CodeFile.write text file = .ok u done := by
      refine Steps.exists_ok_of_ok (fun cause h => ?_) hs
      exact (hfails cause h).imp fun _ => And.left
    rw [hok done hdone] at hs
    cases hs
    exact ⟨done, hdone, rfl⟩
  · rintro ⟨done, hdone, rfl⟩
    exact ⟨_, hok done hdone⟩
  · rintro ⟨e, he⟩
    exact hcause e he
  · rintro ⟨cause, h⟩
    exact (hfails cause h).imp fun _ => And.left
  · intro e he
    obtain ⟨cause, h⟩ := hcause e he
    obtain ⟨e', he', heq⟩ := hfails cause h
    obtain rfl := he.unique he'
    exact ⟨cause, CodeFile.raises_write text file cause h, h, heq⟩

/-- A template that lists the names of the columns on one line. -/
def listing : Template :=
  ⟨"List".toList, "cs".toList, ["!@foreach column@!".toList, "!@ColumnName@!".toList,
    "!@if !IsLastColumn@!".toList, "|!@\"\"@!".toList, "!@end if@!".toList,
    "!@end foreach@!".toList, [';']]⟩

/-- The blocks of the listing. -/
def listingTree : BlockTree :=
  .block .forEach
    (.line ⟨"!@ColumnName@!".toList, [.dynamic (.read "ColumnName".toList)]⟩
      (.block (.cond "IsLastColumn".toList true)
        (.line ⟨"|!@\"\"@!".toList, [.fixed ['|'], .dynamic (.literal [])]⟩ .nil) .nil))
    (.line ⟨[';'], [.fixed [';']]⟩ .nil)

theorem reads_listing : Reads listing.lines listingTree.word := by
  unfold Reads
  decide +kernel

/-- A table of two columns. -/
def twoColumns : Table :=
  ⟨['A'], [⟨['x'], "int".toList, false, true⟩, ⟨['y'], "text".toList, true, false⟩]⟩

/-- The names run on over the ends of the blocks, up to the line feed behind them. -/
theorem renders_listing :
    ∃ s, listing.render [twoColumns] bracedFile Store.empty =
      .ok [⟨"List".toList, some ['A'], "cs".toList, "x|y;\n".toList⟩] s := by
  obtain ⟨tr, htr, h⟩ := renders_expansion listing (by decide +kernel)
    ⟨_, reads_listing, listingTree.wellNested_word⟩
  obtain rfl := (htr _).1 reads_listing
  have hexpand : listingTree.expand twoColumns (.ofTable twoColumns) = some "x|y;\n".toList := by
    decide +kernel
  obtain ⟨hok, -⟩ := h twoColumns bracedFile _ _ rfl hexpand
  exact (hok _).2 ⟨_, rfl, rfl⟩

end Template

end Stencil
