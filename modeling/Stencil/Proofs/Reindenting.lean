import Mathlib.Data.List.Forall2
import Stencil.Proofs.Contents
import Stencil.Proofs.Failures

/-!
# Rules of indentation change spaces only

A template is rendered into files with two sets of rules. The rules see every line that is
completed and move the level, but nothing looks at the level except the rules: what is
pending, what the store holds and which block runs next are the same under both. So the
files differ in the spaces in front of lines that are not blank, and in nothing else, unless
one set of rules runs out of levels.

The proof runs each step on two machines whose files differ in this way. Two such runs are
`Steps.Parallel`: an underflow of the indentation is all that can end one of them alone.

## Main definitions

* `Text.Reindented`: lines that differ in the spaces in front of them.
* `CodeFile.Reindented`, `RenderedFile.Reindented`: files made of such lines.
* `Underindented`: an underflow of the indentation, with a location or without.
-/
namespace Stencil

open Steps (Fails Within Parallel)

/-! ## Lines -/

namespace Text

/-- The text behind the spaces in front of it. -/
def dropSpaces (t : Text) : Text := t.dropWhile (· == ' ')

/-- Two lines that differ in the spaces in front of them. Blank lines do not differ. -/
structure Reindented (s t : Text) : Prop where
  behind : dropSpaces s = dropSpaces t
  blank : isBlankText s = true → s = t

theorem Reindented.refl (t : Text) : Reindented t t := ⟨rfl, fun _ => rfl⟩

theorem dropSpaces_replicate_append (k : Nat) (t : Text) :
    dropSpaces (List.replicate k ' ' ++ t) = dropSpaces t := by
  apply List.dropWhile_append_of_pos
  intro c hc
  rw [List.eq_of_mem_replicate hc]
  rfl

/-- Any numbers of spaces may stand in front of a line that is not blank. -/
theorem reindented_of_spaces {t : Text} (h : isBlankText t = false) (i j : Nat) :
    Reindented (List.replicate i ' ' ++ t) (List.replicate j ' ' ++ t) := by
  refine ⟨?_, fun hblank => ?_⟩
  · rw [dropSpaces_replicate_append, dropSpaces_replicate_append]
  · rw [isBlankText_iff, List.all_append, Bool.and_eq_true] at hblank
    rw [isBlankText_iff.2 hblank.2] at h
    cases h

/-- Lines still differ in spaces only when both are completed. -/
theorem Reindented.append_feed {s t : Text} (h : Reindented s t) :
    Reindented (s ++ ['\n']) (t ++ ['\n']) := by
  refine ⟨?_, fun hblank => ?_⟩
  · have hs : s.dropWhile (· == ' ') = t.dropWhile (· == ' ') := h.behind
    rw [dropSpaces, dropSpaces, List.dropWhile_append, List.dropWhile_append, hs]
  · rw [isBlankText_iff, List.all_append, Bool.and_eq_true] at hblank
    rw [h.blank (isBlankText_iff.2 hblank.1)]

end Text

/-! ## Indenting one line -/

/-- An underflow of the indentation, reported at a line or not. -/
inductive Underindented : Error → Prop
  | bare {e : Error} : Underflow e → Underindented e
  | located (template : Text) (line : Nat) {e : Error} :
      Underflow e → Underindented (.located template line e)

theorem Underindented.locate {e : Error} (h : Underindented e) (template : Text) (line : Nat) :
    Underindented (e.locate template line) := by
  cases h with
  | bare h =>
    rw [h.runtime.locate]
    exact .located template line h
  | located template' line' h => exact .located template' line' h

namespace Indenter

variable {rules rules' : List IndentRule} {line : Text} {i i' : Indenter}

/-- Two sets of rules write a line behind different numbers of spaces. -/
theorem reindented_written (rules rules' : List IndentRule) (i i' : Indenter) (line : Text) :
    Text.Reindented (written rules i line) (written rules' i' line) := by
  unfold written
  cases hline : Text.isBlankText line with
  | true => exact .refl line
  | false => exact Text.reindented_of_spaces hline _ _

end Indenter

/-! ## Files -/

namespace CodeFile

variable {a b : CodeFile}

/-- Two files with the same text but for the spaces in front of lines. -/
structure Reindented (a b : CodeFile) : Prop where
  lines : List.Forall₂ Text.Reindented a.lines b.lines
  pending : a.pending = b.pending
  left : a.Cut
  right : b.Cut

/-- Empty files, whatever their rules are. -/
theorem reindented_of_empty (ha : a.contents = []) (hb : b.contents = []) : Reindented a b := by
  have hempty : ∀ {file : CodeFile}, file.contents = [] → file.lines = [] ∧ file.pending = [] := by
    intro file h
    rw [contents, List.append_eq_nil_iff] at h
    refine ⟨?_, h.2⟩
    cases hlines : file.lines with
    | nil => rfl
    | cons line lines => simp [hlines, Text.unlines] at h
  obtain ⟨hla, hpa⟩ := hempty ha
  obtain ⟨hlb, hpb⟩ := hempty hb
  refine ⟨?_, hpa.trans hpb.symm, ⟨?_, ?_⟩, ⟨?_, ?_⟩⟩ <;> simp [hla, hpa, hlb, hpb]

/-- What is pending keeps growing in the same way. -/
theorem Reindented.hold {c : Char} (h : Reindented a b) (hc : ¬ c = '\n') :
    Reindented (a.withPending [c]) (b.withPending [c]) := by
  refine ⟨h.lines, ?_, h.left.withPending hc, h.right.withPending hc⟩
  rw [pending_withPending, pending_withPending, h.pending]

/-- What is pending becomes a line, or it does not fit the indentation of a file. -/
theorem parallel_addLine (h : Reindented a b) :
    Parallel Underindented Eq Reindented (addLine [] a) (addLine [] b) := by
  have hunderflow (line : Text) : Underindented (.indentUnderflow line) := .bare (.intro line)
  rw [addLine_eq, addLine_eq, List.append_nil, List.append_nil, ← h.pending]
  by_cases ha : Indenter.Refuses a.rules a.indenter a.pending
  · rw [if_pos ha]
    split
    · exact .failed _ _ _ _
    · exact .left (hunderflow _)
  · rw [if_neg ha]
    split
    · exact .right (hunderflow _)
    · have hright : (b.withWritten a.pending).Cut := h.right.withWritten h.left.pending
      refine .ok rfl ⟨?_, rfl, h.left.withWritten h.left.pending, hright⟩
      rw [lines_withWritten, lines_withWritten]
      exact List.rel_append h.lines (.cons (Indenter.reindented_written _ _ _ _ _) .nil)

theorem parallel_pushChar (c : Char) (h : Reindented a b) :
    Parallel Underindented Eq Reindented (pushChar c a) (pushChar c b) := by
  rw [pushChar]
  split
  · exact parallel_addLine h
  · next hc => exact .ok rfl (h.hold hc)

/-- Text is pushed to both files, or it does not fit the indentation of one. -/
theorem parallel_push (text : Text) (h : Reindented a b) :
    Parallel Underindented Eq Reindented (push text a) (push text b) := by
  induction text generalizing a b with
  | nil => exact .ok rfl h
  | cons c text ih =>
    rw [push_cons]
    exact (parallel_pushChar c h).bind fun _ _ _ _ _ hab => ih hab

theorem parallel_finish (h : Reindented a b) :
    Parallel Underindented Eq Reindented (finish a) (finish b) := by
  rw [finish, finish, ← h.pending]
  split
  · exact .ok rfl h
  · exact parallel_addLine h

end CodeFile

/-! ## Machines -/

namespace Machine

variable {α β : Type}

/-- Two machines with the same store, whose files differ in spaces in front of lines. -/
structure Reindented (m n : Machine) : Prop where
  store : m.store = n.store
  file : CodeFile.Reindented m.file n.file

/-- A step that runs in parallel on two such machines. -/
def Mirrors (x : Step α) : Prop :=
  ∀ m n, Reindented m n → Parallel Underindented Eq Reindented (x m) (x n)

theorem Mirrors.pure (a : α) : Mirrors (pure a) := fun _ _ h => .ok rfl h

theorem Mirrors.bind {x : Step α} {f : α → Step β} (hx : Mirrors x) (hf : ∀ a, Mirrors (f a)) :
    Mirrors (x >>= f) := by
  intro m n h
  refine (hx m n h).bind fun a b m' n' hab h' => ?_
  rw [hab]
  exact hf b m' n' h'

/-- A step of the store does not look at the file. -/
theorem mirrors_onStore (x : Store.Step α) : Mirrors (onStore x) := by
  intro m n h
  rw [onStore, onStore, h.store]
  cases x n.store with
  | ok a s => exact .ok rfl ⟨rfl, h.file⟩
  | error e s => exact .failed e e _ _

theorem mirrors_onFile {x : CodeFile.Step α}
    (hx : ∀ a b, CodeFile.Reindented a b →
      Parallel Underindented Eq CodeFile.Reindented (x a) (x b)) : Mirrors (onFile x) := by
  intro m n h
  have hfile := hx m.file n.file h.file
  rw [onFile, onFile]
  generalize x m.file = r at hfile ⊢
  generalize x n.file = r' at hfile ⊢
  cases hfile with
  | ok hab hfiles => exact .ok hab ⟨h.store, hfiles⟩
  | left he => exact .left he
  | right he => exact .right he
  | failed e e' _ _ => exact .failed e e' _ _

theorem mirrors_located {x : Step α} (template : Text) (line : Nat) (hx : Mirrors x) :
    Mirrors (located template line x) := by
  intro m n h
  have hparallel := hx m n h
  rw [located, located]
  generalize x m = r at hparallel ⊢
  generalize x n = r' at hparallel ⊢
  cases hparallel with
  | ok hab hmachines => exact .ok hab hmachines
  | left he => exact .left (he.locate template line)
  | right he => exact .right (he.locate template line)
  | failed e e' _ _ => exact .failed _ _ _ _

theorem inFrame_of_ok {x : Step Unit} {m k : Machine} {u : Unit} (h : x m.enter = .ok u k) :
    inFrame x m = onStore Store.pop k := by
  rw [enter] at h
  rw [inFrame, h]

/-- A body in a frame of its own. The frame can be dropped behind a failure of the body, so
the failure stays what it is. -/
theorem mirrors_inFrame {x : Step Unit} (hx : Mirrors x)
    (hkeeps : Within (Around Store.innermost) x) : Mirrors (inFrame x) := by
  intro m n h
  have henter : Reindented m.enter n.enter := ⟨congrArg Store.push h.store, h.file⟩
  have hbody := hx m.enter n.enter henter
  cases hm : x m.enter with
  | ok u k =>
    rw [inFrame_of_ok hm]
    cases hn : x n.enter with
    | ok u' k' =>
      rw [inFrame_of_ok hn]
      rw [hm, hn] at hbody
      cases hbody with
      | ok _ hk => exact mirrors_onStore Store.pop k k' hk
    | error e k' =>
      obtain ⟨o, ho⟩ := (fails_inFrame_iff hkeeps).2 ⟨k', hn⟩
      rw [ho]
      rw [hm, hn] at hbody
      cases hbody with
      | right he =>
        cases onStore Store.pop k with
        | ok _ _ => exact .right he
        | error e' _ => exact .failed e' e _ _
  | error e k =>
    obtain ⟨o, ho⟩ := (fails_inFrame_iff hkeeps).2 ⟨k, hm⟩
    rw [ho]
    cases hn : x n.enter with
    | ok u' k' =>
      rw [inFrame_of_ok hn]
      rw [hm, hn] at hbody
      cases hbody with
      | left he =>
        cases onStore Store.pop k' with
        | ok _ _ => exact .left he
        | error e' _ => exact .failed e e' _ _
    | error e' k' =>
      obtain ⟨o', ho'⟩ := (fails_inFrame_iff hkeeps).2 ⟨k', hn⟩
      rw [ho']
      exact .failed e e' _ _

theorem mirrors_overColumns {body : Step Unit} (count : Nat) (hbody : Mirrors body)
    (hkeeps : Within (Around Store.innermost) body) (index : Nat) (columns : List Column) :
    Mirrors (overColumns count body index columns) := by
  induction columns generalizing index with
  | nil => exact .pure ()
  | cons column columns ih =>
    refine .bind (mirrors_inFrame ?_ ?_) fun _ => ih (index + 1)
    · exact .bind (mirrors_onStore _) fun _ => hbody
    · exact .bind .trans (within_onStore (within_bindColumn count index column)) fun _ => hkeeps

end Machine

namespace Command

open Machine

mutual

/-- A command runs in the same way whatever the rules of the file are. -/
theorem mirrors_run (template : Text) (table : Table) :
    ∀ command : Command, Mirrors (run template table command)
  | .blank line =>
    mirrors_located template line (mirrors_onFile fun _ _ => CodeFile.parallel_push ['\n'])
  | .emit line content => by
    refine mirrors_located template line (.bind (mirrors_onStore content.render) fun text => ?_)
    exact mirrors_onFile fun _ _ => CodeFile.parallel_push text
  | .forEach line body => by
    refine mirrors_located template line (mirrors_overColumns _ ?_ ?_ 0 table.columns)
    · exact mirrors_runAll template table body
    · exact within_runAll template table body
  | .cond line name negate body => by
    refine mirrors_located template line (.bind (mirrors_onStore (condition name)) fun holds => ?_)
    split
    · refine mirrors_inFrame ?_ ?_
      · exact mirrors_runAll template table body
      · exact within_runAll template table body
    · exact .pure ()

theorem mirrors_runAll (template : Text) (table : Table) :
    ∀ commands : List Command, Mirrors (runAll template table commands)
  | [] => .pure ()
  | command :: commands =>
    .bind (mirrors_run template table command) fun _ => mirrors_runAll template table commands

end

end Command

/-! ## Tables and templates -/

/-- Two rendered files of the same template and table whose lines differ in the spaces in
front of them. -/
structure RenderedFile.Reindented (a b : RenderedFile) : Prop where
  template : a.template = b.template
  table : a.table = b.table
  fileType : a.fileType = b.fileType
  contents : List.Forall₂ Text.Reindented (Text.pieces a.contents) (Text.pieces b.contents)

theorem RenderedFile.Reindented.refl (file : RenderedFile) : Reindented file file :=
  ⟨rfl, rfl, rfl, List.forall₂_same.2 fun piece _ => .refl piece⟩

namespace Template

variable {t : Template} {commands : List Command} {newFile newFile' : Text → Except Error CodeFile}
  {file file' : CodeFile}

/-- Finished files have no pending text. -/
theorem pending_of_runTable {table : Table} {m n : Machine} {u : Unit}
    (h : t.runTable commands table m = .ok u n) : n.file.pending = [] := by
  obtain ⟨_, k, -, h⟩ := Steps.run_bind_eq_ok_iff.1 h
  obtain ⟨f, hf, rfl⟩ := Machine.onFile_eq_ok_iff.1 h
  rw [CodeFile.finish_eq] at hf
  split at hf
  · next hpending =>
    cases hf
    exact hpending
  · split at hf
    · cases hf
    · cases hf
      rfl

/-- A table renders into both files, or it does not fit the indentation of one. -/
theorem parallel_renderTable (t : Template) (commands : List Command) (table : Table)
    (h : CodeFile.Reindented file file') (s : Store) :
    Parallel Underindented RenderedFile.Reindented Eq (t.renderTable commands table file s)
      (t.renderTable commands table file' s) := by
  rcases Steps.ok_or_fails (describe table) s with ⟨_, s₂, hdescribe⟩ | ⟨e, hfails⟩
  · have hmirrors : Machine.Mirrors (t.runTable commands table) :=
      .bind (Command.mirrors_runAll t.name table commands) fun _ =>
        Machine.mirrors_onFile fun _ _ => CodeFile.parallel_finish
    have hrun := hmirrors ⟨s₂, file⟩ ⟨s₂, file'⟩ ⟨rfl, h⟩
    rw [renderTable_eq hdescribe, renderTable_eq hdescribe]
    cases hm : t.runTable commands table ⟨s₂, file⟩ with
    | ok u m =>
      cases hn : t.runTable commands table ⟨s₂, file'⟩ with
      | ok u' n =>
        obtain ⟨-, hstore, hfile⟩ := hrun.of_ok hm hn
        refine .ok ⟨rfl, rfl, rfl, ?_⟩ hstore
        have hleft := CodeFile.pieces_contents hfile.left (pending_of_runTable hm)
        have hright := CodeFile.pieces_contents hfile.right (pending_of_runTable hn)
        change List.Forall₂ _ (Text.pieces m.file.contents) (Text.pieces n.file.contents)
        rw [hleft, hright, List.forall₂_map_left_iff, List.forall₂_map_right_iff]
        exact hfile.lines.imp fun _ _ => Text.Reindented.append_feed
      | error e n =>
        rw [hm, hn] at hrun
        cases hrun with
        | right he => exact .right he
    | error e m =>
      cases hn : t.runTable commands table ⟨s₂, file'⟩ with
      | ok u' n =>
        rw [hm, hn] at hrun
        cases hrun with
        | left he => exact .left he
      | error e' n => exact .failed e e' _ _
  · exact .of_fails (fails_renderTable_of_describe hfails) (fails_renderTable_of_describe hfails)

/-- The files of all tables, one by one. -/
theorem parallel_renderTables (hfile : newFile t.fileType = .ok file)
    (hfile' : newFile' t.fileType = .ok file') (h : CodeFile.Reindented file file')
    (tables : List Table) (s : Store) :
    Parallel Underindented (List.Forall₂ RenderedFile.Reindented) Eq
      (t.renderTables commands newFile tables s) (t.renderTables commands newFile' tables s) := by
  induction tables generalizing s with
  | nil => exact .ok .nil rfl
  | cons table tables ih =>
    have hmake : Parallel Underindented (fun a b => a = file ∧ b = file') Eq
        (.ok file s) (.ok file' s) := .ok ⟨rfl, rfl⟩ rfl
    refine Parallel.bind (?_ : Parallel _ (fun a b => a = file ∧ b = file') Eq _ _) ?_
    · simpa only [hfile, hfile'] using hmake
    rintro _ _ s₁ _ ⟨rfl, rfl⟩ rfl
    refine (parallel_renderTable t commands table h s₁).bind fun a b s₂ _ hab hs₂ => ?_
    subst hs₂
    refine (ih s₂).bind fun as bs s₃ _ hs hs₃ => ?_
    subst hs₃
    exact .ok (.cons hab hs) rfl

theorem parallel_render (hfile : newFile t.fileType = .ok file)
    (hfile' : newFile' t.fileType = .ok file') (h : CodeFile.Reindented file file')
    (tables : List Table) (s : Store) :
    Parallel Underindented (List.Forall₂ RenderedFile.Reindented) Eq
      (t.render tables newFile s) (t.render tables newFile' s) := by
  rw [render, render]
  cases t.compile with
  | error e => exact .failed e e s s
  | ok commands? =>
    cases commands? with
    | none => exact .ok (.cons (.refl t.copy) .nil) rfl
    | some commands => exact parallel_renderTables hfile hfile' h tables s

/-- **Rules of indentation change spaces only.** Two ways to make empty files may indent by
any rules and units. If a template renders with both, it makes the same files for the same
tables, which differ in the spaces in front of lines that are not blank, and it leaves the
same store behind. If it fails with one of them, and not for want of a level, it fails with
the other one too. -/
theorem renders_reindented (t : Template) (tables : List Table)
    (newFile newFile' : Text → Except Error CodeFile) (file file' : CodeFile)
    (hfile : newFile t.fileType = .ok file) (hempty : file.contents = [])
    (hfile' : newFile' t.fileType = .ok file') (hempty' : file'.contents = []) (s : Store) :
    (∀ files u files' u', t.render tables newFile s = .ok files u →
      t.render tables newFile' s = .ok files' u' →
        List.Forall₂ RenderedFile.Reindented files files' ∧ u = u') ∧
    ∀ e, ¬ Underindented e →
      (Fails (t.render tables newFile) s e → ∃ e', Fails (t.render tables newFile') s e') ∧
      (Fails (t.render tables newFile') s e → ∃ e', Fails (t.render tables newFile) s e') := by
  have hparallel := parallel_render hfile hfile' (CodeFile.reindented_of_empty hempty hempty')
    tables s
  refine ⟨?_, ?_⟩
  · intro files u files' u' h h'
    exact hparallel.of_ok h h'
  · intro e he
    exact ⟨fun h => hparallel.fails_right h he, fun h => hparallel.fails_left h he⟩

/-- Files of every type without rules. -/
def flatFile (fileType : Text) : Except Error CodeFile := .ok (.new fileType 0 [])

/-- A template with a line in braces. -/
def enclosing : Template :=
  ⟨"Tpl".toList, "cs".toList, ["!@TableName@! \x7b".toList, ['x'], [], ['\x7d']]⟩

/-- A template that reads a variable that no table has. -/
def unknownRead : Template := ⟨"Tpl".toList, "cs".toList, ["!@x@!".toList]⟩

/-- The file of the enclosing template for a table. -/
def enclosed (inner : String) : RenderedFile :=
  ⟨"Tpl".toList, some ['T'], "cs".toList, "T \x7b\n".toList ++ inner.toList ++ "\n\n\x7d\n".toList⟩

/-- The rules for braces put four spaces in front of a line, and change nothing else. A
variable that no table has is missed with any rules. -/
theorem enclosing_reindented :
    (∃ u, enclosing.render [⟨['T'], []⟩] bracedFile Store.empty = .ok [enclosed "    x"] u ∧
      enclosing.render [⟨['T'], []⟩] flatFile Store.empty = .ok [enclosed "x"] u ∧
      List.Forall₂ RenderedFile.Reindented [enclosed "    x"] [enclosed "x"]) ∧
    Fails (unknownRead.render [⟨['T'], []⟩] bracedFile) Store.empty
      (.located "Tpl".toList 1 (.unknownVariable ['x'])) ∧
    ∃ e, Fails (unknownRead.render [⟨['T'], []⟩] flatFile) Store.empty e := by
  have hbraced : enclosing.render [⟨['T'], []⟩] bracedFile Store.empty =
      .ok [enclosed "    x"] (tableStore ⟨['T'], []⟩) :=
    Steps.outcome_eq_ok_iff.1 (by decide +kernel)
  have hflat : enclosing.render [⟨['T'], []⟩] flatFile Store.empty =
      .ok [enclosed "x"] (tableStore ⟨['T'], []⟩) :=
    Steps.outcome_eq_ok_iff.1 (by decide +kernel)
  have hunknown : Fails (unknownRead.render [⟨['T'], []⟩] bracedFile) Store.empty
      (.located "Tpl".toList 1 (.unknownVariable ['x'])) :=
    Steps.outcome_eq_error_iff.1 (by decide +kernel)
  have hcause : ¬ Underindented (.located "Tpl".toList 1 (.unknownVariable ['x'])) := by
    rintro (h | ⟨_, _, h⟩) <;> cases h
  obtain ⟨hok, -⟩ := renders_reindented enclosing [⟨['T'], []⟩] bracedFile flatFile _ _ rfl rfl
    rfl rfl Store.empty
  obtain ⟨-, hfails⟩ := renders_reindented unknownRead [⟨['T'], []⟩] bracedFile flatFile _ _ rfl
    rfl rfl rfl Store.empty
  exact ⟨⟨_, hbraced, hflat, (hok _ _ _ _ hbraced hflat).1⟩, hunknown,
    (hfails _ hcause).1 hunknown⟩

end Template

end Stencil
