import Stencil.Proofs.BlockTree
import Stencil.Proofs.Failures

/-!
# Where failures are reported

A run of a block tree goes from statement to statement, into the bodies of blocks and out
of them. Where it fails, it fails in a statement that it reaches, and the failure is
reported at one line: that of the statement, and for a condition the line of the end that
closes its block. Finishing a file is no statement, so a failure to finish has no line.

## Main definitions

* `BlockTree.Reaches`: the statements that a run reaches, and on which machines.
* `BlockTree.Fault`: how the first statement of a tree fails by itself.
* `BlockTree.reportedAt`: the line that such a failure is reported at.
-/
namespace Stencil

open Nesting (Reads FaultAt Leaves)
open Steps (Fails)

namespace BlockTree

variable {template : Text} {table : Table} {tr u : BlockTree} {n k : Nat} {m o : Machine}
  {e cause : Error}

/-- A run of a tree whose first line has the number `n` reaches, on a machine, the statement
that stands first in another tree, at a line. -/
inductive Reaches (template : Text) (table : Table) :
    BlockTree → Nat → Machine → BlockTree → Nat → Machine → Prop
  /-- The first statement is reached. -/
  | here (tr : BlockTree) (n : Nat) (m : Machine) : Reaches template table tr n m tr n m
  | blank {rest u : BlockTree} {n k : Nat} {m m' o : Machine} :
      Command.run template table (.blank n) m = .ok () m' →
        Reaches template table rest (n + 1) m' u k o →
          Reaches template table (blank rest) n m u k o
  | line {content : Line} {rest u : BlockTree} {n k : Nat} {m m' o : Machine} :
      Command.run template table (.emit n content) m = .ok () m' →
        Reaches template table rest (n + 1) m' u k o →
          Reaches template table (line content rest) n m u k o
  /-- What stands behind a block is reached when the block succeeds. -/
  | behind {b : Block} {body rest u : BlockTree} {n k : Nat} {m m' o : Machine} :
      Command.run template table
          (.ofBlock (n + body.size + 1) (body.commands (n + 1)) b) m = .ok () m' →
        Reaches template table rest (n + body.size + 2) m' u k o →
          Reaches template table (block b body rest) n m u k o
  /-- The body of a condition is reached in a new frame. -/
  | inside {name : Text} {negate holds : Bool} {body rest u : BlockTree} {n k : Nat}
      {m o : Machine} :
      Machine.condition name m.store = .ok holds m.store → (holds != negate) = true →
        Reaches template table body (n + 1) m.enter u k o →
          Reaches template table (block (.cond name negate) body rest) n m u k o
  /-- The body of a block is reached for a column when it succeeds for those before. -/
  | column {before after : List Column} {column : Column} {body rest u : BlockTree} {n k : Nat}
      {m m' o : Machine} :
      table.columns = before ++ column :: after →
        Machine.overColumns table.columns.length
            (Command.runAll template table (body.commands (n + 1))) 0 before m = .ok () m' →
          Reaches template table body (n + 1)
              (m'.enterColumn table.columns.length before.length column) u k o →
            Reaches template table (block .forEach body rest) n m u k o

/-- The first statement of a tree fails by itself: in completing a line, in rendering and
writing one, or in looking a condition up. -/
inductive Fault : BlockTree → Machine → Error → Prop
  | blank {rest : BlockTree} {m : Machine} {e : Error} :
      Fails (CodeFile.push ['\n']) m.file e → Fault (blank rest) m e
  | line {content : Line} {rest : BlockTree} {m : Machine} {e : Error} :
      Fails (do
        let text ← Machine.onStore content.render
        Machine.onFile (CodeFile.push text)) m e → Fault (line content rest) m e
  | cond {name : Text} {negate : Bool} {body rest : BlockTree} {m : Machine} {e : Error} :
      Fails (Machine.condition name) m.store e → Fault (block (.cond name negate) body rest) m e

/-- The line that a failure of the first statement is reported at, when that statement
stands at a line: for a block it is the line of its end. -/
def reportedAt : BlockTree → Nat → Nat
  | block _ body _, n => n + body.size + 1
  | _, n => n

theorem Fault.runtime (h : tr.Fault m cause) : Runtime cause := by
  cases h with
  | blank h => exact (CodeFile.raises_push _ _ _ h).runtime
  | line h =>
    rcases Steps.fails_bind_iff.1 h with h | ⟨text, m', -, h⟩
    · exact Line.raises_render _ _ _ (Machine.fails_onStore_iff.1 h)
    · exact (CodeFile.raises_push _ _ _ (Machine.fails_onFile_iff.1 h)).runtime
  | cond h => exact Machine.raises_condition _ _ _ h

/-! ## A failure that is reached is reported -/

/-- A statement that fails by itself keeps the commands from going on. -/
theorem Fault.fails (h : tr.Fault m cause) (template : Text) (table : Table) (n : Nat) :
    Fails (Command.runAll template table (tr.commands n)) m
      (.located template (tr.reportedAt n) cause) := by
  have hlocate := fun line => h.runtime.locate template line
  cases h with
  | blank h =>
    refine Steps.fails_bind_iff.2 (.inl (Machine.fails_located_iff.2 ⟨cause, ?_, hlocate n⟩))
    exact Machine.fails_onFile_iff.2 h
  | line h =>
    exact Steps.fails_bind_iff.2 (.inl (Machine.fails_located_iff.2 ⟨cause, h, hlocate n⟩))
  | cond h =>
    refine Steps.fails_bind_iff.2 (.inl (Machine.fails_located_iff.2 ⟨cause, ?_, hlocate _⟩))
    exact Steps.fails_bind_iff.2 (.inl (Machine.fails_onStore_iff.2 h))

/-- A located failure goes through all blocks around it as it is. -/
theorem Reaches.fails {line : Nat} (h : Reaches template table tr n m u k o)
    (hu : Fails (Command.runAll template table (u.commands k)) o (.located template line cause)) :
    Fails (Command.runAll template table (tr.commands n)) m (.located template line cause) := by
  have hkept : ∀ l, (Error.located template line cause).locate template l =
      .located template line cause := fun _ => rfl
  -- along the way to the statement: what stands before it succeeds, what stands around it
  -- passes the failure on
  induction h with
  | here => exact hu
  | blank hrun _ ih => exact (Steps.fails_bind_iff_of_ok hrun).2 (ih hu)
  | line hrun _ ih => exact (Steps.fails_bind_iff_of_ok hrun).2 (ih hu)
  | behind hrun _ ih => exact (Steps.fails_bind_iff_of_ok hrun).2 (ih hu)
  | inside hcondition hholds _ ih =>
    refine Steps.fails_bind_iff.2 (.inl (Machine.fails_located_iff.2 ⟨_, ?_, hkept _⟩))
    have hstore := Machine.onStore_condition_eq_ok_iff.2 ⟨hcondition, rfl⟩
    refine (Steps.fails_bind_iff_of_ok hstore).2 ?_
    rw [if_pos hholds]
    exact (Machine.fails_inFrame_iff (Command.within_runAll template table _)).2 (ih hu)
  | column hcolumns hbefore _ ih =>
    refine Steps.fails_bind_iff.2 (.inl (Machine.fails_located_iff.2 ⟨_, ?_, hkept _⟩))
    rw [Machine.fails_overColumns_iff (Command.within_runAll template table _)]
    refine ⟨_, _, _, _, hcolumns, hbefore, ?_⟩
    rw [Nat.zero_add]
    exact ih hu

/-! ## Every failure is reached -/

/-- A run reaches a statement that fails by itself, and reports an error for it. -/
def Traced (template : Text) (table : Table) (tr : BlockTree) (n : Nat) (m : Machine)
    (e : Error) : Prop :=
  ∃ u k o cause, Reaches template table tr n m u k o ∧ Fault u o cause ∧
    e = .located template (u.reportedAt k) cause

theorem Fault.traced (h : tr.Fault m cause) (template : Text) (table : Table) (n : Nat) :
    Traced template table tr n m (cause.locate template (tr.reportedAt n)) :=
  ⟨tr, n, m, cause, .here tr n m, h, h.runtime.locate template _⟩

/-- What is traced in a part of a tree is traced in the tree, when the part is reached. -/
theorem Traced.of_part {part : BlockTree} (h : Traced template table part k o e)
    (hpart : ∀ {v l p}, Reaches template table part k o v l p →
      Reaches template table tr n m v l p) :
    Traced template table tr n m e := by
  obtain ⟨v, l, p, cause, hreaches, hfault, he⟩ := h
  exact ⟨v, l, p, cause, hpart hreaches, hfault, he⟩

/-- Blocks keep the error of a traced failure. -/
theorem Traced.locate (h : Traced template table tr n m e) (name : Text) (line : Nat) :
    e.locate name line = e := by
  obtain ⟨u, k, o, cause, -, -, rfl⟩ := h
  rfl

theorem traced_of_fails (h : Fails (Command.runAll template table (tr.commands n)) m e) :
    Traced template table tr n m e := by
  induction tr generalizing n m e with
  | nil => exact absurd h (Steps.not_fails_of_ok rfl)
  | blank rest ih =>
    rcases Steps.fails_bind_iff.1 h with h | ⟨_, m', hrun, h⟩
    · obtain ⟨cause, hcause, rfl⟩ := Machine.fails_located_iff.1 h
      have hfault : Fault (blank rest) m cause := .blank (Machine.fails_onFile_iff.1 hcause)
      exact hfault.traced _ _ _
    · exact (ih h).of_part (.blank hrun)
  | line content rest ih =>
    rcases Steps.fails_bind_iff.1 h with h | ⟨_, m', hrun, h⟩
    · obtain ⟨cause, hcause, rfl⟩ := Machine.fails_located_iff.1 h
      have hfault : Fault (line content rest) m cause := .line hcause
      exact hfault.traced _ _ _
    · exact (ih h).of_part (.line hrun)
  | block b body rest ihbody ih =>
    have hwithin := Command.within_runAll template table (body.commands (n + 1))
    rcases Steps.fails_bind_iff.1 h with h | ⟨_, m', hrun, h⟩
    · cases b with
      | forEach =>
        obtain ⟨cause, hcause, rfl⟩ := Machine.fails_located_iff.1 h
        obtain ⟨before, column, after, m', hcolumns, hbefore, hcause⟩ :=
          (Machine.fails_overColumns_iff hwithin).1 hcause
        rw [Nat.zero_add] at hcause
        -- the failure comes from the body, where it got its line
        have htraced := ihbody hcause
        rw [htraced.locate]
        exact htraced.of_part (.column hcolumns hbefore)
      | cond name negate =>
        obtain ⟨cause, hcause, rfl⟩ := Machine.fails_located_iff.1 h
        rcases Steps.fails_bind_iff.1 hcause with hcause | ⟨holds, m', hholds, hcause⟩
        · have hfault : Fault (block (.cond name negate) body rest) m cause :=
            .cond (Machine.fails_onStore_iff.1 hcause)
          exact hfault.traced _ _ _
        · obtain ⟨hcondition, rfl⟩ := Machine.onStore_condition_eq_ok_iff.1 hholds
          split at hcause
          · next heq =>
            have htraced := ihbody ((Machine.fails_inFrame_iff hwithin).1 hcause)
            rw [htraced.locate]
            exact htraced.of_part (.inside hcondition heq)
          · exact absurd hcause (Steps.not_fails_of_ok rfl)
    · exact (ih h).of_part (.behind hrun)

/-- A run fails exactly in the statements that it reaches and that fail by themselves. -/
theorem fails_runAll_iff :
    Fails (Command.runAll template table (tr.commands n)) m e ↔ Traced template table tr n m e := by
  constructor
  · intro h
    exact traced_of_fails h
  · rintro ⟨u, k, o, cause, hreaches, hfault, rfl⟩
    exact hreaches.fails (hfault.fails template table k)

/-! ## Lines of statements -/

/-- A tree is a part of another one: behind some of its statements, and before others. -/
def PartOf (tr : BlockTree) (n : Nat) (u : BlockTree) (k : Nat) : Prop :=
  ∃ before after, tr.word = before ++ (u.word ++ after) ∧ k = n + before.length

theorem PartOf.trans {v : BlockTree} {l : Nat} (h : PartOf tr n u k) (h' : PartOf u k v l) :
    PartOf tr n v l := by
  obtain ⟨before, after, htr, rfl⟩ := h
  obtain ⟨before', after', hu, rfl⟩ := h'
  refine ⟨before ++ before', after' ++ after, ?_, ?_⟩
  · simp only [htr, hu, List.append_assoc]
  · rw [List.length_append, Nat.add_assoc]

theorem partOf_blank (rest : BlockTree) (n : Nat) : PartOf (blank rest) n rest (n + 1) :=
  ⟨[.blank], [], by simp [word], rfl⟩

theorem partOf_line (content : Line) (rest : BlockTree) (n : Nat) :
    PartOf (line content rest) n rest (n + 1) :=
  ⟨[.line content], [], by simp [word], rfl⟩

theorem partOf_body (b : Block) (body rest : BlockTree) (n : Nat) :
    PartOf (block b body rest) n body (n + 1) :=
  ⟨[.opening b], .closing b.kind :: rest.word, by simp [word], rfl⟩

theorem partOf_rest (b : Block) (body rest : BlockTree) (n : Nat) :
    PartOf (block b body rest) n rest (n + body.size + 2) := by
  refine ⟨.opening b :: (body.word ++ [.closing b.kind]), [], by simp [word], ?_⟩
  simp only [List.length_cons, List.length_append, length_word, List.length_nil]
  omega

/-- What a run reaches is a part of the tree, at its line. -/
theorem Reaches.partOf (h : Reaches template table tr n m u k o) : PartOf tr n u k := by
  induction h with
  | here tr => exact ⟨[], [], (List.append_nil _).symm, rfl⟩
  | blank _ _ ih => exact (partOf_blank _ _).trans ih
  | line _ _ ih => exact (partOf_line _ _ _).trans ih
  | behind _ _ ih => exact (partOf_rest _ _ _ _).trans ih
  | inside _ _ _ ih => exact (partOf_body _ _ _ _).trans ih
  | column _ _ _ ih => exact (partOf_body _ _ _ _).trans ih

/-- A statement stands at a line, where lines are counted from one. -/
def StandsAt (lines : List Text) (s : Statement) (k : Nat) : Prop :=
  ∃ i line, k = i + 1 ∧ lines[i]? = some line ∧ Statement.parse line = .ok s

theorem StandsAt.bounds {lines : List Text} {s : Statement} (h : StandsAt lines s k) :
    1 ≤ k ∧ k ≤ lines.length := by
  obtain ⟨i, line, rfl, hline, -⟩ := h
  obtain ⟨hi, -⟩ := List.getElem?_eq_some_iff.1 hline
  omega

theorem standsAt_of_reads {lines : List Text} {before after : List Statement} {s : Statement}
    (h : Reads lines (before ++ s :: after)) : StandsAt lines s (before.length + 1) := by
  have hlt : before.length < (before ++ s :: after).length := by simp
  obtain ⟨line, hline, hparse⟩ := h.exists_getElem? hlt
  refine ⟨before.length, line, rfl, hline, ?_⟩
  rw [hparse, List.getElem_append_right (Nat.le_refl _)]
  simp

variable {lines : List Text}

/-- A part stands at its line. -/
theorem PartOf.standsAt {s : Statement} {w : List Statement} (h : PartOf tr 1 u k)
    (hreads : Reads lines tr.word) (hu : u.word = s :: w) : StandsAt lines s k := by
  obtain ⟨before, after, hword, rfl⟩ := h
  rw [hword, hu, List.cons_append] at hreads
  rw [Nat.add_comm]
  exact standsAt_of_reads hreads

/-- The end of a block stands behind its body. -/
theorem PartOf.standsAt_closing {b : Block} {body rest : BlockTree}
    (h : PartOf tr 1 (block b body rest) k) (hreads : Reads lines tr.word) :
    StandsAt lines (.closing b.kind) (k + body.size + 1) := by
  obtain ⟨before, after, hword, rfl⟩ := h
  have hsplit : tr.word =
      (before ++ .opening b :: body.word) ++ .closing b.kind :: (rest.word ++ after) := by
    simp [hword, word]
  have hk : (before ++ .opening b :: body.word).length = 1 + before.length + body.size := by
    simp only [List.length_append, List.length_cons, length_word]
    omega
  rw [← hk]
  exact standsAt_of_reads (hsplit ▸ hreads)

/-- The first statement of a tree stands at a line, and the end of its block, if it opens
one, at the line that a failure is reported at. -/
def StandsFrom (lines : List Text) : BlockTree → Nat → Prop
  | nil, _ => True
  | blank _, k => StandsAt lines .blank k
  | line content _, k => StandsAt lines (.line content) k
  | block b body rest, k =>
    StandsAt lines (.opening b) k ∧
      StandsAt lines (.closing b.kind) ((block b body rest).reportedAt k)

theorem PartOf.standsFrom (h : PartOf tr 1 u k) (hreads : Reads lines tr.word) :
    u.StandsFrom lines k := by
  cases u with
  | nil => trivial
  | blank => exact h.standsAt hreads rfl
  | line => exact h.standsAt hreads rfl
  | block => exact ⟨h.standsAt hreads rfl, h.standsAt_closing hreads⟩

/-- What fails is reported at a line where a statement stands. -/
theorem Fault.standsAt_reportedAt (hfault : u.Fault o cause) (h : u.StandsFrom lines k) :
    ∃ s, StandsAt lines s (u.reportedAt k) := by
  cases hfault with
  | blank => exact ⟨_, h⟩
  | line => exact ⟨_, h⟩
  | cond => exact ⟨_, h.2⟩

end BlockTree

/-! ## Failures to compile -/

namespace Template

/-- An error with the name of a template, one of its lines, and a cause that has no location
of its own. -/
def PointsAtLine (t : Template) (e : Error) : Prop :=
  ∃ line cause, 1 ≤ line ∧ line ≤ t.lines.length ∧ (∀ name l c, cause ≠ .located name l c) ∧
    e = .located t.name line cause

variable {t : Template} {tables : List Table} {table : Table} {commands : List Command}
  {newFile : Text → Except Error CodeFile} {file : CodeFile} {e : Error} {tr : BlockTree}

theorem pointsAtLine_of_faultAt {i : Nat} {cause : Error} (h : FaultAt t.lines i cause) :
    t.PointsAtLine (.located t.name (i + 1) cause) := by
  have hline : ∃ line, t.lines[i]? = some line := by cases h <;> exact ⟨_, ‹_›⟩
  obtain ⟨line, hline⟩ := hline
  obtain ⟨hi, -⟩ := List.getElem?_eq_some_iff.1 hline
  refine ⟨i + 1, cause, Nat.le_add_left 1 i, hi, ?_, rfl⟩
  rintro name l c rfl
  cases h with
  | unread _ hparse => cases Statement.parse_error hparse

theorem pointsAtLine_of_leaves {w : List Statement} {n : Nat} {b : Block}
    {outer : List (Nat × Block)} {i : Imbalance} (hw : Reads t.lines w)
    (h : Leaves w ((n, b) :: outer)) : t.PointsAtLine (.located t.name n (.unbalanced i)) := by
  have hlength : t.lines.length = w.length := by
    have hlength := congrArg List.length hw
    rwa [List.length_map, List.length_map] at hlength
  refine ⟨n, .unbalanced i, ?_, ?_, ?_, rfl⟩
  · cases h
    omega
  · cases h
    simp [hlength]
  · intro name l c hne
    cases hne

/-- A failure to compile points at a line. -/
theorem pointsAtLine_of_compile (h : Command.compile t.name t.lines = .error e) :
    t.PointsAtLine e := by
  rcases Nesting.fault_of_compile h with
    ⟨i, cause, hfault, -, rfl⟩ | ⟨-, w, n, b, outer, hw, hl, rfl⟩
  · exact pointsAtLine_of_faultAt hfault
  · exact pointsAtLine_of_leaves hw hl

/-! ## Failures to render -/

/-- Running a table fails in a statement that it reaches, or the file cannot be finished. -/
theorem fails_runTable_iff {s : Store} :
    Fails (t.runTable (tr.commands 1) table) ⟨s, file⟩ e ↔
      tr.Traced t.name table 1 ⟨s, file⟩ e ∨
        ∃ m, Command.runAll t.name table (tr.commands 1) ⟨s, file⟩ = .ok () m ∧
          Fails CodeFile.finish m.file e := by
  refine Steps.fails_bind_iff.trans (or_congr BlockTree.fails_runAll_iff ?_)
  constructor
  · rintro ⟨_, m, hrun, hfinish⟩
    exact ⟨m, hrun, Machine.fails_onFile_iff.1 hfinish⟩
  · rintro ⟨m, hrun, hfinish⟩
    exact ⟨(), m, hrun, Machine.fails_onFile_iff.2 hfinish⟩

theorem pointsAtLine_of_traced {m : Machine} (hreads : Reads t.lines tr.word)
    (h : tr.Traced t.name table 1 m e) : t.PointsAtLine e := by
  obtain ⟨u, k, o, cause, hreaches, hfault, rfl⟩ := h
  obtain ⟨s, hs⟩ := hfault.standsAt_reportedAt (hreaches.partOf.standsFrom hreads)
  refine ⟨u.reportedAt k, cause, hs.bounds.1, hs.bounds.2, ?_, rfl⟩
  rintro name l c rfl
  cases hfault.runtime

/-- **Failures point at a line of the template**, with one exception: when all commands of a
table have run, the text that is still pending can fail to fit the indentation, and that
failure has no location. -/
theorem failures_point_at_lines (t : Template) (tables : List Table)
    (newFile : Text → Except Error CodeFile) (file : CodeFile) (e : Error)
    (hfile : newFile t.fileType = .ok file) (h : Fails (t.render tables newFile) Store.empty e) :
    t.PointsAtLine e ∨
      Underflow e ∧ ∃ commands, Command.compile t.name t.lines = .ok commands ∧
        ∃ table ∈ tables, ∃ s m, Command.runAll t.name table commands ⟨s, file⟩ = .ok () m ∧
          m.file.pending ≠ [] ∧ Fails CodeFile.finish m.file e := by
  cases hdynamic : t.isDynamic with
  | false =>
    have hcopy : t.render tables newFile Store.empty = .ok [t.copy] Store.empty := by
      simp [render, compile, hdynamic]
    exact absurd h (Steps.not_fails_of_ok hcopy)
  | true =>
    cases hcompile : Command.compile t.name t.lines with
    | error cause =>
      have hrender : t.render tables newFile Store.empty = .error cause Store.empty := by
        simp [render, compile, hdynamic, hcompile, Except.map]
      obtain rfl := h.unique ⟨_, hrender⟩
      exact .inl (pointsAtLine_of_compile hcompile)
    | ok commands =>
      rw [render_of_compile hdynamic hcompile] at h
      obtain ⟨table, hmem, s, hrun⟩ := exists_of_fails_renderTables hfile describable_empty h
      obtain ⟨tr, hreads, rfl⟩ := BlockTree.exists_reads_of_compile hcompile
      rcases fails_runTable_iff.1 hrun with htraced | ⟨m, hall, hfinish⟩
      · exact .inl (pointsAtLine_of_traced hreads htraced)
      · have hunderflow := CodeFile.raises_finish _ _ hfinish
        refine .inr ⟨hunderflow, _, rfl, table, hmem, s, m, hall, ?_, hfinish⟩
        intro hpending
        have hdone : CodeFile.finish m.file = .ok () m.file := by simp [CodeFile.finish, hpending]
        exact Steps.not_fails_of_ok hdone hfinish

/-- A template whose only line begins with a closing brace and stays pending. -/
def pendingBrace : Template := ⟨"Tpl".toList, "cs".toList, ["\x7d!@TableName@!".toList]⟩

/-- The pending line of a template. -/
def pendingBraceTree : BlockTree :=
  .line ⟨"\x7d!@TableName@!".toList, [.fixed ['\x7d'], .dynamic (.read tableName)]⟩ .nil

theorem reads_pendingBrace : Reads pendingBrace.lines pendingBraceTree.word := by
  unfold Reads
  decide +kernel

/-- The brace fails where the file is finished. -/
theorem fails_pendingBrace :
    Fails (pendingBrace.render [⟨['T'], []⟩] bracedFile) Store.empty
      (.indentUnderflow "\x7dT".toList) := by
  have hcompile := BlockTree.compile_of_reads pendingBrace.name reads_pendingBrace
  have hdynamic : pendingBrace.isDynamic = true := by decide +kernel
  rw [render_of_compile hdynamic hcompile]
  exact ⟨_, rfl⟩

/-- The brace gets no location, for all commands have run. -/
theorem pendingBrace_fails_in_finish :
    ∃ commands, Command.compile pendingBrace.name pendingBrace.lines = .ok commands ∧
      ∃ s m, Command.runAll pendingBrace.name ⟨['T'], []⟩ commands
          ⟨s, .new "cs".toList 4 IndentRule.braces⟩ = .ok () m ∧
        Fails CodeFile.finish m.file (.indentUnderflow "\x7dT".toList) := by
  rcases failures_point_at_lines pendingBrace [⟨['T'], []⟩] bracedFile _ _ rfl fails_pendingBrace
    with ⟨line, cause, -, -, -, h⟩ | ⟨-, commands, hcompile, table, hmem, s, m, hrun, -, hfinish⟩
  · cases h
  · obtain rfl := List.mem_singleton.1 hmem
    exact ⟨commands, hcompile, s, m, hrun, hfinish⟩

/-- So there are failures that point at no line. -/
theorem not_all_failures_point_at_lines :
    ¬ ∀ (t : Template) (tables : List Table) (newFile : Text → Except Error CodeFile)
        (file : CodeFile) (e : Error), newFile t.fileType = .ok file →
          Fails (t.render tables newFile) Store.empty e → t.PointsAtLine e := by
  intro h
  obtain ⟨line, cause, -, -, -, he⟩ := h pendingBrace _ bracedFile _ _ rfl fails_pendingBrace
  cases he

/-! ## The line of a condition -/

/-- **What fails is reported at its own line, but a condition at the end of its block.**
Rendering a table on an empty store fails exactly when a statement that it reaches fails by
itself, or when the file cannot be finished. A line that is emitted is reported where it
stands. A condition is reported where the end of its block stands, below all of its body. -/
theorem failures_of_statements (t : Template) (table : Table) (commands : List Command)
    (newFile : Text → Except Error CodeFile) (file : CodeFile)
    (hcompile : t.compile = .ok (some commands)) (hfile : newFile t.fileType = .ok file) :
    ∃ tr : BlockTree, Reads t.lines tr.word ∧ tr.commands 1 = commands ∧
      ∀ e, Fails (t.render [table] newFile) Store.empty e ↔
        (∃ u k m cause, BlockTree.Reaches t.name table tr 1 ⟨tableStore table, file⟩ u k m ∧
          BlockTree.Fault u m cause ∧ u.StandsFrom t.lines k ∧
            e = .located t.name (u.reportedAt k) cause) ∨
        ∃ m, Command.runAll t.name table commands ⟨tableStore table, file⟩ = .ok () m ∧
          Fails CodeFile.finish m.file e := by
  obtain ⟨hdynamic, hcommands⟩ := compile_eq_some_iff.1 hcompile
  obtain ⟨tr, hreads, rfl⟩ := BlockTree.exists_reads_of_compile hcommands
  refine ⟨tr, hreads, rfl, fun e => ?_⟩
  rw [fails_render_single_iff hdynamic hcommands hfile, fails_runTable_iff]
  refine or_congr_left ?_
  constructor
  · rintro ⟨u, k, m, cause, hreaches, hfault, he⟩
    exact ⟨u, k, m, cause, hreaches, hfault, hreaches.partOf.standsFrom hreads, he⟩
  · rintro ⟨u, k, m, cause, hreaches, hfault, -, he⟩
    exact ⟨u, k, m, cause, hreaches, hfault, he⟩

/-- A template with a condition on the first of its lines. -/
def unknownCondition : Template :=
  ⟨"Tpl".toList, "cs".toList, ["!@if x@!".toList, ['a'], "!@end if@!".toList]⟩

/-- The block of the condition. -/
def unknownConditionTree : BlockTree :=
  .block (.cond ['x'] false) (.line ⟨['a'], [.fixed ['a']]⟩ .nil) .nil

theorem reads_unknownCondition : Reads unknownCondition.lines unknownConditionTree.word := by
  unfold Reads
  decide +kernel

theorem isDynamic_unknownCondition : unknownCondition.isDynamic = true := by decide +kernel

/-- The condition is what a run reaches first. -/
theorem reaches_unknownCondition (start : Machine) :
    BlockTree.Reaches unknownCondition.name ⟨['T'], []⟩ unknownConditionTree 1 start
      unknownConditionTree 1 start :=
  .here _ _ _

theorem fault_unknownCondition (file : CodeFile) :
    unknownConditionTree.Fault ⟨tableStore ⟨['T'], []⟩, file⟩ (.unknownVariable ['x']) :=
  .cond ⟨_, rfl⟩

/-- The condition on line 1 is reported at line 3. -/
theorem fails_unknownCondition :
    Fails (unknownCondition.render [⟨['T'], []⟩] bracedFile) Store.empty
      (.located "Tpl".toList 3 (.unknownVariable ['x'])) := by
  have hcompile := BlockTree.compile_of_reads unknownCondition.name reads_unknownCondition
  obtain ⟨tr, hreads, -, h⟩ := failures_of_statements unknownCondition ⟨['T'], []⟩ _ bracedFile _
    (compile_eq_some_iff.2 ⟨isDynamic_unknownCondition, hcompile⟩) rfl
  obtain rfl := BlockTree.word_injective (hreads.unique reads_unknownCondition)
  have hreaches := reaches_unknownCondition
    ⟨tableStore ⟨['T'], []⟩, .new "cs".toList 4 IndentRule.braces⟩
  refine (h _).2 (.inl ⟨_, 1, _, _, hreaches, fault_unknownCondition _, ?_, rfl⟩)
  exact hreaches.partOf.standsFrom reads_unknownCondition

/-- So a condition is not reported where it stands. -/
theorem not_reported_where_it_stands :
    ¬ ∀ (t : Template) (tr : BlockTree) (table : Table) (newFile : Text → Except Error CodeFile)
        (file : CodeFile) (name : Text) (negate : Bool) (body rest : BlockTree) (k : Nat)
        (m : Machine) (cause : Error),
          t.isDynamic = true → Reads t.lines tr.word → newFile t.fileType = .ok file →
            BlockTree.Reaches t.name table tr 1 ⟨tableStore table, file⟩
              (.block (.cond name negate) body rest) k m →
              Fails (Machine.condition name) m.store cause →
                Fails (t.render [table] newFile) Store.empty (.located t.name k cause) := by
  intro h
  have hclaimed := h unknownCondition unknownConditionTree ⟨['T'], []⟩ bracedFile _ _ _ _ _ 1 _
    (.unknownVariable ['x']) isDynamic_unknownCondition reads_unknownCondition rfl
    (reaches_unknownCondition _) ⟨_, rfl⟩
  rw [fails_render_single_iff isDynamic_unknownCondition
    (BlockTree.compile_of_reads _ reads_unknownCondition) rfl] at hclaimed
  have hactual := (fault_unknownCondition (.new "cs".toList 4 IndentRule.braces)).fails
    unknownCondition.name ⟨['T'], []⟩ 1
  cases hclaimed.unique (Steps.fails_bind_iff.2 (.inl hactual))

end Template

end Stencil
