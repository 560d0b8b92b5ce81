import Stencil.Proofs.Pushing

/-!
# The contents of code files

Each line of a code file is a line of the text that was pushed, behind the indentation of its
depth, and the depths can be read off the lines again. So however a text is cut before it is
pushed, the contents without the indentation that was added are that text, with a line feed
behind its last line. What is lost is lost by a line that is refused: it takes what was pending
with it, and leaves the lines and the level as they were.

## Main definitions

* `Indenter.indented`: lines as they are written.
* `Indenter.unindent`, `Indenter.unindented`: lines and texts without added indentation.
* `CodeFile.Cut`: files whose lines have no line feeds.
* `CodeFile.Spells`: files to which a text was pushed.
* `CodeFile.Reached`, `CodeFile.Survives`: files that calls lead to, and what a failing line
  leaves of them.
-/
namespace Stencil

/-! ## Lines and pieces -/

namespace Text

/-- A line and its line feed are the first piece of a text. -/
theorem pieces_append_feed {l : Text} (h : '\n' ∉ l) (t : Text) :
    pieces (l ++ '\n' :: t) = (l ++ ['\n']) :: pieces t := by
  induction l with
  | nil => rfl
  | cons c l ih =>
    rw [List.mem_cons, not_or] at h
    have hc : ¬ c = '\n' := Ne.symm h.1
    rw [List.cons_append, pieces_cons, ih h.2, putInFront, if_neg hc]
    rfl

/-- Lines written one under the other are the pieces of what is written. -/
theorem pieces_unlines {ls : List Text} (h : ∀ l ∈ ls, '\n' ∉ l) :
    pieces (unlines ls) = ls.map (· ++ ['\n']) := by
  induction ls with
  | nil => rfl
  | cons l ls ih =>
    obtain ⟨hl, hls⟩ := List.forall_mem_cons.1 h
    have hcons : unlines (l :: ls) = l ++ '\n' :: unlines ls := by simp [unlines]
    rw [hcons, pieces_append_feed hl, ih hls, List.map_cons]

/-- Lines written one under the other are nothing, or end in a line feed. -/
theorem unlines_eq_nil_or (ls : List Text) :
    unlines ls = [] ∨ (unlines ls).getLast? = some '\n' := by
  rcases List.eq_nil_or_concat ls with rfl | ⟨front, l, rfl⟩
  · exact .inl rfl
  · exact .inr (by simp [unlines])

end Text

/-! ## Indentation put on and taken away -/

namespace Indenter

variable {rules : List IndentRule} {s t : Text}

/-- Lines as they are written one after the other, from the level before the first of them on. -/
def indented (rules : List IndentRule) (unit : Nat) : Nat → List Text → List Text
  | _, [] => []
  | level, line :: lines =>
    written rules ⟨level, unit⟩ line :: indented rules unit (levelBehind rules level line) lines

/-- Lines without the indentation that was added to those that are not blank. -/
def unindent (rules : List IndentRule) (unit : Nat) : Nat → List Text → List Text
  | _, [] => []
  | level, line :: lines =>
    (if Text.isBlankText line then line else line.drop (depth rules level line * unit)) ::
      unindent rules unit (levelBehind rules level line) lines

/-- A text without the indentation that was added to its lines that are not blank. -/
def unindented (rules : List IndentRule) (unit : Nat) (text : Text) : Text :=
  (unindent rules unit 0 (Text.pieces text)).flatten

theorem indented_concat (rules : List IndentRule) (unit level : Nat) (lines : List Text)
    (line : Text) :
    indented rules unit level (lines ++ [line]) =
      indented rules unit level lines ++
        [written rules ⟨lines.foldl (levelBehind rules) level, unit⟩ line] := by
  induction lines generalizing level with
  | nil => rfl
  | cons first lines ih =>
    rw [List.cons_append, indented, ih, indented]
    rfl

theorem action?_congr (h : Text.trim s = Text.trim t) : action? rules s = action? rules t := by
  rw [action?, action?, Text.isBlankText, Text.isBlankText, h]

/-- Neither its indentation nor its line feed counts for what a line calls for. -/
theorem trim_written_append_feed (rules : List IndentRule) (i : Indenter) (line : Text) :
    Text.trim (written rules i line ++ ['\n']) = Text.trim line := by
  have hfeed : ['\n'].all Text.isBlank = true := rfl
  unfold written
  split
  · exact Text.trim_append_append (w := []) rfl hfeed line
  · refine Text.trim_append_append ?_ hfeed line
    rw [List.all_replicate]
    simp [Text.isBlank]

/-- What was written is regained from the level before it. -/
theorem unindent_indented (rules : List IndentRule) (unit level : Nat) (lines : List Text) :
    unindent rules unit level ((indented rules unit level lines).map (· ++ ['\n'])) =
      lines.map (· ++ ['\n']) := by
  induction lines generalizing level with
  | nil => rfl
  | cons line lines ih =>
    have htrim := trim_written_append_feed rules ⟨level, unit⟩ line
    have haction := @action?_congr rules _ _ htrim
    have hblank : Text.isBlankText (written rules ⟨level, unit⟩ line ++ ['\n']) =
        Text.isBlankText line := by
      rw [Text.isBlankText, htrim, Text.isBlankText]
    rw [indented, List.map_cons, unindent, hblank, depth, levelBehind, haction, ← depth,
      ← levelBehind, ih, List.map_cons, written]
    by_cases h : Text.isBlankText line = true
    · rw [if_pos h, if_pos h]
    · rw [if_neg h, if_neg h, List.append_assoc, List.drop_left' List.length_replicate]

end Indenter

/-! ## Files to which text is pushed -/

namespace CodeFile

variable {rules : List IndentRule} {unit : Nat} {file file' mid : CodeFile} {text more : Text}
  {c : Char} {e : Error}

/-- A file whose text is cut at every line feed. -/
structure Cut (file : CodeFile) : Prop where
  lines : ∀ line ∈ file.lines, '\n' ∉ line
  pending : '\n' ∉ file.pending

theorem Cut.withPending (h : file.Cut) (hc : c ≠ '\n') : (file.withPending [c]).Cut := by
  refine ⟨h.lines, ?_⟩
  rw [pending_withPending, List.mem_append, List.mem_singleton, not_or]
  exact ⟨h.pending, hc.symm⟩

/-- A line without line feeds leaves the text cut. -/
theorem Cut.withWritten (h : file.Cut) {line : Text} (hline : '\n' ∉ line) :
    (file.withWritten line).Cut := by
  refine ⟨fun l hl => ?_, List.not_mem_nil⟩
  rw [lines_withWritten, List.mem_append, List.mem_singleton] at hl
  rcases hl with hl | rfl
  · exact h.lines l hl
  · unfold Indenter.written
    split
    · exact hline
    · simp [hline]

/-- What a finished file holds is its lines, each with its line feed. -/
theorem pieces_contents (h : file.Cut) (hpending : file.pending = []) :
    Text.pieces file.contents = file.lines.map (· ++ ['\n']) := by
  rw [contents, hpending, List.append_nil, Text.pieces_unlines h.lines]

/-- A file to which a text was pushed from the start: its lines are those of the text as they
are written, and the rest of the text is pending. -/
structure Spells (rules : List IndentRule) (unit : Nat) (file : CodeFile) (text : Text) : Prop where
  rules_eq : file.rules = rules
  cut : file.Cut
  spelled : ∃ lines, file.lines = Indenter.indented rules unit 0 lines ∧
    file.indenter = ⟨lines.foldl (Indenter.levelBehind rules) 0, unit⟩ ∧
      Text.unlines lines ++ file.pending = text

namespace Spells

theorem new (fileType : Text) (unit : Nat) (rules : List IndentRule) :
    Spells rules unit (CodeFile.new fileType unit rules) [] :=
  ⟨rfl, ⟨by simp, by simp⟩, [], rfl, rfl, rfl⟩

theorem withPending (h : Spells rules unit file text) (hc : c ≠ '\n') :
    Spells rules unit (file.withPending [c]) (text ++ [c]) := by
  obtain ⟨lines, hlines, hindenter, rfl⟩ := h.spelled
  refine ⟨h.rules_eq, h.cut.withPending hc, lines, hlines, hindenter, ?_⟩
  rw [pending_withPending, List.append_assoc]

/-- A line feed makes a line of what is pending. -/
theorem withWritten (h : Spells rules unit file text) :
    Spells rules unit (file.withWritten file.pending) (text ++ ['\n']) := by
  obtain ⟨lines, hlines, hindenter, rfl⟩ := h.spelled
  refine ⟨h.rules_eq, h.cut.withWritten h.cut.pending, lines ++ [file.pending], ?_, ?_, ?_⟩
  · rw [lines_withWritten, hlines, hindenter, h.rules_eq, Indenter.indented_concat]
  · rw [List.foldl_append, CodeFile.withWritten, level, hindenter, h.rules_eq]
    rfl
  · simp [Text.unlines]

theorem pushChar (h : Spells rules unit file text) (hpush : pushChar c file = .ok () file') :
    Spells rules unit file' (text ++ [c]) := by
  rw [CodeFile.pushChar] at hpush
  split at hpush
  · next hc =>
    rw [addLine_eq, List.append_nil] at hpush
    split at hpush
    · cases hpush
    · cases hpush
      exact hc ▸ h.withWritten
  · next hc =>
    cases hpush
    exact h.withPending hc

/-- Pushing adds to the text that a file spells. -/
theorem push (h : Spells rules unit file text) (hpush : push more file = .ok () file') :
    Spells rules unit file' (text ++ more) := by
  induction more generalizing file text with
  | nil =>
    cases hpush
    rwa [List.append_nil]
  | cons c more ih =>
    rw [push_cons] at hpush
    obtain ⟨_, mid, hc, hmore⟩ := Steps.run_bind_eq_ok_iff.1 hpush
    rw [List.append_cons]
    exact ih (h.pushChar hc) hmore

/-- Nothing is pending behind a line feed, and in the beginning. -/
theorem pending_eq_nil_iff (h : Spells rules unit file text) :
    file.pending = [] ↔ text = [] ∨ text.getLast? = some '\n' := by
  obtain ⟨lines, -, -, rfl⟩ := h.spelled
  constructor
  · intro hpending
    rw [hpending, List.append_nil]
    exact Text.unlines_eq_nil_or lines
  · rintro (hnil | hlast)
    · exact (List.append_eq_nil_iff.1 hnil).2
    · refine Decidable.byContradiction fun hne => ?_
      rw [List.getLast?_append, Option.or_of_isSome (List.getLast?_isSome.2 hne)] at hlast
      exact h.cut.pending (List.mem_of_getLast? hlast)

/-- Where nothing is pending, the contents are the lines of the text as they are written, and
without their indentation they are the text. -/
theorem contents_eq (h : Spells rules unit file text) (hpending : file.pending = []) :
    (∃ lines, Text.unlines lines = text ∧
      file.contents = Text.unlines (Indenter.indented rules unit 0 lines)) ∧
    Indenter.unindented rules unit file.contents = text := by
  obtain ⟨lines, hlines, -, rfl⟩ := h.spelled
  rw [hpending, List.append_nil]
  refine ⟨⟨lines, rfl, ?_⟩, ?_⟩
  · rw [contents, hlines, hpending, List.append_nil]
  · rw [Indenter.unindented, pieces_contents h.cut hpending, hlines, Indenter.unindent_indented,
      Text.unlines, List.flatMap_def]

/-- Finishing adds the line feed that the last line lacks. -/
theorem finish (h : Spells rules unit file text) (hfinish : finish file = .ok () file') :
    file'.pending = [] ∧ Spells rules unit file'
      (text ++ if text ≠ [] ∧ text.getLast? ≠ some '\n' then ['\n'] else []) := by
  have hlacks : (text ≠ [] ∧ text.getLast? ≠ some '\n') ↔ file.pending ≠ [] := by
    rw [← not_or, ← h.pending_eq_nil_iff]
  rw [finish_eq] at hfinish
  split at hfinish
  · next hpending =>
    cases hfinish
    rw [if_neg fun hne => hlacks.1 hne hpending, List.append_nil]
    exact ⟨hpending, h⟩
  · next hpending =>
    rw [if_pos (hlacks.2 hpending)]
    split at hfinish
    · cases hfinish
    · cases hfinish
      exact ⟨rfl, h.withWritten⟩

end Spells

/-- Pushes texts one after the other. -/
def pushAll (texts : List Text) : Step Unit := texts.forM push

/-- However it is cut, it is the same text. -/
theorem pushAll_eq (texts : List Text) : pushAll texts = push texts.flatten := by
  induction texts with
  | nil => rfl
  | cons text texts ih =>
    rw [List.flatten_cons, push_append, ← ih]
    rfl

/-- **A file depends on the text that is pushed and not on how it is cut, and keeps all of
it.** Pushing two texts joined is pushing the first and then, if that succeeds, the second,
with the same outcome and the same file in the end. Push some texts to an empty file and finish
it. The whole text is then these texts joined, with a line feed behind them if they do not end
in one. The contents are its lines, each that is not blank behind the indentation of its depth,
and without the indentation they are the whole text. Finishing again changes nothing. -/
theorem contents_regained (fileType : Text) (unit : Nat) (rules : List IndentRule) :
    (∀ (file : CodeFile) (a b : Text), push (a ++ b) file =
      match push a file with
      | .ok () mid => push b mid
      | .error e mid => .error e mid) ∧
    ∀ texts file, (do pushAll texts; finish) (new fileType unit rules) = .ok () file →
      let whole := texts.flatten ++
        if texts.flatten ≠ [] ∧ texts.flatten.getLast? ≠ some '\n' then ['\n'] else []
      (∃ lines, Text.unlines lines = whole ∧
        file.contents = Text.unlines (Indenter.indented rules unit 0 lines)) ∧
      Indenter.unindented rules unit file.contents = whole ∧ finish file = .ok () file := by
  refine ⟨fun file a b => ?_, fun texts file h => ?_⟩
  · rw [push_append]
    change EStateM.bind (push a) (fun _ => push b) file = _
    rw [EStateM.bind]
    cases push a file <;> rfl
  · obtain ⟨_, mid, hpush, hfinish⟩ := Steps.run_bind_eq_ok_iff.1 h
    rw [pushAll_eq] at hpush
    obtain ⟨hpending, hspells⟩ := ((Spells.new fileType unit rules).push hpush).finish hfinish
    obtain ⟨hlines, hwhole⟩ := hspells.contents_eq hpending
    refine ⟨hlines, hwhole, ?_⟩
    rw [finish_eq, if_pos hpending]

/-! ## What a failing line leaves -/

/-- The files that calls lead to from an empty one, whether they fail or not. -/
inductive Reached : CodeFile → Prop
  | new (fileType : Text) (unit : Nat) (rules : List IndentRule) :
    Reached (CodeFile.new fileType unit rules)
  | push {file : CodeFile} (h : Reached file) (text : Text) :
    Reached (Steps.after (CodeFile.push text) file)
  | addLine {file : CodeFile} (h : Reached file) (text : Text) :
    Reached (Steps.after (CodeFile.addLine text) file)
  | finish {file : CodeFile} (h : Reached file) : Reached (Steps.after CodeFile.finish file)

theorem withoutPending_eq_iff : file.withoutPending = file ↔ file.pending = [] := by
  constructor
  · intro h
    rw [← h, pending_withoutPending]
  · intro h
    exact eq_of_lines_of_pending rfl rfl rfl rfl h.symm

/-- A failing line leaves the file without what was pending. -/
theorem eq_withoutPending_of_error
    (h : addLine text file = .error e file' ∨ finish file = .error e file') :
    Underflow e ∧ file' = file.withoutPending := by
  rcases h with h | h
  · rw [addLine_eq] at h
    split at h
    · cases h
      exact ⟨.intro _, rfl⟩
    · cases h
  · rw [finish_eq] at h
    split at h
    · cases h
    · split at h
      · cases h
        exact ⟨.intro _, rfl⟩
      · cases h

/-- What is left of a file when a line fails: its lines and its level, but nothing of what was
pending. -/
structure Survives (file file' : CodeFile) : Prop where
  lines : file'.lines = file.lines
  level : file'.level = file.level
  contents : file'.contents = Text.unlines file.lines
  same : file' = file ↔ file.pending = []

/-- **A failing line takes what was pending with it.** When a line that is added, or the last one
of a file that is finished, does not fit the indentation, the lines and the level are as
before, and the contents are the lines alone. So the file is as it was exactly when nothing
was pending. -/
theorem failing_line_takes_pending
    (h : addLine text file = .error e file' ∨ finish file = .error e file') :
    Underflow e ∧ Survives file file' := by
  obtain ⟨he, rfl⟩ := eq_withoutPending_of_error h
  refine ⟨he, rfl, rfl, ?_, withoutPending_eq_iff⟩
  rw [contents, pending_withoutPending, List.append_nil, lines_withoutPending]

/-- A file in which a closing brace is pending and nothing is open. -/
def unopened : CodeFile :=
  Steps.after (push "\x7dx".toList) (new "out".toList 4 IndentRule.braces)

theorem finish_unopened :
    finish unopened = .error (.indentUnderflow "\x7dx".toList) unopened.withoutPending := by
  have hpending : unopened.pending = "\x7dx".toList := by decide +kernel
  have hrefuses : Indenter.Refuses unopened.rules unopened.indenter "\x7dx".toList := by
    decide +kernel
  rw [finish_eq, hpending, if_neg (by decide), if_pos hrefuses]
  rfl

/-- The brace is lost. -/
theorem unopened_loses_brace :
    finish unopened = .error (.indentUnderflow "\x7dx".toList) unopened.withoutPending ∧
      unopened.contents = "\x7dx".toList ∧ unopened.withoutPending.contents = [] := by
  have hsurvives : Survives unopened unopened.withoutPending :=
    (@failing_line_takes_pending unopened _ [] _ (.inr finish_unopened)).2
  exact ⟨finish_unopened, by decide +kernel, hsurvives.contents.trans (by decide +kernel)⟩

/-- Not every failing line leaves its file as it was. -/
theorem not_all_failing_lines_leave_file :
    ¬ ∀ (file : CodeFile), Reached file → ∀ (text : Text) (e : Error) (file' : CodeFile),
      addLine text file = .error e file' ∨ finish file = .error e file' →
        file'.lines = file.lines ∧ file'.pending = file.pending ∧ file'.level = file.level := by
  intro h
  have hreached : Reached unopened := .push (.new _ _ _) _
  have hpending := (h unopened hreached [] _ _ (.inr finish_unopened)).2.1
  exact absurd hpending (by decide +kernel)

end CodeFile
end Stencil
