import Stencil.CodeFile
import Stencil.Proofs.Levels

/-!
# Pushed text

A code file takes text one character at a time: a line feed completes what is pending, and
any other character joins it. So it makes no difference how a text is cut before it is
pushed. The only way to fail is a line that would take the indentation below zero.
-/
namespace Stencil

open Steps (Raises)

namespace CodeFile

/-! ## A line -/

/-- The file with a line at its end, written by its rules, and nothing pending. -/
def withWritten (file : CodeFile) (line : Text) : CodeFile :=
  { file with
    indenter := { file.indenter with level := Indenter.levelBehind file.rules file.level line }
    linesBack := Indenter.written file.rules file.indenter line :: file.linesBack
    pendingBack := [] }

@[simp] theorem rules_withWritten (file : CodeFile) (line : Text) :
    (file.withWritten line).rules = file.rules := rfl

@[simp] theorem unit_withWritten (file : CodeFile) (line : Text) :
    (file.withWritten line).indenter.unit = file.indenter.unit := rfl

@[simp] theorem level_withWritten (file : CodeFile) (line : Text) :
    (file.withWritten line).level = Indenter.levelBehind file.rules file.level line := rfl

@[simp] theorem lines_withWritten (file : CodeFile) (line : Text) :
    (file.withWritten line).lines =
      file.lines ++ [Indenter.written file.rules file.indenter line] := by
  simp [lines, withWritten]

@[simp] theorem pending_withWritten (file : CodeFile) (line : Text) :
    (file.withWritten line).pending = [] := rfl

/-- What is pending and what is added are a line, which is written or refused. Either way
nothing is pending behind it. -/
theorem addLine_eq (text : Text) (file : CodeFile) :
    addLine text file =
      if Indenter.Refuses file.rules file.indenter (file.pending ++ text) then
        .error (.indentUnderflow (Text.trim (file.pending ++ text))) file.withoutPending
      else .ok () (file.withWritten (file.pending ++ text)) := by
  change EStateM.bind (indentLine (file.pending ++ text)) keepLine file.withoutPending = _
  have hrules : file.withoutPending.rules = file.rules := rfl
  have hindenter : file.withoutPending.indenter = file.indenter := rfl
  rw [EStateM.bind, indentLine, hindenter, hrules, Indenter.indent_eq]
  by_cases h : Indenter.Refuses file.rules file.indenter (file.pending ++ text)
  · rw [if_pos h, if_pos h]
    rfl
  · rw [if_neg h, if_neg h]
    rfl

/-- Finishing makes a line of what is pending, if anything is. -/
theorem finish_eq (file : CodeFile) :
    finish file =
      if file.pending = [] then .ok () file
      else if Indenter.Refuses file.rules file.indenter file.pending then
        .error (.indentUnderflow (Text.trim file.pending)) file.withoutPending
      else .ok () (file.withWritten file.pending) := by
  rw [finish, addLine_eq, List.append_nil]
  by_cases h : file.pending = []
  · rw [if_pos h, if_pos (List.isEmpty_iff.2 h)]
  · rw [if_neg h, if_neg fun hempty => h (List.isEmpty_iff.1 hempty)]

/-! ## Character by character -/

/-- Adds one character. -/
def pushChar (c : Char) : Step Unit := if c = '\n' then addLine [] else hold [c]

theorem hold_hold (a b : Text) : (do hold a; hold b) = hold (a ++ b) := by
  funext file
  change EStateM.Result.ok () ((file.withPending a).withPending b) =
    .ok () (file.withPending (a ++ b))
  simp [withPending]

/-- A line takes what is pending with it, whoever put it there. -/
theorem hold_addLine (a b : Text) : (do hold a; addLine b) = addLine (a ++ b) := by
  funext file
  have hpending : (file.withPending a).pending ++ b = file.pending ++ (a ++ b) := by simp
  change (indentLine ((file.withPending a).pending ++ b) >>= keepLine) file.withoutPending =
    (indentLine (file.pending ++ (a ++ b)) >>= keepLine) file.withoutPending
  rw [hpending]

theorem completed?_cons {c : Char} (hc : c ≠ '\n') (p : Text) :
    Text.completed? (c :: p) = (Text.completed? p).map (c :: ·) := by
  cases p with
  | nil => simp [Text.completed?, hc]
  | cons d p =>
    rw [Text.completed?, Text.completed?, List.getLast?_cons_cons, List.dropLast_cons_cons]
    split <;> rfl

theorem pushPiece_cons {c : Char} (hc : c ≠ '\n') (p : Text) :
    pushPiece (c :: p) = (do hold [c]; pushPiece p) := by
  rw [pushPiece, pushPiece, completed?_cons hc]
  cases Text.completed? p with
  | none => exact (hold_hold [c] p).symm
  | some line => exact (hold_addLine [c] line).symm

theorem pushPieces_putInFront (c : Char) (ps : List Text) :
    pushPieces (Text.putInFront c ps) = (do pushChar c; pushPieces ps) := by
  unfold Text.putInFront
  rw [pushChar]
  split
  · rfl
  · next hc =>
    cases ps with
    | nil =>
      have hpiece : pushPiece [c] = hold [c] := by simp [pushPiece, Text.completed?, hc]
      change (do pushPiece [c]; pushPieces []) = _
      rw [hpiece]
    | cons p ps =>
      rw [pushPieces, pushPiece_cons hc, bind_assoc]
      rfl

theorem push_cons (c : Char) (t : Text) : push (c :: t) = (do pushChar c; push t) :=
  pushPieces_putInFront c (Text.pieces t)

/-- Pushing a text is pushing it in any two parts, one after the other. -/
theorem push_append (a b : Text) : push (a ++ b) = (do push a; push b) := by
  induction a with
  | nil => rfl
  | cons c a ih => rw [List.cons_append, push_cons, ih, push_cons, bind_assoc]

end CodeFile

/-! ## Failures -/

/-- A line would take the level below zero. -/
inductive Underflow : Error → Prop
  | intro (line : Text) : Underflow (.indentUnderflow line)

namespace CodeFile

theorem raises_addLine (text : Text) : Raises Underflow (addLine text) := by
  rintro file e ⟨file', h⟩
  rw [addLine_eq] at h
  split at h
  · cases h
    exact .intro _
  · cases h

theorem raises_pushChar (c : Char) : Raises Underflow (pushChar c) := by
  rw [pushChar]
  split
  · exact raises_addLine []
  · exact .of_ok fun _ => rfl

/-- Pushing text fails only where a line does not fit the indentation. -/
theorem raises_push (text : Text) : Raises Underflow (push text) := by
  induction text with
  | nil => exact .pure ()
  | cons c text ih =>
    rw [push_cons]
    exact (raises_pushChar c).bind fun _ => ih

theorem raises_finish : Raises Underflow finish := by
  rintro file e ⟨file', h⟩
  rw [finish_eq] at h
  split at h
  · cases h
  · split at h
    · cases h
      exact .intro _
    · cases h

end CodeFile

end Stencil
