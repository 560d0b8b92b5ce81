import Stencil.Indent
import Stencil.Text.Lines

/-!
# Code files

A code file collects rendered text. Text arrives in pieces of any size; each
completed line is indented and kept, and what follows the last line feed stays
pending until more text completes it or the file is finished.

Both the lines and the pending text grow at their ends, so they are held back to
front, and a step costs no more than the text it adds. `CodeFile.lines` and
`CodeFile.pending` read them in their order, and determine what is held.
-/
namespace Stencil

/-- An output file that is being written. -/
structure CodeFile where
  fileType : Text
  rules : List IndentRule
  indenter : Indenter
  /-- The finished lines, the last one first. -/
  linesBack : List Text
  /-- The pending text, its last character first. -/
  pendingBack : Text
  deriving DecidableEq, Repr

namespace CodeFile

def new (fileType : Text) (unit : Nat) (rules : List IndentRule) : CodeFile :=
  ⟨fileType, rules, .new unit, [], []⟩

def level (file : CodeFile) : Nat := file.indenter.level

def lines (file : CodeFile) : List Text := file.linesBack.reverse

def pending (file : CodeFile) : Text := file.pendingBack.reverse

/-- The text of the file: its lines, and what is pending. -/
def contents (file : CodeFile) : Text := Text.unlines file.lines ++ file.pending

/-! ## Growing -/

def withLine (file : CodeFile) (line : Text) : CodeFile :=
  { file with linesBack := line :: file.linesBack }

def withPending (file : CodeFile) (text : Text) : CodeFile :=
  { file with pendingBack := text.reverse ++ file.pendingBack }

def withoutPending (file : CodeFile) : CodeFile := { file with pendingBack := [] }

@[simp] theorem lines_new (fileType : Text) (unit : Nat) (rules : List IndentRule) :
    (new fileType unit rules).lines = [] := rfl

@[simp] theorem pending_new (fileType : Text) (unit : Nat) (rules : List IndentRule) :
    (new fileType unit rules).pending = [] := rfl

@[simp] theorem lines_withLine (file : CodeFile) (line : Text) :
    (file.withLine line).lines = file.lines ++ [line] := by simp [lines, withLine]

@[simp] theorem pending_withLine (file : CodeFile) (line : Text) :
    (file.withLine line).pending = file.pending := rfl

@[simp] theorem lines_withPending (file : CodeFile) (text : Text) :
    (file.withPending text).lines = file.lines := rfl

@[simp] theorem pending_withPending (file : CodeFile) (text : Text) :
    (file.withPending text).pending = file.pending ++ text := by simp [pending, withPending]

@[simp] theorem lines_withoutPending (file : CodeFile) :
    file.withoutPending.lines = file.lines := rfl

@[simp] theorem pending_withoutPending (file : CodeFile) : file.withoutPending.pending = [] := rfl

/-- Files agree when all that can be read of them agrees. -/
theorem eq_of_lines_of_pending {a b : CodeFile} (type : a.fileType = b.fileType)
    (rules : a.rules = b.rules) (indenter : a.indenter = b.indenter)
    (lines : a.lines = b.lines) (pending : a.pending = b.pending) : a = b := by
  cases a
  cases b
  simp_all [CodeFile.lines, CodeFile.pending]

/-! ## Steps -/

abbrev Step := EStateM Error CodeFile

/-- Takes the pending text out of the file. -/
def takePending : Step Text := fun file => .ok file.pending file.withoutPending

/-- Indents a line by the rules of the file. -/
def indentLine (line : Text) : Step Text := fun file =>
  match file.indenter.indent file.rules line with
  | .ok out indenter => .ok out { file with indenter := indenter }
  | .error e indenter => .error e { file with indenter := indenter }

/-- Keeps a line at the end of the file. -/
def keepLine (line : Text) : Step Unit := fun file => .ok () (file.withLine line)

/-- Adds one complete line, with the pending text before it. -/
def addLine (text : Text) : Step Unit := do
  let before ← takePending
  let line ← indentLine (before ++ text)
  keepLine line

def hold (text : Text) : Step Unit := fun file => .ok () (file.withPending text)

/-- Adds a piece of text: a line if it ends in a line feed, else pending text. -/
def pushPiece (piece : Text) : Step Unit :=
  match Text.completed? piece with
  | some line => addLine line
  | none => hold piece

def pushPieces : List Text → Step Unit
  | [] => return ()
  | piece :: pieces => do
    pushPiece piece
    pushPieces pieces

/-- Adds text. Each line feed completes a line. -/
def push (text : Text) : Step Unit := pushPieces (Text.pieces text)

/-- Completes the pending text, if there is any, as a last line. -/
def finish : Step Unit := fun file =>
  if file.pending.isEmpty then .ok () file else addLine [] file

end CodeFile
end Stencil
