import Stencil.Error
import Stencil.Matcher

/-!
# Indentation

An indenter holds the current level and writes lines behind that many units of
spaces. The first rule that accepts a line says how the level changes: before
the line is written, after it, or for this line only. A blank line meets no
rule and is left as it is. The level never drops below zero; a line that would
make it do so fails.

## Main definitions

* `IndentAction`, `IndentRule`: how lines change the level.
* `Indenter.indent`: indents one line.
-/
namespace Stencil

/-- What a rule does to the level. -/
inductive IndentAction where
  | preIndent | postIndent | preDeIndent | postDeIndent | temporaryIndent | temporaryDeIndent
  deriving DecidableEq, Repr, Inhabited

namespace IndentAction

def name : IndentAction → Text
  | .preIndent => "pre_indent".toList
  | .postIndent => "post_indent".toList
  | .preDeIndent => "pre_de_indent".toList
  | .postDeIndent => "post_de_indent".toList
  | .temporaryIndent => "temporary_indent".toList
  | .temporaryDeIndent => "temporary_de_indent".toList

def ofName? (word : Text) : Option IndentAction :=
  [preIndent, postIndent, preDeIndent, postDeIndent, temporaryIndent, temporaryDeIndent].find?
    (·.name == word)

end IndentAction

/-- A rule: lines that its matcher accepts change the level by its action. -/
structure IndentRule where
  matcher : Matcher
  action : IndentAction
  deriving DecidableEq, Repr

namespace IndentRule

/-- A rule that ignores case. -/
def ofText (kind : MatchKind) (text : Text) (action : IndentAction) : IndentRule :=
  ⟨⟨kind, text, false⟩, action⟩

/-- The rules for languages that put blocks in braces, in match order. -/
def braces : List IndentRule :=
  [ofText .front "\x7d else".toList .temporaryDeIndent,
    ofText .back ['{'] .postIndent,
    ofText .front "\x7d;".toList .preDeIndent,
    ofText .front ['}'] .preDeIndent]

end IndentRule

/-- The current level, and the number of spaces of one level. -/
structure Indenter where
  level : Nat
  unit : Nat
  deriving DecidableEq, Repr

namespace Indenter

def new (unit : Nat) : Indenter := ⟨0, unit⟩

abbrev Step := EStateM Error Indenter

def increment : Step Unit := fun i => .ok () { i with level := i.level + 1 }

/-- Goes one level down, or fails on behalf of a line at level zero. -/
def decrement (line : Text) : Step Unit := fun i =>
  match i.level with
  | 0 => .error (.indentUnderflow line) i
  | n + 1 => .ok () { i with level := n }

/-- A line behind the spaces of the current level. They are counted without a bound;
`Indenter.Fits` says when a text has room for them. -/
def write (line : Text) : Step Text := fun i =>
  .ok (List.replicate (i.level * i.unit) ' ' ++ line) i

/-- The action of the first rule that accepts a line. -/
def actionOf? (rules : List IndentRule) (line : Text) : Option IndentAction :=
  (rules.find? fun rule => rule.matcher.accepts line).map (·.action)

/-- Writes a line as an action demands. Failures name `trimmed`. -/
def apply (trimmed line : Text) : Option IndentAction → Step Text
  | none => write line
  | some .preIndent => do
    increment
    write line
  | some .postIndent => do
    let out ← write line
    increment
    return out
  | some .preDeIndent => do
    decrement trimmed
    write line
  | some .postDeIndent => do
    let out ← write line
    decrement trimmed
    return out
  | some .temporaryIndent => do
    increment
    let out ← write line
    decrement trimmed
    return out
  | some .temporaryDeIndent => do
    decrement trimmed
    let out ← write line
    increment
    return out

/-- Indents a line by the first rule that accepts it without the blanks around it. -/
def indent (rules : List IndentRule) (line : Text) : Step Text :=
  let trimmed := Text.trim line
  if trimmed.isEmpty then return line
  else apply trimmed line (actionOf? rules trimmed)

end Indenter
end Stencil
