import Stencil.Form

/-!
# Languages of commands

A construct is one way to write a command: a form, and a rule that makes a
command of the parameters. The rule may decline them, which counts as if the
form had not accepted the line, or fail for good. A language is a list of
constructs, and the first one that takes a line decides.
-/
namespace Stencil

/-- One construct of a language. -/
structure Construct (α : Type) where
  name : Text
  form : Form
  build : List Param → Except Error (Option α)

namespace Construct
variable {α : Type}

def accepts (c : Construct α) (line : Text) : Bool := c.form.accepts line

/-- The command on a line, or nothing when the construct does not take it. -/
def take? (c : Construct α) (line : Text) : Except Error (Option α) :=
  if c.accepts line then
    match c.form.parse line with
    | .ok params => c.build params
    | .error e => .error e
  else .ok none

/-- The command on a line. A line that is not taken is a mismatch in the name
of the construct. -/
def parse (c : Construct α) (line : Text) : Except Error α :=
  match c.take? line with
  | .ok (some command) => .ok command
  | .ok none => .error (.mismatch c.name line)
  | .error e => .error e

end Construct

/-- A list of constructs, the first that takes a line decides. -/
abbrev Language (α : Type) := List (Construct α)

namespace Language
variable {α : Type}

def names (l : Language α) : List Text := l.map (·.name)

/-- The answer of the first construct that takes a line or fails on it. -/
def take? : Language α → Text → Except Error (Option α)
  | [], _ => .ok none
  | c :: l, line =>
    match c.take? line with
    | .ok none => take? l line
    | result => result

def parse (l : Language α) (line : Text) : Except Error α :=
  match take? l line with
  | .ok (some command) => .ok command
  | .ok none => .error (.unknownCommand (Text.trim line))
  | .error e => .error e

end Language
end Stencil
