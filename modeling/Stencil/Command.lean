import Stencil.Statement

/-!
# Command trees

The lines of a template, with the bodies of blocks folded into their block
commands. Every command carries the line that a failure in it is reported at:
its own line, and for a block the line of its end.

Folding goes through the lines once, with a stack of the blocks that are open.
A close must be of the kind of the innermost open block, and at the end no
block may be open.

## Main definitions

* `Command`: a command with its line.
* `Command.compile`: the commands of a template.
-/
namespace Stencil

inductive Command where
  /-- Completes the current output line. -/
  | blank (line : Nat)
  /-- Renders a line into the output. -/
  | emit (line : Nat) (content : Line)
  /-- Repeats its body for every column. -/
  | forEach (line : Nat) (body : List Command)
  /-- Runs its body if a variable differs from `negate`. -/
  | cond (line : Nat) (name : Text) (negate : Bool) (body : List Command)
  deriving Repr

namespace Command

/-- The command of a block whose end stands on a line. -/
def ofBlock (line : Nat) (body : List Command) : Block → Command
  | .forEach => .forEach line body
  | .cond name negate => .cond line name negate body

/-- A block that is open: what it says, the line that opened it, and the
commands of its body so far, the last one first. -/
structure OpenBlock where
  block : Block
  line : Nat
  body : List Command
  deriving Repr

/-- What is folded so far: the finished top-level commands, the last one first,
and the open blocks, the innermost first. -/
structure Fold where
  done : List Command
  stack : List OpenBlock
  deriving Repr

namespace Fold

def start : Fold := ⟨[], []⟩

def add (f : Fold) (command : Command) : Fold :=
  match f.stack with
  | [] => { f with done := command :: f.done }
  | b :: bs => { f with stack := { b with body := command :: b.body } :: bs }

/-- Folds one statement that stands on a line. -/
def step (f : Fold) (line : Nat) : Statement → Except Error Fold
  | .blank => .ok (f.add (.blank line))
  | .line content => .ok (f.add (.emit line content))
  | .opening block => .ok { f with stack := ⟨block, line, []⟩ :: f.stack }
  | .closing kind =>
    match f.stack with
    | [] => .error (.unbalanced (.nothingOpen kind))
    | b :: bs =>
      if b.block.kind = kind then
        .ok (add { f with stack := bs } (ofBlock line b.body.reverse b.block))
      else .error (.unbalanced (.wrongKind kind b.block.kind b.line))

/-- The commands, when no block is open. -/
def finish (template : Text) (f : Fold) : Except Error (List Command) :=
  match f.stack with
  | [] => .ok f.done.reverse
  | b :: _ => .error (.located template b.line (.unbalanced (.neverClosed b.block.kind)))

/-- Folds the lines of a template from a line number on. -/
def lines (template : Text) (f : Fold) (number : Nat) : List Text → Except Error Fold
  | [] => .ok f
  | line :: rest =>
    match (Statement.parse line).bind (f.step number) with
    | .ok f => lines template f (number + 1) rest
    | .error e => .error (e.locate template number)

end Fold

def compile (template : Text) (lines : List Text) : Except Error (List Command) := do
  let f ← Fold.start.lines template 1 lines
  f.finish template

end Command
end Stencil
