import Stencil.Language
import Stencil.Store

/-!
# Expressions

The commands between the markers of a template line: declarations, assignments,
steps up and down, literals, and reads of variables. Evaluating one yields the
text that takes its place. A literal renders as it is written, except that a
quoted text loses its quotes; only a read renders a value of the store, and the
three commands that change the store render nothing.

## Main definitions

* `Expression`: the commands.
* `Expression.language`: how they are written.
* `Expression.eval`: what they do to a store.
-/
namespace Stencil

/-- A command between markers. -/
inductive Expression where
  /-- `int x`, `bool flag = true`, `string name = TableName` -/
  | declare (kind : Kind) (name : Text) (init : Option Param)
  /-- `x = 5`, `x = other` -/
  | assign (name : Text) (value : Param)
  /-- `i++`, `i--` -/
  | step (name : Text) (delta : Int)
  /-- A literal, as it is to be rendered. -/
  | literal (text : Text)
  /-- The name of a variable. -/
  | read (name : Text)
  deriving DecidableEq, Repr

namespace Expression

/-! ## How expressions are written -/

/-- The declaration of a kind: a name, and perhaps a value to start from. -/
def ofDeclaration (kind : Kind) : List Param → Option Expression
  | [.variable name] => some (.declare kind name none)
  | [.variable name, init] => some (.declare kind name (some init))
  | _ => none

def ofAssignment : List Param → Option Expression
  | [.variable name, value] => some (.assign name value)
  | _ => none

def ofStep (delta : Int) : List Param → Option Expression
  | .variable name :: _ => some (.step name delta)
  | _ => none

def ofLiteral : List Param → Option Expression
  | .literal (.string text) :: _ => some (.literal text)
  | _ => none

def ofName : List Param → Option Expression
  | .variable name :: _ => some (.read name)
  | _ => none

/-- The construct that declares variables of a kind. -/
def declaration (kind : Kind) : Construct Expression where
  name := "declare".toList
  form := .leading (kind.name ++ [' ']) (.firstOf [.identifier, .separated ['='] .values])
  build params := .ok (ofDeclaration kind params)

def assignment : Construct Expression where
  name := "assign".toList
  form := .separated ['='] .values
  build params := .ok (ofAssignment params)

def stepping (token : Text) (delta : Int) : Construct Expression where
  name := "step".toList
  form := .trailing token .identifier
  build params := .ok (ofStep delta params)

def literals : Construct Expression where
  name := "literal".toList
  form := .firstOf [.quoted, .verbatim .literals]
  build params := .ok (ofLiteral params)

def reading : Construct Expression where
  name := "read".toList
  form := .identifier
  build params := .ok (ofName params)

def language : Language Expression :=
  [declaration .int, declaration .bool, declaration .string, assignment,
    stepping "++".toList 1, stepping "--".toList (-1), literals, reading]

def parse (text : Text) : Except Error Expression := language.parse text

/-! ## What expressions do -/

/-- The value of a parameter, as a step that leaves the store alone. -/
def resolve (p : Param) : Store.Step Value := fun s =>
  match s.resolve p with
  | .ok v => .ok v s
  | .error e => .error e s

/-- The integer that a name denotes. -/
def intOf (name : Text) : Store.Step Int := fun s =>
  match s.value? name with
  | some (.int n) => .ok n s
  | some v => .error (.kindMismatch name v.type .int) s
  | none => .error (.unknownVariable name) s

/-- An integer moved by a delta, unless it leaves the range. -/
def move (name : Text) (n delta : Int) : Store.Step Int := fun s =>
  if Number.InRange (n + delta) then .ok (n + delta) s else .error (.overflow name) s

/-- Evaluates an expression and yields its text. -/
def eval : Expression → Store.Step Text
  | .declare kind name none => do
    Store.declare name kind kind.zero
    return []
  | .declare kind name (some init) => do
    let value ← resolve init
    Store.declare name kind value
    return []
  | .assign name param => do
    let value ← resolve param
    Store.assign name value
    return []
  | .step name delta => do
    let n ← intOf name
    let next ← move name n delta
    Store.assign name (.int next)
    return []
  | .literal text => return text
  | .read name => fun s =>
    match s.value? name with
    | some v => .ok v.text s
    | none => .error (.unknownVariable name) s

end Expression
end Stencil
