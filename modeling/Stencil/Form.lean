import Stencil.Error
import Stencil.Identifier

/-!
# Forms of lines

A form says which lines a command is written on and which parameters they
carry. The detecting forms turn a whole fragment into one parameter. The
structural ones cut their tokens off and hand the rest to an inner form.

`accepts` is the test and `parse` the reading; `parse` answers a line that is
not accepted with a mismatch in the name of the form that was asked.

## Main definitions

* `Form`: the forms.
* `Form.accepts`, `Form.parse`: test and reading.
* `Form.literals`, `Form.values`: the forms of literals and of values.
-/
namespace Stencil

inductive Form where
  /-- A blank line. -/
  | blank
  /-- An integer, written without a point. -/
  | integer
  /-- A double, written with a point. -/
  | double
  /-- A truth value. -/
  | bool
  /-- A text in double quotes, without escapes. -/
  | quoted
  /-- An identifier, read as a reference to a variable. -/
  | identifier
  /-- Any fragment, kept as it is. -/
  | text
  /-- A token at the front. -/
  | leading (token : Text) (inner : Form)
  /-- A token at the back. -/
  | trailing (token : Text) (inner : Form)
  /-- Fragments between the occurrences of a token. -/
  | separated (token : Text) (inner : Form)
  /-- A fragment between two tokens. -/
  | enclosed (front back : Text) (inner : Form)
  /-- Any line that is not blank, without the blanks around it. -/
  | fallback (inner : Form)
  /-- What the inner form accepts, kept as it is written. -/
  | verbatim (inner : Form)
  /-- The first alternative that accepts. -/
  | firstOf (alternatives : List Form)
  deriving Repr

namespace Form

/-- The name under which a form reports a mismatch. -/
def name : Form → Text
  | .blank => "null".toList
  | .integer => "integer".toList
  | .double => "double".toList
  | .bool => "bool".toList
  | .quoted => "string".toList
  | .identifier => "identifier".toList
  | .text => "text".toList
  | .leading _ _ => "prefix".toList
  | .trailing _ _ => "postfix".toList
  | .separated _ _ => "infix".toList
  | .enclosed _ _ _ => "surround".toList
  | .fallback _ => "fallback".toList
  | .verbatim _ => "verbatim".toList
  | .firstOf _ => "first-of".toList

/-! ## Cutting a line -/

/-- What follows a token at the front of a line, without blanks. -/
def afterFront? (token line : Text) : Option Text :=
  (Text.dropFrontAnyCase? token (Text.trim line)).map Text.trim

/-- What precedes a token at the back of a line, without blanks. -/
def beforeBack? (token line : Text) : Option Text :=
  (Text.dropBackAnyCase? token (Text.trim line)).map Text.trim

/-- What stands between two tokens, when it is not blank. The back token is
looked for behind the front one, so the two never overlap. -/
def between? (front back line : Text) : Option Text :=
  match (Text.dropFrontAnyCase? front (Text.trim line)).bind (Text.dropBackAnyCase? back) with
  | none => none
  | some content =>
    let content := Text.trim content
    if content.isEmpty then none else some content

/-- The fragments of a line between the occurrences of a token. Blanks around a
fragment are dropped, and so are blank fragments. -/
def fragments (token line : Text) : List Text :=
  ((Text.split token line).map Text.trim).filter (!·.isEmpty)

/-! ## Detecting values -/

def integer? (line : Text) : Option Int :=
  if '.' ∈ line then none else Number.integer? (Text.trim line)

def double? (line : Text) : Option Double :=
  if '.' ∈ Text.trim line then Number.double? (Text.trim line) else none

def bool? (line : Text) : Option Bool :=
  if Text.sameLetters (Text.trim line) "true".toList then some true
  else if Text.sameLetters (Text.trim line) "false".toList then some false
  else none

/-- The text between the outer quotes of a fragment. -/
def quoted? (line : Text) : Option Text :=
  (Text.dropFront? ['"'] (Text.trim line)).bind (Text.dropBack? ['"'])

/-! ## Test and reading -/

mutual

def accepts : Form → Text → Bool
  | .blank, line => Text.isBlankText line
  | .integer, line => '.' ∉ Text.trim line && (Number.integer? (Text.trim line)).isSome
  | .double, line => (double? line).isSome
  | .bool, line => (bool? line).isSome
  | .quoted, line => (quoted? line).isSome
  | .identifier, line => isIdentifier (Text.trim line)
  | .text, _ => true
  | .leading token inner, line =>
    match afterFront? token line with
    | some rest => accepts inner rest
    | none => false
  | .trailing token inner, line =>
    match beforeBack? token line with
    | some rest => accepts inner rest
    | none => false
  | .separated token inner, line =>
    !token.isEmpty && Text.occurs token line && !(fragments token line).isEmpty &&
      (fragments token line).all fun part => accepts inner part
  | .enclosed front back inner, line =>
    match between? front back line with
    | some content => accepts inner content
    | none => false
  | .fallback inner, line => !Text.isBlankText line && accepts inner (Text.trim line)
  | .verbatim inner, line => accepts inner line
  | .firstOf alternatives, line => anyAccepts alternatives line

def anyAccepts : List Form → Text → Bool
  | [], _ => false
  | form :: forms, line => accepts form line || anyAccepts forms line

end

/-- The parameters of all fragments, or the first error. -/
def parseAll (parse : Text → Except Error (List Param)) : List Text → Except Error (List Param)
  | [] => .ok []
  | part :: parts => do
    let params ← parse part
    let more ← parseAll parse parts
    return params ++ more

mutual

/-- The parameters that a line carries. -/
def parse : Form → Text → Except Error (List Param)
  | .blank, line =>
    if Text.isBlankText line then .ok [] else .error (.mismatch (name .blank) line)
  | .integer, line =>
    match integer? line with
    | some n => .ok [.literal (.int n)]
    | none => .error (.mismatch (name .integer) line)
  | .double, line =>
    match double? line with
    | some x => .ok [.literal (.double x)]
    | none => .error (.mismatch (name .double) line)
  | .bool, line =>
    match bool? line with
    | some b => .ok [.literal (.bool b)]
    | none => .error (.mismatch (name .bool) line)
  | .quoted, line =>
    match quoted? line with
    | some t => .ok [.literal (.string t)]
    | none => .error (.mismatch (name .quoted) line)
  | .identifier, line =>
    if isIdentifier (Text.trim line) then .ok [.variable (Text.trim line)]
    else .error (.mismatch (name .identifier) line)
  | .text, line => .ok [.literal (.string line)]
  | .leading token inner, line =>
    match afterFront? token line with
    | some rest =>
      if accepts inner rest then parse inner rest
      else .error (.mismatch (name (.leading token inner)) line)
    | none => .error (.mismatch (name (.leading token inner)) line)
  | .trailing token inner, line =>
    match beforeBack? token line with
    | some rest =>
      if accepts inner rest then parse inner rest
      else .error (.mismatch (name (.trailing token inner)) line)
    | none => .error (.mismatch (name (.trailing token inner)) line)
  | .separated token inner, line =>
    if accepts (.separated token inner) line then
      parseAll (fun part => parse inner part) (fragments token line)
    else .error (.mismatch (name (.separated token inner)) line)
  | .enclosed front back inner, line =>
    match between? front back line with
    | some content =>
      if accepts inner content then parse inner content
      else .error (.mismatch (name (.enclosed front back inner)) line)
    | none => .error (.mismatch (name (.enclosed front back inner)) line)
  | .fallback inner, line =>
    if accepts (.fallback inner) line then parse inner (Text.trim line)
    else .error (.mismatch (name (.fallback inner)) line)
  | .verbatim inner, line =>
    if accepts inner line then .ok [.literal (.string (Text.trim line))]
    else .error (.mismatch (name (.verbatim inner)) line)
  | .firstOf alternatives, line =>
    match parseFirst? alternatives line with
    | some result => result
    | none => .error (.mismatch (name (.firstOf alternatives)) line)

/-- The reading of the first alternative that accepts a line. -/
def parseFirst? : List Form → Text → Option (Except Error (List Param))
  | [], _ => none
  | form :: forms, line =>
    if accepts form line then some (parse form line) else parseFirst? forms line

end

/-! ## The forms of literals and values -/

/-- A literal. -/
def literals : Form := .firstOf [.integer, .double, .bool, .quoted]

/-- A literal, or the name of a variable. -/
def values : Form := .firstOf [.integer, .double, .bool, .quoted, .identifier]

end Form
end Stencil
