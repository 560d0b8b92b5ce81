import Stencil.Line

/-!
# Statements

Every line of a template is one statement: a blank line, the opening or the
close of a block, or a line to be emitted. The keywords of blocks stand between
markers, and the case of their ASCII letters does not matter. A line that looks
like a block but does not fit one is read as a line to be emitted.
-/
namespace Stencil

/-- What a block opening says. -/
inductive Block where
  /-- `!@foreach column@!` -/
  | forEach
  /-- `!@if name@!` and `!@if !name@!` -/
  | cond (name : Text) (negate : Bool)
  deriving DecidableEq, Repr

def Block.kind : Block → BlockKind
  | .forEach => .forEach
  | .cond _ _ => .cond

inductive Statement where
  | blank
  | line (content : Line)
  | opening (block : Block)
  | closing (kind : BlockKind)
  deriving DecidableEq, Repr

namespace Statement

def blockKind? (word : Text) : Option BlockKind :=
  [BlockKind.forEach, .cond].find? fun kind => Text.sameLetters word kind.keyword

/-- Blocks repeat for the columns of a table, and for nothing else. -/
def ofTarget : List Param → Option Statement
  | .variable name :: _ =>
    if Text.sameLetters name "column".toList || Text.sameLetters name "columns".toList then
      some (.opening .forEach)
    else none
  | _ => none

/-- A condition is a name, or an exclamation mark and a name. -/
def ofCondition : List Param → Option Statement
  | .literal (.string text) :: _ =>
    let (negate, name) :=
      match text with
      | '!' :: rest => (true, Text.trim rest)
      | _ => (false, text)
    if isIdentifier name then some (.opening (.cond name negate)) else none
  | _ => none

/-- The keyword behind an end says which kind of block it closes. -/
def ofEnd : List Param → Option Statement
  | .variable name :: _ => (blockKind? name).map .closing
  | _ => none

/-- Any other text is a line, when it compiles. -/
def ofText : List Param → Except Error (Option Statement)
  | .literal (.string text) :: _ => (Line.compile text).map fun line => some (.line line)
  | _ => .ok none

def language : Language Statement :=
  [{ name := "blank".toList
     form := .blank
     build := fun _ => .ok (some .blank) },
   { name := "foreach".toList
     form := .enclosed "!@foreach ".toList Marker.closing .identifier
     build := fun params => .ok (ofTarget params) },
   { name := "if".toList
     form := .enclosed "!@if ".toList Marker.closing .text
     build := fun params => .ok (ofCondition params) },
   { name := "end".toList
     form := .enclosed "!@end ".toList Marker.closing .identifier
     build := fun params => .ok (ofEnd params) },
   { name := "line".toList
     form := .fallback .text
     build := ofText }]

def parse (line : Text) : Except Error Statement := language.parse line

end Statement
end Stencil
