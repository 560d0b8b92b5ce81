import Stencil.Expression
import Stencil.Marker

/-!
# Compiled template lines

A line is compiled once: its expressions are parsed, its fixed text is kept.
Rendering evaluates the expressions in order. The rendered text ends in a line
feed unless the last part is an expression, whose value then runs on into the
next line.
-/
namespace Stencil

inductive Piece where
  | fixed (text : Text)
  | dynamic (expression : Expression)
  deriving DecidableEq, Repr

/-- The piece for a part of a line. -/
def Piece.ofPart : Marker.Part → Except Error Piece
  | .fixed text => .ok (.fixed text)
  | .dynamic text => (Expression.parse text).map .dynamic

def Piece.render : Piece → Store.Step Text
  | .fixed text => return text
  | .dynamic expression => expression.eval

/-- A compiled template line. -/
structure Line where
  raw : Text
  pieces : List Piece
  deriving DecidableEq, Repr

namespace Line

/-- The pieces for the parts of a line, or the first error. -/
def piecesOf : List Marker.Part → Except Error (List Piece)
  | [] => .ok []
  | part :: parts => do
    let piece ← Piece.ofPart part
    let pieces ← piecesOf parts
    return piece :: pieces

def compile (raw : Text) : Except Error Line := do
  let parts ← Marker.parts raw
  let pieces ← piecesOf parts
  return ⟨raw, pieces⟩

/-- Whether the last piece is an expression. -/
def endsDynamic (line : Line) : Bool :=
  match line.pieces.getLast? with
  | some (.dynamic _) => true
  | _ => false

def renderPieces : List Piece → Store.Step Text
  | [] => return []
  | piece :: pieces => do
    let text ← piece.render
    let more ← renderPieces pieces
    return text ++ more

/-- What the text of a line ends in. -/
def ending (line : Line) : Text := if line.endsDynamic then [] else ['\n']

/-- The text of a line. -/
def render (line : Line) : Store.Step Text := do
  let text ← renderPieces line.pieces
  return text ++ line.ending

end Line
end Stencil
