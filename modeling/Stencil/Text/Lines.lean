import Stencil.Text.Blank

/-!
# Lines

A line ends at a line feed, and one carriage return right before the line feed
belongs to the line end. A text that ends in a line feed has no empty last line.
-/
namespace Stencil.Text

/-- Puts a character in front of pieces. A line feed ends a piece of its own. -/
def putInFront (c : Char) (ps : List Text) : List Text :=
  if c = '\n' then ['\n'] :: ps
  else
    match ps with
    | [] => [[c]]
    | p :: ps => (c :: p) :: ps

/-- The pieces of a text, each but the last ending in its line feed. -/
def pieces (t : Text) : List Text := t.foldr putInFront []

@[simp] theorem pieces_nil : pieces [] = [] := rfl

@[simp] theorem pieces_cons (c : Char) (t : Text) :
    pieces (c :: t) = putInFront c (pieces t) := rfl

theorem flatten_putInFront (c : Char) (ps : List Text) :
    (putInFront c ps).flatten = c :: ps.flatten := by
  unfold putInFront
  split
  · next h => simp [h]
  · split <;> simp

/-- Cutting into pieces loses nothing. -/
theorem flatten_pieces (t : Text) : (pieces t).flatten = t := by
  induction t with
  | nil => rfl
  | cons c t ih => rw [pieces_cons, flatten_putInFront, ih]

/-- A piece without its line feed, if it ends in one. -/
def completed? (piece : Text) : Option Text :=
  if piece.getLast? = some '\n' then some piece.dropLast else none

/-- The content of a piece: its line end is dropped, a carriage return before
the line feed included. -/
def lineOfPiece (piece : Text) : Text :=
  match completed? piece with
  | none => piece
  | some line => if line.getLast? = some '\r' then line.dropLast else line

def lines (t : Text) : List Text := (pieces t).map lineOfPiece

/-- Lines written one under the other, each with its line feed. -/
def unlines (ls : List Text) : Text := ls.flatMap (· ++ ['\n'])

end Stencil.Text
