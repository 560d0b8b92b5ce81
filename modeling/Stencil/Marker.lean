import Stencil.Error
import Stencil.Text.Search

/-!
# Markers in template lines

A template line is fixed text with expressions between the markers `!@` and
`@!`. Blanks at the two ends of a line are dropped, since indentation is
decided elsewhere; the text between and around markers keeps its blanks.

## Main definitions

* `Marker.Part`: a piece of fixed text, or an expression.
* `Marker.parts`: the parts of a line.
-/
namespace Stencil.Marker

def opening : Text := "!@".toList

def closing : Text := "@!".toList

inductive Part where
  | fixed (text : Text)
  | dynamic (text : Text)
  deriving DecidableEq, Repr

def occursIn (line : Text) : Bool := Text.occurs opening line

/-- The text before the first opening marker and the text behind it. A closing
marker that comes first, or alone, closes nothing. -/
def cutOpening? (rest : Text) : Except Unit (Option (Text × Text)) :=
  match Text.cut? opening rest, Text.cut? closing rest with
  | none, none => .ok none
  | none, some _ => .error ()
  | some (before, behind), none => .ok (some (before, behind))
  | some (before, behind), some (beforeClosing, _) =>
    if beforeClosing.length < before.length then .error () else .ok (some (before, behind))

/-- A fixed part, unless it is empty. -/
def fixedPart (text : Text) : List Part := if text.isEmpty then [] else [.fixed text]

theorem length_of_cutOpening? {rest before behind : Text}
    (h : cutOpening? rest = .ok (some (before, behind))) : behind.length + 2 ≤ rest.length := by
  have key : Text.cut? opening rest = some (before, behind) := by
    unfold cutOpening? at h
    split at h
    · cases h
    · cases h
    · next hc _ => simp_all
    · next hc _ =>
      split at h
      · cases h
      · simp_all
  have hlength := Text.length_of_cut? key
  have htoken : opening.length = 2 := rfl
  omega

/-- The parts of the rest of a line, where `line` is the whole of it. -/
def partsOf (line rest : Text) : Except Error (List Part) :=
  match _front : cutOpening? rest with
  | .error () => .error (.unterminatedMarker line)
  | .ok none => .ok (fixedPart (Text.trimEnd rest))
  | .ok (some (before, behind)) =>
    match _back : Text.cut? closing behind with
    | none => .error (.unterminatedMarker line)
    | some (inner, rest') =>
      if Text.occurs opening inner then .error (.nestedMarker line)
      else
        match partsOf line rest' with
        | .ok parts => .ok (fixedPart before ++ .dynamic (Text.trim inner) :: parts)
        | .error e => .error e
termination_by rest.length
decreasing_by
  have hfront := length_of_cutOpening? _front
  have hback := Text.length_of_cut? _back
  omega

def parts (line : Text) : Except Error (List Part) := partsOf line (Text.trimStart line)

end Stencil.Marker
