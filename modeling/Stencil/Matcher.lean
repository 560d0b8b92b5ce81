import Stencil.Text.Case
import Stencil.Text.Search

/-!
# Matching lines

A matcher looks for a text at the front of a line, at its back, anywhere in it,
or compares it with the whole line. Unless it is case sensitive, the line and
the text are both lower-cased first, each as a whole.
-/
namespace Stencil

/-- Where a matcher looks for its text. -/
inductive MatchKind where
  | front | back | anywhere | whole
  deriving DecidableEq, Repr, Inhabited

def MatchKind.name : MatchKind → Text
  | .front => "prefix".toList
  | .back => "postfix".toList
  | .anywhere => "infix".toList
  | .whole => "equals".toList

def MatchKind.ofName? (word : Text) : Option MatchKind :=
  [MatchKind.front, .back, .anywhere, .whole].find? (·.name == word)

structure Matcher where
  kind : MatchKind
  text : Text
  caseSensitive : Bool
  deriving DecidableEq, Repr

namespace Matcher

/-- A text as the matcher compares it. -/
def fold (m : Matcher) (t : Text) : Text := if m.caseSensitive then t else Text.lower t

/-- Whether a text stands in a line where a kind of matcher looks. -/
def holdsAt : MatchKind → Text → Text → Bool
  | .front, text, line => (Text.dropFront? text line).isSome
  | .back, text, line => (Text.dropBack? text line).isSome
  | .anywhere, text, line => Text.occurs text line
  | .whole, text, line => text == line

def accepts (m : Matcher) (line : Text) : Bool := holdsAt m.kind (m.fold m.text) (m.fold line)

end Matcher
end Stencil
