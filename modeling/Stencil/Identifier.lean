import Stencil.Text.Blank

/-!
# Identifiers

An identifier is an ASCII letter or an underscore, and then any number of ASCII
letters, digits and underscores.
-/
namespace Stencil

/-- The characters that may stand first in an identifier. -/
def isIdentifierStart (c : Char) : Bool :=
  ('A' ≤ c && c ≤ 'Z') || ('a' ≤ c && c ≤ 'z') || c == '_'

def isIdentifierRest (c : Char) : Bool := isIdentifierStart c || ('0' ≤ c && c ≤ '9')

/-- Whether a text is an identifier. Blanks around it are not allowed. -/
def isIdentifier : Text → Bool
  | [] => false
  | c :: t => isIdentifierStart c && t.all isIdentifierRest

end Stencil
