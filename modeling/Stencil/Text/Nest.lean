/-!
# Bracketed sequences

A sequence of tokens with square and curly brackets becomes a tree in which a
bracket and its partner enclose a group. Every bracket needs a partner of its
own shape, and groups lie inside one another or apart.
-/
namespace Stencil

inductive Bracket where
  | square | curly
  deriving DecidableEq, Repr

/-- A bracket, or any other token. -/
inductive Lexeme (τ : Type) where
  | opening (b : Bracket)
  | closing (b : Bracket)
  | token (t : τ)
  deriving Repr

/-- A token, or the sequence inside a pair of brackets. -/
inductive Nest (τ : Type) where
  | token (t : τ)
  | group (b : Bracket) (inner : List (Nest τ))
  deriving Repr

namespace Nest
variable {τ : Type}

/-- Groups the lexemes behind those already read. `here` is what stands in the
innermost open group so far, `outer` the groups around it with what stands in
them; both are reversed. -/
def groupAfter? : List (Nest τ) → List (Bracket × List (Nest τ)) → List (Lexeme τ) →
    Option (List (Nest τ))
  | here, [], [] => some here.reverse
  | _, _ :: _, [] => none
  | here, outer, .token t :: rest => groupAfter? (.token t :: here) outer rest
  | here, outer, .opening b :: rest => groupAfter? [] ((b, here) :: outer) rest
  | _, [], .closing _ :: _ => none
  | here, (b, before) :: outer, .closing b' :: rest =>
    if b = b' then groupAfter? (.group b here.reverse :: before) outer rest else none

def ofLexemes? (lexemes : List (Lexeme τ)) : Option (List (Nest τ)) := groupAfter? [] [] lexemes

/-- The number of groups around the innermost token. -/
def depth : Nest τ → Nat
  | .token _ => 0
  | .group _ inner => depthOf inner + 1
where
  /-- The greatest depth in a sequence. -/
  depthOf : List (Nest τ) → Nat
    | [] => 0
    | n :: ns => max n.depth (depthOf ns)

end Nest
end Stencil
