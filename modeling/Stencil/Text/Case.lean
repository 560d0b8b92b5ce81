import Stencil.Text.CaseTable
import Stencil.Text.Blank

/-!
# Full lower-casing

The lower-case form of a text follows the Unicode default mapping. Each
character has a form of its own, with two exceptions: the capital I with a dot
becomes two characters, and the capital sigma becomes a final sigma at the end
of a word. A sigma ends a word when a cased character comes before it and none
comes after it, case-ignorable characters being looked through on both sides.
-/
namespace Stencil.Text

def inRanges (ranges : List (Nat × Nat)) (n : Nat) : Bool :=
  ranges.any fun (first, last) => first ≤ n && n ≤ last

/-- The characters that have a case and are not looked through. -/
def isCased (c : Char) : Bool := inRanges CaseTable.casedRanges c.toNat

/-- The characters that a case context looks through. -/
def isCaseIgnorable (c : Char) : Bool := inRanges CaseTable.ignorableRanges c.toNat

/-- The lower-case form of a character outside any context. -/
def lowerChar (c : Char) : Text :=
  let n := c.toNat
  if n < 0x80 then [if 0x41 ≤ n ∧ n ≤ 0x5A then Char.ofNat (n + 32) else c]
  else if n = 0x130 then ['i', Char.ofNat 0x307]
  else
    match CaseTable.lowerRuns.find? fun (first, last, step, _) =>
        first ≤ n && n ≤ last && (n - first) % step == 0 with
    | some (_, _, _, shift) => [Char.ofNat (n + shift).toNat]
    | none => [c]

/-- Whether the first character that is not looked through has a case. -/
def facesCased (t : Text) : Bool :=
  match t.dropWhile isCaseIgnorable with
  | [] => false
  | c :: _ => isCased c

def capitalSigma : Char := Char.ofNat 0x3A3

/-- The form of a capital sigma between the reversed text before it and the text behind it. -/
def lowerSigma (before behind : Text) : Char :=
  if facesCased before && !facesCased behind then Char.ofNat 0x3C2 else Char.ofNat 0x3C3

/-- The lower-case form of a character between the reversed text before it and
the text behind it. -/
def lowerBetween (before : Text) (c : Char) (behind : Text) : Text :=
  if c = capitalSigma then [lowerSigma before behind] else lowerChar c

/-- Lower-cases a text that follows the reversed text `before`, whose own
lower-case form is `done`, reversed. -/
def lowerOnto (done before : Text) : Text → Text
  | [] => done.reverse
  | c :: t => lowerOnto ((lowerBetween before c t).reverse ++ done) (c :: before) t

/-- The lower-case form of a text that follows the reversed text `before`. -/
def lowerAfter (before t : Text) : Text := lowerOnto [] before t

/-- What is done already stays in front. -/
theorem lowerOnto_eq (done before t : Text) :
    lowerOnto done before t = done.reverse ++ lowerAfter before t := by
  unfold lowerAfter
  induction t generalizing done before with
  | nil => simp [lowerOnto]
  | cons c t ih =>
    rw [lowerOnto, lowerOnto, ih, ih (_ ++ [])]
    simp

@[simp] theorem lowerAfter_nil (before : Text) : lowerAfter before [] = [] := rfl

theorem lowerAfter_cons (before t : Text) (c : Char) :
    lowerAfter before (c :: t) = lowerBetween before c t ++ lowerAfter (c :: before) t := by
  rw [lowerAfter, lowerOnto, lowerOnto_eq]
  simp

def lower (t : Text) : Text := lowerAfter [] t

end Stencil.Text
