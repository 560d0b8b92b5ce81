import Stencil.Text.Blank

/-!
# Finding and cutting tokens

A token is a text looked for inside another. It can be cut from the front or
the back of a text, exactly or with the case of ASCII letters ignored, and the
first place where it occurs can be found.

## Main definitions

* `dropFront?`, `dropBack?`: what is left of a text once a token is cut off.
* `cut?`: the parts before and after the first occurrence of a token.
* `split`: the fragments between all occurrences of a token.
-/
namespace Stencil.Text

/-- The lower-case form of an ASCII capital; any other character stays. -/
def lowerAscii (c : Char) : Char :=
  if 'A' ≤ c ∧ c ≤ 'Z' then Char.ofNat (c.toNat + 32) else c

/-- Two characters that differ at most in the case of an ASCII letter. -/
def sameLetter (a b : Char) : Bool := lowerAscii a == lowerAscii b

/-- Two texts that differ at most in the case of ASCII letters. -/
def sameLetters : Text → Text → Bool
  | [], [] => true
  | a :: s, b :: t => sameLetter a b && sameLetters s t
  | _, _ => false

/-- The rest of a text behind a token at its front, where `eq` compares characters. -/
def dropFrontBy? (eq : Char → Char → Bool) : Text → Text → Option Text
  | [], t => some t
  | _ :: _, [] => none
  | a :: token, b :: t => if eq a b then dropFrontBy? eq token t else none

def dropFront? (token t : Text) : Option Text := dropFrontBy? (· == ·) token t

def dropBack? (token t : Text) : Option Text :=
  (dropFront? token.reverse t.reverse).map List.reverse

/-- As `dropFront?`, with the case of ASCII letters ignored. -/
def dropFrontAnyCase? (token t : Text) : Option Text := dropFrontBy? sameLetter token t

/-- As `dropBack?`, with the case of ASCII letters ignored. -/
def dropBackAnyCase? (token t : Text) : Option Text :=
  (dropFrontAnyCase? token.reverse t.reverse).map List.reverse

/-- As `cut?`, behind characters that are read already and reversed. -/
def cutAfter? (token read : Text) : Text → Option (Text × Text)
  | [] => (dropFront? token []).map (read.reverse, ·)
  | c :: t =>
    match dropFront? token (c :: t) with
    | some rest => some (read.reverse, rest)
    | none => cutAfter? token (c :: read) t

/-- The parts of a text before and behind the first occurrence of a token. -/
def cut? (token t : Text) : Option (Text × Text) := cutAfter? token [] t

def occurs (token t : Text) : Bool := (cut? token t).isSome

/-! ## What the cuts leave -/

theorem dropFront?_eq_some_iff {token t rest : Text} :
    dropFront? token t = some rest ↔ t = token ++ rest := by
  unfold dropFront?
  induction token generalizing t with
  | nil => simp [dropFrontBy?]
  | cons a token ih =>
    cases t with
    | nil => simp [dropFrontBy?]
    | cons b t =>
      by_cases h : a = b
      · subst h; simp [dropFrontBy?, ih]
      · simp [dropFrontBy?, h, Ne.symm h]

theorem dropBack?_eq_some_iff {token t rest : Text} :
    dropBack? token t = some rest ↔ t = rest ++ token := by
  unfold dropBack?
  constructor
  · intro h
    obtain ⟨r, hr, rfl⟩ := Option.map_eq_some_iff.1 h
    have hreverse := congrArg List.reverse (dropFront?_eq_some_iff.1 hr)
    simpa using hreverse
  · rintro rfl
    rw [show dropFront? token.reverse (rest ++ token).reverse = some rest.reverse from
      dropFront?_eq_some_iff.2 (by simp)]
    simp

/-- What is read already stands in front of what comes before the token. -/
theorem cutAfter?_eq (token read t : Text) :
    cutAfter? token read t =
      (cut? token t).map fun (before, rest) => (read.reverse ++ before, rest) := by
  unfold cut?
  induction t generalizing read with
  | nil => simp [cutAfter?, Function.comp_def]
  | cons c t ih =>
    simp only [cutAfter?]
    cases dropFront? token (c :: t) with
    | some rest => simp
    | none => simp [ih (c :: read), ih [c], Function.comp_def]

@[simp] theorem cut?_nil (token : Text) : cut? token [] = (dropFront? token []).map ([], ·) := rfl

theorem cut?_cons (token t : Text) (c : Char) :
    cut? token (c :: t) =
      match dropFront? token (c :: t) with
      | some rest => some ([], rest)
      | none => (cut? token t).map fun (before, rest) => (c :: before, rest) := by
  rw [cut?, cutAfter?]
  cases dropFront? token (c :: t) with
  | some rest => rfl
  | none => simp [cutAfter?_eq token [c]]

theorem eq_of_cut? {token t before rest : Text} (h : cut? token t = some (before, rest)) :
    t = before ++ token ++ rest := by
  induction t generalizing before with
  | nil =>
    obtain ⟨r, hr, he⟩ := Option.map_eq_some_iff.1 h
    obtain ⟨rfl, rfl⟩ := Prod.mk.inj he
    simpa using dropFront?_eq_some_iff.1 hr
  | cons c t ih =>
    rw [cut?_cons] at h
    split at h
    · next r hr =>
      obtain ⟨rfl, rfl⟩ := Prod.mk.inj (Option.some.inj h)
      simpa using dropFront?_eq_some_iff.1 hr
    · obtain ⟨⟨b, r⟩, hr, he⟩ := Option.map_eq_some_iff.1 h
      obtain ⟨rfl, rfl⟩ := Prod.mk.inj he
      simp [ih hr]

/-- A token occurs in a text iff the text has it between two others. -/
theorem occurs_iff {token t : Text} : occurs token t = true ↔ ∃ b r, t = b ++ token ++ r := by
  unfold occurs
  constructor
  · intro h
    obtain ⟨⟨b, r⟩, hbr⟩ := Option.isSome_iff_exists.1 h
    exact ⟨b, r, eq_of_cut? hbr⟩
  · rintro ⟨b, r, rfl⟩
    induction b with
    | nil =>
      cases hr : token ++ r with
      | nil =>
        have hnil : token = [] := by simp_all
        subst hnil
        simp_all [dropFront?, dropFrontBy?]
      | cons c t =>
        have hfront : dropFront? token (c :: t) = some r := dropFront?_eq_some_iff.2 hr.symm
        simp [hr, cut?_cons, hfront]
    | cons c b ih =>
      simp only [List.cons_append, cut?_cons]
      split
      · rfl
      · simpa using ih

theorem length_of_cut? {token t before rest : Text} (h : cut? token t = some (before, rest)) :
    t.length = before.length + token.length + rest.length := by
  simp [eq_of_cut? h, Nat.add_assoc]

/-- The fragments of a text between the occurrences of a token, from left to
right. The empty token leaves the text whole. -/
def split (token t : Text) : List Text :=
  if _some : token = [] then [t]
  else
    match _cut : cut? token t with
    | none => [t]
    | some (before, rest) => before :: split token rest
termination_by t.length
decreasing_by
  have hlength := length_of_cut? _cut
  have hpos := List.length_pos_iff.2 _some
  omega

end Stencil.Text
