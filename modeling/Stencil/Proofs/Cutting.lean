import Stencil.Text.Search

/-!
# Blanks and first occurrences

What trimming takes off a text, and where the first occurrence of a token
stands. Trimming removes blanks and nothing else, so padding a text with blanks
does not change it. A cut finds the leftmost occurrence of its token; for a
token of two different characters that is the one with no other before it.
-/
namespace Stencil.Text

variable {t u w before rest : Text}

/-! ## Trimming -/

theorem trimStart_append_of_blank (hw : w.all isBlank = true) (t : Text) :
    trimStart (w ++ t) = trimStart t := by
  have hw' : ∀ c ∈ w, isBlank c = true := by simpa using hw
  exact List.dropWhile_append_of_pos hw'

theorem trimEnd_append_of_blank (hw : w.all isBlank = true) (t : Text) :
    trimEnd (t ++ w) = trimEnd t := by
  have hw' : w.reverse.all isBlank = true := by rwa [List.all_reverse]
  have hreverse := trimStart_append_of_blank hw' t.reverse
  simpa [trimEnd, trimStart] using hreverse

theorem trimStart_eq_self (h : ∀ c, t.head? = some c → isBlank c = false) : trimStart t = t := by
  cases t with
  | nil => rfl
  | cons c t => simp [trimStart, h c rfl]

theorem trimEnd_eq_self (h : ∀ c, t.getLast? = some c → isBlank c = false) : trimEnd t = t := by
  have hreverse : trimStart t.reverse = t.reverse := trimStart_eq_self (by simpa using h)
  rw [trimEnd, show t.reverse.dropWhile isBlank = t.reverse from hreverse, List.reverse_reverse]

theorem isBlank_of_head?_trimStart {c : Char} (h : (trimStart t).head? = some c) :
    isBlank c = false := by
  have hhead := List.head?_dropWhile_not isBlank t
  rw [show t.dropWhile isBlank = trimStart t from rfl, h] at hhead
  exact hhead

theorem isBlank_of_getLast?_trimEnd {c : Char} (h : (trimEnd t).getLast? = some c) :
    isBlank c = false := by
  refine isBlank_of_head?_trimStart (t := t.reverse) ?_
  simpa [trimEnd, trimStart] using h

/-- Trimming the front takes blanks off and nothing else. -/
theorem exists_append_trimStart (t : Text) :
    ∃ w, w.all isBlank = true ∧ t = w ++ trimStart t :=
  ⟨t.takeWhile isBlank, List.all_takeWhile, List.takeWhile_append_dropWhile.symm⟩

/-- Trimming the back takes blanks off and nothing else. -/
theorem exists_trimEnd_append (t : Text) : ∃ w, w.all isBlank = true ∧ t = trimEnd t ++ w := by
  obtain ⟨w, hw, ht⟩ := exists_append_trimStart t.reverse
  refine ⟨w.reverse, by rwa [List.all_reverse], ?_⟩
  have hreverse := congrArg List.reverse ht
  simpa [trimEnd, trimStart] using hreverse

/-- A text is what trimming leaves of it, between blanks. -/
theorem exists_append_trim_append (t : Text) :
    ∃ w w', w.all isBlank = true ∧ w'.all isBlank = true ∧ t = w ++ trim t ++ w' := by
  obtain ⟨w, hw, ht⟩ := exists_append_trimStart t
  obtain ⟨w', hw', ht'⟩ := exists_trimEnd_append (trimStart t)
  refine ⟨w, w', hw, hw', ?_⟩
  rw [List.append_assoc, trim, ← ht', ← ht]

/-- Blanks around a text do not change what trimming leaves of it. -/
theorem trim_append_append {w w' : Text} (hw : w.all isBlank = true) (hw' : w'.all isBlank = true)
    (t : Text) : trim (w ++ t ++ w') = trim t := by
  have hnil : w'.dropWhile isBlank = [] := dropWhile_isBlank_eq_nil.2 hw'
  rw [trim, trim, List.append_assoc, trimStart_append_of_blank hw]
  by_cases h : trimStart t = []
  · have h' : t.dropWhile isBlank = [] := h
    have hstart : trimStart (t ++ w') = [] := by simp [trimStart, List.dropWhile_append, h', hnil]
    rw [hstart, h]
  · have h' : ¬ t.dropWhile isBlank = [] := h
    have hstart : trimStart (t ++ w') = trimStart t ++ w' := by
      simp [trimStart, List.dropWhile_append, h']
    rw [hstart, trimEnd_append_of_blank hw']

/-- Trimming takes away no character that is not blank. -/
theorem mem_trim_iff {c : Char} (hc : isBlank c = false) : c ∈ trim t ↔ c ∈ t := by
  obtain ⟨w, w', hw, hw', ht⟩ := exists_append_trim_append t
  have hnot : ∀ {v : Text}, v.all isBlank = true → c ∉ v := by
    intro v hv hmem
    rw [List.all_eq_true.1 hv c hmem] at hc
    cases hc
  constructor
  · intro h
    rw [ht]
    simp [h]
  · intro h
    rw [ht] at h
    simpa [hnot hw, hnot hw'] using h

/-- What trimming leaves does not begin with a blank. -/
theorem isBlank_of_head?_trim {c : Char} (h : (trim t).head? = some c) : isBlank c = false := by
  obtain ⟨w, _, ht⟩ := exists_trimEnd_append (trimStart t)
  refine isBlank_of_head?_trimStart (t := t) ?_
  rw [ht, List.head?_append, show (trimEnd (trimStart t)).head? = some c from h, Option.some_or]

/-- Trimming twice is trimming once. -/
@[simp] theorem trim_trim (t : Text) : trim (trim t) = trim t := by
  have hstart : trimStart (trim t) = trim t := trimStart_eq_self fun c => isBlank_of_head?_trim
  have hend : trimEnd (trim t) = trim t := trimEnd_eq_self fun c => isBlank_of_getLast?_trimEnd
  rw [trim, hstart, hend]

/-! ## First occurrences -/

theorem occurs_iff_isInfix {token : Text} : occurs token t = true ↔ token <:+: t := by
  rw [occurs_iff]
  exact ⟨fun ⟨b, r, h⟩ => ⟨b, r, h.symm⟩, fun ⟨b, r, h⟩ => ⟨b, r, h.symm⟩⟩

theorem occurs_eq_false_iff {token : Text} : occurs token t = false ↔ ¬ token <:+: t := by
  rw [← occurs_iff_isInfix, Bool.not_eq_true]

theorem cut?_eq_none_iff {token : Text} : cut? token t = none ↔ occurs token t = false := by
  simp [occurs]

/-- A cut stands at the leftmost occurrence of its token. -/
theorem length_le_of_cut? {token b r : Text} (h : cut? token t = some (before, rest))
    (ht : t = b ++ token ++ r) : before.length ≤ b.length := by
  induction t generalizing before rest b with
  | nil =>
    have hlength := length_of_cut? h
    simp only [List.length_nil] at hlength
    omega
  | cons c t ih =>
    rw [cut?_cons] at h
    split at h
    · obtain ⟨rfl, -⟩ := Prod.mk.inj (Option.some.inj h)
      exact Nat.zero_le _
    · next hnone =>
      obtain ⟨⟨b', r'⟩, hcut, he⟩ := Option.map_eq_some_iff.1 h
      obtain ⟨rfl, -⟩ := Prod.mk.inj he
      cases b with
      | nil =>
        have hfront : dropFront? token (c :: t) = some r := dropFront?_eq_some_iff.2 ht
        simp [hnone] at hfront
      | cons d b =>
        have hrest := ih hcut (List.cons.inj ht).2
        simpa using hrest

/-- No occurrence of a token stands before the place where it is cut. -/
theorem occurs_before_of_cut? {token : Text} (hne : token ≠ [])
    (h : cut? token t = some (before, rest)) : occurs token before = false := by
  rw [← Bool.not_eq_true, occurs_iff]
  rintro ⟨b, r, rfl⟩
  have hle := length_le_of_cut? (b := b) (r := r ++ token ++ rest) h (by simpa using eq_of_cut? h)
  have hpos := List.length_pos_iff.2 hne
  simp only [List.length_append] at hle
  omega

section
variable {a c : Char}

/-- Where two texts meet, a token of two characters occurs in one of them or
across the joint. -/
theorem occurs_pair_append :
    occurs [a, c] (t ++ u) = true ↔
      occurs [a, c] t = true ∨ occurs [a, c] u = true ∨
        (t.getLast? = some a ∧ u.head? = some c) := by
  rw [occurs_iff_isInfix, occurs_iff_isInfix, occurs_iff_isInfix, List.infix_append_iff_ne_nil]
  refine or_congr_right (or_congr_right ⟨?_, ?_⟩)
  · rintro ⟨l₁, l₂, h₁, h₂, he, hs, hp⟩
    obtain ⟨x, rfl⟩ : ∃ x, l₁ = [x] := by
      cases l₁ with
      | nil => exact absurd rfl h₁
      | cons x l =>
        cases l with
        | nil => exact ⟨x, rfl⟩
        | cons y l => cases l₂ <;> simp_all
    obtain ⟨rfl, rfl⟩ : x = a ∧ l₂ = [c] := by simp_all
    obtain ⟨t', rfl⟩ := hs
    obtain ⟨u', rfl⟩ := hp
    simp
  · rintro ⟨ht, hu⟩
    obtain ⟨t', rfl⟩ := List.getLast?_eq_some_iff.1 ht
    cases u with
    | nil => cases hu
    | cons d u =>
      obtain rfl : d = c := by simpa using hu
      exact ⟨[a], [d], by simp, by simp, rfl, ⟨t', rfl⟩, ⟨u, rfl⟩⟩

/-- No occurrence of a token begins in a text that neither holds the token nor
has it across its end. -/
theorem length_le_of_not_occurs {b r : Text} (ht : occurs [a, c] t = false)
    (joint : ¬ (t.getLast? = some a ∧ u.head? = some c)) (he : t ++ u = b ++ a :: c :: r) :
    t.length ≤ b.length := by
  refine Nat.le_of_not_lt fun hlt => ?_
  obtain ⟨m, rfl⟩ : ∃ m, t = b ++ m := by
    have hpre : b <+: t ++ u := ⟨a :: c :: r, he.symm⟩
    obtain ⟨m, hm⟩ := List.prefix_of_prefix_length_le hpre (List.prefix_append t _) (by omega)
    exact ⟨m, hm.symm⟩
  rw [List.append_assoc, List.append_cancel_left_eq] at he
  match m, he with
  | [], _ => simp at hlt
  | [x], he =>
    obtain ⟨rfl, rfl⟩ : x = a ∧ u = c :: r := by simpa using he
    simp at joint
  | x :: y :: m, he =>
    obtain ⟨rfl, rfl, -⟩ : x = a ∧ y = c ∧ m ++ u = r := by simpa using he
    have hoccurs : occurs [x, y] (b ++ x :: y :: m) = true := occurs_iff.2 ⟨b, m, by simp⟩
    simp [hoccurs] at ht

/-- A text without the token stays whole in front of the cut: the token cannot
begin in it, since its two characters differ. -/
theorem cut?_pair_append (hne : a ≠ c) (ht : occurs [a, c] t = false) (rest : Text) :
    cut? [a, c] (t ++ a :: c :: rest) = some (t, rest) := by
  have hsome : occurs [a, c] (t ++ a :: c :: rest) = true :=
    occurs_iff.2 ⟨t, rest, by simp⟩
  obtain ⟨⟨b, r⟩, hcut⟩ := Option.isSome_iff_exists.1 hsome
  have he : t ++ a :: c :: rest = b ++ a :: c :: r := by simpa using eq_of_cut? hcut
  have hle : b.length ≤ t.length := length_le_of_cut? hcut (b := t) (r := rest) (by simp)
  have hge : t.length ≤ b.length :=
    length_le_of_not_occurs ht (fun h => hne (by simpa using h.2)) he
  obtain ⟨rfl, hr⟩ := List.append_inj he (by omega)
  obtain rfl : rest = r := by simpa using hr
  exact hcut

end

end Stencil.Text
