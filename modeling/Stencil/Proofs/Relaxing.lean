import Stencil.Indent
import Stencil.Proofs.Lowering

/-!
# Rules that stop looking at case

A matcher that ignores case lower-cases its text and the line each as a whole, and one letter is
lower-cased by what is around it: a capital sigma that ends a word becomes a final one. So a text
that stands in a line may have other lower-case forms there than it has alone, and then the
matcher that ignores case can miss what the case sensitive one finds. Where its sigmas keep their
forms the text is found again, and at the ends of a line it is found only then.

## Main definitions

* `Text.lowerWithin`: the lower-case form of a text between two others.
* `Text.KeepsSigmas`: the capital sigmas of a text take the forms that they take in it alone.
* `MatchKind.Finds`: where a kind of matcher looks for a text.
-/
namespace Stencil

/-! ## Lower-casing in context -/

namespace Text

variable {front back before before' behind behind' s t text : Text} {c : Char}

/-- The lower-case form of a text between the reversed text before it and the text behind it. -/
def lowerWithin (before behind : Text) : Text → Text
  | [] => []
  | c :: t => lowerBetween before c (t ++ behind) ++ lowerWithin (c :: before) behind t

/-- Lower-casing goes through the first of two texts with the second one in sight. -/
theorem lowerAfter_append (before s t : Text) :
    lowerAfter before (s ++ t) = lowerWithin before t s ++ lowerAfter (s.reverse ++ before) t := by
  induction s generalizing before with
  | nil => rfl
  | cons c s ih =>
    rw [List.cons_append, lowerAfter_cons, ih, lowerWithin, List.append_assoc, List.reverse_cons,
      List.append_assoc, List.singleton_append]

theorem lower_eq (t : Text) : lower t = lowerWithin [] [] t := by
  have h := lowerAfter_append [] t []
  rwa [List.append_nil, lowerAfter_nil, List.append_nil] at h

/-- The lower-case form of a text that is put together from three. -/
theorem lower_append_append (front t back : Text) :
    lower (front ++ t ++ back) =
      lowerWithin [] (t ++ back) front ++ lowerWithin front.reverse back t ++
        lowerAfter (t.reverse ++ front.reverse) back := by
  rw [lower, List.append_assoc, lowerAfter_append, lowerAfter_append, List.append_nil,
    List.append_assoc]

theorem length_lowerBetween (before before' : Text) (c : Char) (behind behind' : Text) :
    (lowerBetween before c behind).length = (lowerBetween before' c behind').length := by
  unfold lowerBetween
  split <;> rfl

theorem length_lowerWithin (before before' behind behind' t : Text) :
    (lowerWithin before behind t).length = (lowerWithin before' behind' t).length := by
  induction t generalizing before before' with
  | nil => rfl
  | cons c t ih =>
    rw [lowerWithin, lowerWithin, List.length_append, List.length_append,
      ih (c :: before) (c :: before'), length_lowerBetween]

/-- What is around it matters to a capital sigma alone. -/
theorem lowerBetween_eq_iff :
    lowerBetween before c behind = lowerBetween before' c behind' ↔
      (c = capitalSigma → lowerSigma before behind = lowerSigma before' behind') := by
  unfold lowerBetween
  by_cases hc : c = capitalSigma
  · simp [hc]
  · simp [hc]

/-- A text is lower-cased alike in two places iff each of its capital sigmas is. -/
theorem lowerWithin_eq_iff :
    lowerWithin before behind t = lowerWithin before' behind' t ↔
      ∀ u w, t = u ++ capitalSigma :: w →
        lowerSigma (u.reverse ++ before) (w ++ behind) =
          lowerSigma (u.reverse ++ before') (w ++ behind') := by
  induction t generalizing before before' with
  | nil => simp [lowerWithin]
  | cons c t ih =>
    have happend : lowerWithin before behind (c :: t) = lowerWithin before' behind' (c :: t) ↔
        lowerBetween before c (t ++ behind) = lowerBetween before' c (t ++ behind') ∧
          lowerWithin (c :: before) behind t = lowerWithin (c :: before') behind' t := by
      rw [lowerWithin, lowerWithin]
      constructor
      · intro h
        exact List.append_inj h (length_lowerBetween ..)
      · rintro ⟨hfirst, hrest⟩
        rw [hfirst, hrest]
    rw [happend, lowerBetween_eq_iff, ih]
    constructor
    · rintro ⟨hfirst, hrest⟩ u w ht
      cases u with
      | nil =>
        obtain ⟨hc, rfl⟩ := List.cons.inj ht
        exact hfirst hc
      | cons d u =>
        obtain ⟨rfl, htail⟩ := List.cons.inj ht
        simpa using hrest u w htail
    · intro h
      refine ⟨fun hc => ?_, fun u w ht => ?_⟩
      · exact h [] t (by rw [hc]; rfl)
      · simpa using h (c :: u) w (by rw [ht]; rfl)

/-- Between two others, each capital sigma of a text takes the form that it takes in the text
alone. -/
def KeepsSigmas (front text back : Text) : Prop :=
  ∀ u w, text = u ++ capitalSigma :: w →
    lowerSigma (u.reverse ++ front.reverse) (w ++ back) = lowerSigma u.reverse w

theorem keepsSigmas_iff :
    KeepsSigmas front text back ↔ lowerWithin front.reverse back text = lower text := by
  rw [lower_eq, lowerWithin_eq_iff, KeepsSigmas]
  simp only [List.append_nil]

instance (front text back : Text) : Decidable (KeepsSigmas front text back) :=
  decidable_of_iff _ keepsSigmas_iff.symm

theorem keepsSigmas_of_not_mem (h : capitalSigma ∉ text) (front back : Text) :
    KeepsSigmas front text back := by
  rintro u w rfl
  exact absurd (List.mem_append_right u List.mem_cons_self) h

theorem keepsSigmas_alone (text : Text) : KeepsSigmas [] text [] := by
  intro u w _
  rw [List.reverse_nil, List.append_nil, List.append_nil]

end Text

/-! ## Matchers -/

/-- A text stands between two others in a line, where a kind of matcher looks for it. -/
structure MatchKind.Finds (kind : MatchKind) (front text back line : Text) : Prop where
  line_eq : line = front ++ text ++ back
  front_eq : kind = .front ∨ kind = .whole → front = []
  back_eq : kind = .back ∨ kind = .whole → back = []

namespace Matcher

variable {kind : MatchKind} {front text back line : Text}

theorem holdsAt_iff :
    holdsAt kind text line = true ↔ ∃ front back, kind.Finds front text back line := by
  constructor
  · intro h
    cases kind with
    | front =>
      obtain ⟨rest, hrest⟩ := Option.isSome_iff_exists.1 h
      exact ⟨[], rest, Text.dropFront?_eq_some_iff.1 hrest, by simp, by simp⟩
    | back =>
      obtain ⟨rest, hrest⟩ := Option.isSome_iff_exists.1 h
      exact ⟨rest, [], by simpa using Text.dropBack?_eq_some_iff.1 hrest, by simp, by simp⟩
    | anywhere =>
      obtain ⟨front, back, hline⟩ := Text.occurs_iff.1 h
      exact ⟨front, back, hline, by simp, by simp⟩
    | whole => exact ⟨[], [], by simpa using (eq_of_beq h).symm, by simp, by simp⟩
  · rintro ⟨front, back, rfl, hfront, hback⟩
    cases kind with
    | front =>
      obtain rfl := hfront (.inl rfl)
      have hdrop : Text.dropFront? text ([] ++ text ++ back) = some back :=
        Text.dropFront?_eq_some_iff.2 (by simp)
      rw [holdsAt, hdrop]
      rfl
    | back =>
      obtain rfl := hback (.inl rfl)
      have hdrop : Text.dropBack? text (front ++ text ++ []) = some front :=
        Text.dropBack?_eq_some_iff.2 (by simp)
      rw [holdsAt, hdrop]
      rfl
    | anywhere => exact Text.occurs_iff.2 ⟨front, back, rfl⟩
    | whole =>
      obtain rfl := hfront (.inr rfl)
      obtain rfl := hback (.inr rfl)
      simp [holdsAt]

/-- Where its sigmas keep their forms, a text is found again when case is ignored. -/
theorem accepts_of_keepsSigmas (hfinds : kind.Finds front text back line)
    (hkeeps : Text.KeepsSigmas front text back) :
    (⟨kind, text, false⟩ : Matcher).accepts line = true := by
  refine holdsAt_iff.2 ⟨Text.lowerWithin [] (text ++ back) front,
    Text.lowerAfter (text.reverse ++ front.reverse) back, ?_, fun hkind => ?_, fun hkind => ?_⟩
  · change Text.lower line = _ ++ Text.lower text ++ _
    rw [hfinds.line_eq, Text.lower_append_append, Text.keepsSigmas_iff.1 hkeeps]
  · rw [hfinds.front_eq hkind, Text.lowerWithin]
  · rw [hfinds.back_eq hkind, Text.lowerAfter_nil]

/-- At an end of a line, a text is found again only where its sigmas keep their forms. -/
theorem keepsSigmas_of_accepts (hkind : kind ≠ .anywhere)
    (hfinds : kind.Finds front text back line)
    (h : (⟨kind, text, false⟩ : Matcher).accepts line = true) :
    Text.KeepsSigmas front text back := by
  rw [Text.keepsSigmas_iff]
  have hlength : (Text.lowerWithin front.reverse back text).length = (Text.lower text).length := by
    rw [Text.lower_eq, Text.length_lowerWithin]
  obtain ⟨front', back', hlower, hfront', hback'⟩ := holdsAt_iff.1 h
  change Text.lower line = front' ++ Text.lower text ++ back' at hlower
  rw [hfinds.line_eq, Text.lower_append_append] at hlower
  by_cases hfront : kind = .front ∨ kind = .whole
  · rw [hfinds.front_eq hfront, hfront' hfront] at hlower
    rw [hfinds.front_eq hfront] at hlength ⊢
    exact (List.append_inj hlower hlength).1
  · have hback : kind = .back ∨ kind = .whole := by
      cases kind with
      | front | whole => simp at hfront
      | back => exact .inl rfl
      | anywhere => exact absurd rfl hkind
    rw [hfinds.back_eq hback, hback' hback, Text.lowerAfter_nil] at hlower
    simp only [List.append_nil] at hlower
    rw [hfinds.back_eq hback] at hlength ⊢
    exact (List.append_inj' hlower hlength).2

end Matcher

/-- The first rule that accepts a line acts on it. -/
theorem Indenter.actionOf?_of_first {earlier later : List IndentRule} {rule : IndentRule}
    {line : Text} (hearlier : ∀ r ∈ earlier, r.matcher.accepts line = false)
    (hrule : rule.matcher.accepts line = true) :
    actionOf? (earlier ++ rule :: later) line = some rule.action := by
  have hnone : earlier.find? (fun r => r.matcher.accepts line) = none := by
    simpa using hearlier
  rw [actionOf?, List.find?_append, hnone, Option.none_or, List.find?_cons, hrule]
  rfl

/-- **A rule that stops looking at case keeps its matches where sigmas keep their forms.** Let a
case sensitive matcher accept a line. The same matcher without regard to case accepts it too if
it compares whole lines or its text has no capital sigma, and in general if the text stands
somewhere in the line, where the matcher looks, with the lower-case sigmas that it has alone.
At an end of the line this is also necessary. A rule with the case sensitive matcher that acts
on the line, being the first that accepts it, then acts on it without regard to case as well. -/
theorem Matcher.matches_kept_by_sigmas {kind : MatchKind} {text line : Text}
    (h : (⟨kind, text, true⟩ : Matcher).accepts line = true) :
    (∃ front back, kind.Finds front text back line) ∧
    (kind = .whole ∨ Text.capitalSigma ∉ text →
      (⟨kind, text, false⟩ : Matcher).accepts line = true) ∧
    (∀ front back, kind.Finds front text back line →
      (Text.KeepsSigmas front text back →
        (⟨kind, text, false⟩ : Matcher).accepts line = true) ∧
      (kind ≠ .anywhere → (⟨kind, text, false⟩ : Matcher).accepts line = true →
        Text.KeepsSigmas front text back)) ∧
    ∀ (earlier later : List IndentRule) (action : IndentAction),
      (∀ rule ∈ earlier, rule.matcher.accepts line = false) →
        Indenter.actionOf? (earlier ++ ⟨⟨kind, text, true⟩, action⟩ :: later) line = some action ∧
        ((⟨kind, text, false⟩ : Matcher).accepts line = true →
          Indenter.actionOf? (earlier ++ ⟨⟨kind, text, false⟩, action⟩ :: later) line =
            some action) := by
  have hfinds : ∃ front back, kind.Finds front text back line := holdsAt_iff.1 h
  refine ⟨hfinds, ?_, ?_, ?_⟩
  · intro hkept
    obtain ⟨front, back, hfinds⟩ := hfinds
    refine accepts_of_keepsSigmas hfinds ?_
    rcases hkept with hwhole | hmem
    · rw [hfinds.front_eq (.inr hwhole), hfinds.back_eq (.inr hwhole)]
      exact Text.keepsSigmas_alone text
    · exact Text.keepsSigmas_of_not_mem hmem front back
  · intro front back hfinds
    exact ⟨accepts_of_keepsSigmas hfinds, fun hkind => keepsSigmas_of_accepts hkind hfinds⟩
  · intro earlier later action hearlier
    exact ⟨Indenter.actionOf?_of_first hearlier h, fun hrelaxed =>
      Indenter.actionOf?_of_first hearlier hrelaxed⟩

/-- A word that ends in a sigma is found in front of another word. -/
theorem Matcher.matches_kept_by_sigmas_in_front :
    (⟨.front, "ΟΔΟΣ".toList, true⟩ : Matcher).accepts "ΟΔΟΣ Α".toList = true ∧
      (⟨.front, "ΟΔΟΣ".toList, false⟩ : Matcher).accepts "ΟΔΟΣ Α".toList = true := by
  have h : (⟨.front, "ΟΔΟΣ".toList, true⟩ : Matcher).accepts "ΟΔΟΣ Α".toList = true := by decide
  have hfinds : MatchKind.front.Finds [] "ΟΔΟΣ".toList " Α".toList "ΟΔΟΣ Α".toList :=
    ⟨rfl, fun _ => rfl, by simp⟩
  exact ⟨h, ((Matcher.matches_kept_by_sigmas h).2.2.1 _ _ hfinds).1 (by decide +kernel)⟩

/-- Not every match is kept: a sigma that ends the text, and a word in it, need not end a word
in the line. -/
theorem Matcher.not_all_matches_kept :
    ¬ ∀ (kind : MatchKind) (text line : Text),
      (⟨kind, text, true⟩ : Matcher).accepts line = true →
        (⟨kind, text, false⟩ : Matcher).accepts line = true := by
  intro h
  have hlost := h .front "ΑΣ".toList "ΑΣΑ".toList (by decide)
  exact absurd hlost (by decide +kernel)

end Stencil
