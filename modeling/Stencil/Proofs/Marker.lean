import Mathlib.Data.List.Chain
import Stencil.Marker
import Stencil.Proofs.Cutting

/-!
# Written template lines

A list of parts is written by putting expressions between markers, with blanks
around them and around the line as one likes. Not every list can be read back:
fixed text that holds a marker, or that ends in the first half of one right in
front of an expression, is read as something else. The lists that can be read
back are the canonical ones, and reading a line is the inverse of writing it.

## Main definitions

* `Marker.Canonical`: the lists of parts that survive writing and reading.
* `Marker.Printing`: the lines that write a list of parts.
-/
namespace Stencil.Marker

open Text (isBlank)

theorem opening_eq : opening = ['!', '@'] := rfl

theorem closing_eq : closing = ['@', '!'] := rfl

/-- Neither marker occurs in a text. -/
def MarkerFree (t : Text) : Prop :=
  Text.occurs opening t = false ∧ Text.occurs closing t = false

/-- Which parts may stand next to each other. Two fixed texts would be read as
one, and an `@` in front of an opening marker would be read with its `!`. -/
def MayPrecede : Part → Part → Prop
  | .fixed _, .fixed _ => False
  | .fixed text, .dynamic _ => text.getLast? ≠ some '@'
  | .dynamic _, _ => True

/-- What a part must be by itself. -/
def Part.Sound : Part → Prop
  | .fixed text => text ≠ [] ∧ MarkerFree text
  | .dynamic text => Text.trim text = text ∧ MarkerFree text

/-- The conditions on a list of parts that also hold of its tails. -/
structure Regular (ps : List Part) : Prop where
  sound : ∀ p ∈ ps, p.Sound
  chain : ps.IsChain MayPrecede
  last_not_blank : ∀ t c, ps.getLast? = some (.fixed t) → t.getLast? = some c → isBlank c = false

/-- The lists of parts that survive writing and reading. -/
structure Canonical (ps : List Part) : Prop extends Regular ps where
  first_not_blank : ∀ t c, ps.head? = some (.fixed t) → t.head? = some c → isBlank c = false

/-- The texts that write a list of parts, without the blanks around them. -/
inductive Written : List Part → Text → Prop
  | nil : Written [] []
  | fixed (t : Text) {ps : List Part} {rest : Text} :
      Written ps rest → Written (.fixed t :: ps) (t ++ rest)
  | dynamic (t : Text) {w w' : Text} {ps : List Part} {rest : Text} :
      w.all isBlank = true → w'.all isBlank = true → Written ps rest →
        Written (.dynamic t :: ps) (opening ++ (w ++ t ++ w') ++ closing ++ rest)

/-- The lines that write a list of parts. -/
def Printing (ps : List Part) (line : Text) : Prop :=
  ∃ w text w', w.all isBlank = true ∧ w'.all isBlank = true ∧ Written ps text ∧
    line = w ++ text ++ w'

variable {t u w w' before behind inner rest line : Text} {ps : List Part}

/-! ## Texts without markers -/

theorem not_occurs_of_blank {a c : Char} (ha : isBlank a = false) (hw : w.all isBlank = true) :
    Text.occurs [a, c] w = false := by
  rw [Text.occurs_eq_false_iff]
  intro h
  have hblank : isBlank a = true := by simpa using List.all_eq_true.1 hw a (h.subset (by simp))
  simp [ha] at hblank

theorem markerFree_of_blank (hw : w.all isBlank = true) : MarkerFree w :=
  ⟨not_occurs_of_blank rfl hw, not_occurs_of_blank rfl hw⟩

theorem MarkerFree.of_isInfix (h : MarkerFree u) (ht : t <:+: u) : MarkerFree t := by
  simp only [MarkerFree, Text.occurs_eq_false_iff] at h ⊢
  exact ⟨fun h' => h.1 (h'.trans ht), fun h' => h.2 (h'.trans ht)⟩

/-- A marker has no blank in it, so it cannot reach over a joint with one. -/
theorem MarkerFree.append (ht : MarkerFree t) (hu : MarkerFree u)
    (joint : ∀ a c, t.getLast? = some a → u.head? = some c → isBlank a = true ∨ isBlank c = true) :
    MarkerFree (t ++ u) := by
  have key : ∀ a c : Char, isBlank a = false → isBlank c = false → Text.occurs [a, c] t = false →
      Text.occurs [a, c] u = false → Text.occurs [a, c] (t ++ u) = false := by
    intro a c ha hc ht hu
    rw [← Bool.not_eq_true, Text.occurs_pair_append]
    rintro (h | h | ⟨hlast, hhead⟩)
    · simp [ht] at h
    · simp [hu] at h
    · rcases joint a c hlast hhead with h | h
      · simp [ha] at h
      · simp [hc] at h
  exact ⟨key _ _ rfl rfl ht.1 hu.1, key _ _ rfl rfl ht.2 hu.2⟩

/-- Blanks around a text make no marker in it. -/
theorem MarkerFree.pad (h : MarkerFree t) (hw : w.all isBlank = true)
    (hw' : w'.all isBlank = true) : MarkerFree (w ++ t ++ w') := by
  have hfront : MarkerFree (w ++ t) := by
    refine (markerFree_of_blank hw).append h fun a c ha _ => .inl ?_
    exact List.all_eq_true.1 hw a (List.mem_of_getLast? ha)
  refine hfront.append (markerFree_of_blank hw') fun a c _ hc => .inr ?_
  exact List.all_eq_true.1 hw' c (List.mem_of_head? hc)

/-! ## Where the next marker stands -/

/-- No marker is met in a text without any. -/
theorem cutOpening?_eq_none_iff : cutOpening? rest = .ok none ↔ MarkerFree rest := by
  simp only [MarkerFree, ← Text.cut?_eq_none_iff]
  unfold cutOpening?
  split <;> simp_all
  split <;> simp

/-- An opening marker counts when no closing marker begins before it. -/
theorem cutOpening?_eq_some_iff_cut? :
    cutOpening? rest = .ok (some (before, behind)) ↔
      Text.cut? opening rest = some (before, behind) ∧
        ∀ b r, Text.cut? closing rest = some (b, r) → before.length ≤ b.length := by
  unfold cutOpening?
  split
  · simp_all
  · simp_all
  · simp_all
  · next b r b' r' hopen hclose =>
    simp only [hopen, hclose]
    split
    · next hlt =>
      simp only [Option.some.injEq, Prod.mk.injEq, reduceCtorEq, false_iff, not_and]
      rintro ⟨rfl, rfl⟩ h
      have hlength := h b' r' ⟨rfl, rfl⟩
      omega
    · next hlt =>
      simp only [Except.ok.injEq, Option.some.injEq, Prod.mk.injEq, iff_self_and]
      rintro ⟨rfl, rfl⟩ _ _ ⟨rfl, rfl⟩
      omega

/-- An opening marker is met first when no marker stands before it and none
begins there. -/
theorem cutOpening?_eq_some_iff :
    cutOpening? rest = .ok (some (before, behind)) ↔
      rest = before ++ opening ++ behind ∧ MarkerFree before ∧ before.getLast? ≠ some '@' := by
  rw [cutOpening?_eq_some_iff_cut?]
  constructor
  · rintro ⟨hcut, hclosing⟩
    -- a closing marker that begins in front of the opening one would be cut there
    have hnone : ∀ b r, rest = b ++ closing ++ r → before.length ≤ b.length := by
      intro b r h
      have hsome : Text.occurs closing rest = true := Text.occurs_iff.2 ⟨b, r, h⟩
      obtain ⟨⟨b', r'⟩, hcut'⟩ := Option.isSome_iff_exists.1 hsome
      exact (hclosing b' r' hcut').trans (Text.length_le_of_cut? hcut' h)
    have he : rest = before ++ opening ++ behind := Text.eq_of_cut? hcut
    refine ⟨he, ⟨Text.occurs_before_of_cut? (by decide) hcut, ?_⟩, ?_⟩
    · rw [← Bool.not_eq_true, Text.occurs_iff]
      rintro ⟨b, r, rfl⟩
      have hlength := hnone b (r ++ opening ++ behind) (by simpa using he)
      simp only [closing_eq, List.length_append, List.length_cons] at hlength
      omega
    · intro hlast
      obtain ⟨b, rfl⟩ := List.getLast?_eq_some_iff.1 hlast
      have hlength := hnone b ('@' :: behind) (by simpa [opening_eq, closing_eq] using he)
      simp only [List.length_append, List.length_cons] at hlength
      omega
  · rintro ⟨rfl, hfree, hlast⟩
    refine ⟨?_, fun b r hcut => ?_⟩
    · rw [List.append_assoc]
      exact Text.cut?_pair_append (by decide) hfree.1 behind
    · have he : before ++ opening ++ behind = b ++ '@' :: '!' :: r := by
        simpa [closing_eq] using Text.eq_of_cut? hcut
      rw [List.append_assoc] at he
      exact Text.length_le_of_not_occurs hfree.2 (fun h => hlast h.1) he

/-- An expression reaches up to the first closing marker. -/
theorem cut?_closing_eq_some_iff :
    Text.cut? closing behind = some (inner, rest) ↔
      behind = inner ++ closing ++ rest ∧ Text.occurs closing inner = false := by
  constructor
  · intro h
    exact ⟨Text.eq_of_cut? h, Text.occurs_before_of_cut? (by decide) h⟩
  · rintro ⟨rfl, h⟩
    rw [List.append_assoc]
    exact Text.cut?_pair_append (by decide) h rest

/-! ## Reading what is written -/

theorem partsOf_of_markerFree (h : MarkerFree rest) :
    partsOf line rest = .ok (fixedPart (Text.trimEnd rest)) := by
  rw [partsOf]
  split <;> simp_all [cutOpening?_eq_none_iff.2 h]

/-- The two cuts of a line give its first parts, and reading goes on behind them. -/
theorem partsOf_of_cuts (hopen : cutOpening? rest = .ok (some (before, behind)))
    (hclose : Text.cut? closing behind = some (inner, u))
    (hinner : Text.occurs opening inner = false) (hps : partsOf line u = .ok ps) :
    partsOf line rest = .ok (fixedPart before ++ .dynamic (Text.trim inner) :: ps) := by
  rw [partsOf]
  split <;> simp_all
  split <;> simp_all

/-- Fixed text and the expression behind it are read off the front of a line. -/
theorem partsOf_span (hbefore : MarkerFree before) (hlast : before.getLast? ≠ some '@')
    (ht : MarkerFree t) (hw : w.all isBlank = true) (hw' : w'.all isBlank = true)
    (hps : partsOf line rest = .ok ps) :
    partsOf line (before ++ (opening ++ (w ++ t ++ w') ++ closing ++ rest)) =
      .ok (fixedPart before ++ .dynamic (Text.trim t) :: ps) := by
  have hinner : MarkerFree (w ++ t ++ w') := ht.pad hw hw'
  rw [← Text.trim_append_append hw hw' t]
  refine partsOf_of_cuts ?_ (cut?_closing_eq_some_iff.2 ⟨rfl, hinner.2⟩) hinner.1 hps
  exact cutOpening?_eq_some_iff.2 ⟨by simp, hbefore, hlast⟩

theorem Regular.tail {p : Part} (h : Regular (p :: ps)) : Regular ps where
  sound q hq := h.sound q (List.mem_cons_of_mem _ hq)
  chain := h.chain.tail
  last_not_blank t c ht := h.last_not_blank t c (by cases ps <;> simp_all)

@[simp] theorem fixedPart_nil : fixedPart [] = [] := rfl

theorem fixedPart_of_ne_nil (h : t ≠ []) : fixedPart t = [.fixed t] := by simp [fixedPart, h]

/-- Fixed text in front of a regular list holds no marker, and the list is
regular without it. -/
theorem Regular.of_fixedPart_append (h : Regular (fixedPart t ++ ps)) :
    MarkerFree t ∧ Regular ps := by
  by_cases hne : t = []
  · subst hne
    exact ⟨markerFree_of_blank rfl, h⟩
  · rw [fixedPart_of_ne_nil hne] at h
    exact ⟨(h.sound (.fixed t) (by simp)).2, h.tail⟩

/-- A written list is read back, whatever blanks follow it. Fixed text in front of
the list is carried along, since it is read together with what stands behind it. -/
theorem partsOf_of_written (hw : w.all isBlank = true) (h : Written ps t) (front : Text)
    (hps : Regular (fixedPart front ++ ps)) :
    partsOf line (front ++ t ++ w) = .ok (fixedPart front ++ ps) := by
  induction h generalizing front with
  | nil =>
    have htrim : Text.trimEnd (front ++ w) = front := by
      rw [Text.trimEnd_append_of_blank hw]
      refine Text.trimEnd_eq_self fun c hc => ?_
      have hne : front ≠ [] := by rintro rfl; cases hc
      rw [fixedPart_of_ne_nil hne] at hps
      exact hps.last_not_blank front c rfl hc
    have hpad : MarkerFree (front ++ w) := hps.of_fixedPart_append.1.pad (w := []) rfl hw
    rw [List.append_nil, partsOf_of_markerFree hpad, htrim, List.append_nil]
  | @fixed t ps rest _ ih =>
    obtain rfl : front = [] := by
      by_contra hne
      rw [fixedPart_of_ne_nil hne] at hps
      simpa [MayPrecede] using hps.chain.rel
    have hne : t ≠ [] := (hps.sound (.fixed t) (by simp)).1
    have hrest := ih t (by simpa [fixedPart_of_ne_nil hne] using hps)
    simpa [fixedPart_of_ne_nil hne] using hrest
  | @dynamic d b a ps rest hb ha _ ih =>
    obtain ⟨hfront, hdyn⟩ := hps.of_fixedPart_append
    have hlast : front.getLast? ≠ some '@' := by
      by_cases hne : front = []
      · simp [hne]
      · rw [fixedPart_of_ne_nil hne] at hps
        exact hps.chain.rel
    obtain ⟨htrim, hd⟩ : Text.trim d = d ∧ MarkerFree d := hdyn.sound (.dynamic d) (by simp)
    have hrest : partsOf line (rest ++ w) = .ok ps := ih [] hdyn.tail
    have hspan := partsOf_span hfront hlast hd hb ha hrest
    rw [htrim] at hspan
    simpa using hspan

/-! ## Writing what is read -/

theorem regular_nil : Regular [] := ⟨by simp, .nil, by simp⟩

theorem regular_fixedPart_trimEnd (h : MarkerFree t) : Regular (fixedPart (Text.trimEnd t)) := by
  by_cases hne : Text.trimEnd t = []
  · rw [hne]
    exact regular_nil
  · obtain ⟨w, -, ht⟩ := Text.exists_trimEnd_append t
    have hfree : MarkerFree (Text.trimEnd t) := h.of_isInfix ⟨[], w, by simp [← ht]⟩
    rw [fixedPart_of_ne_nil hne]
    refine ⟨?_, .singleton _, ?_⟩
    · intro p hp
      obtain rfl : p = .fixed (Text.trimEnd t) := by simpa using hp
      exact ⟨hne, hfree⟩
    · intro u c hu hc
      obtain rfl : Text.trimEnd t = u := by simpa using hu
      exact Text.isBlank_of_getLast?_trimEnd hc

/-- A sound part may be put in front of a regular list that it may precede. Fixed
text needs something behind it, since it could end in a blank. -/
theorem Regular.cons {p : Part} (h : Regular ps) (hp : p.Sound)
    (hnext : ∀ q ∈ ps.head?, MayPrecede p q) (hlast : ∀ t, p = .fixed t → ps ≠ []) :
    Regular (p :: ps) where
  sound := List.forall_mem_cons.2 ⟨hp, h.sound⟩
  chain := h.chain.cons hnext
  last_not_blank t c ht hc := by
    cases ps with
    | nil => exact absurd rfl (hlast t (by simpa using ht))
    | cons q ps => exact h.last_not_blank t c (by simpa using ht) hc

/-- An expression may stand in front of a regular list, and fixed text in front of
the expression. -/
theorem Regular.fixedPart_dynamic (h : Regular ps) (ht : (Part.dynamic t).Sound)
    (hbefore : MarkerFree before) (hlast : before.getLast? ≠ some '@') :
    Regular (fixedPart before ++ .dynamic t :: ps) := by
  have hdyn : Regular (.dynamic t :: ps) := h.cons ht (fun _ _ => trivial) (by simp)
  by_cases hne : before = []
  · subst hne; exact hdyn
  · rw [fixedPart_of_ne_nil hne]
    exact hdyn.cons ⟨hne, hbefore⟩ (by simpa [MayPrecede] using hlast) (by simp)

theorem Written.fixedPart (h : Written ps rest) (t : Text) :
    Written (Marker.fixedPart t ++ ps) (t ++ rest) := by
  by_cases hne : t = []
  · subst hne; exact h
  · rw [fixedPart_of_ne_nil hne]
    exact .fixed t h

/-- What is read from the rest of a line is regular and writes that rest. -/
theorem regular_and_written_of_partsOf (h : partsOf line rest = .ok ps) :
    Regular ps ∧ ∃ t w, w.all isBlank = true ∧ Written ps t ∧ rest = t ++ w := by
  fun_induction partsOf line rest generalizing ps with
  | case1 => cases h
  | case2 rest hopen =>
    cases h
    obtain ⟨w, hw, ht⟩ := Text.exists_trimEnd_append rest
    have hwritten := (Written.nil).fixedPart (Text.trimEnd rest)
    exact ⟨regular_fixedPart_trimEnd (cutOpening?_eq_none_iff.1 hopen),
      _, w, hw, by simpa using hwritten, by simpa using ht⟩
  | case3 => cases h
  | case4 => cases h
  | case5 rest before behind hopen inner rest' hclose hinner parts hparts ih =>
    cases h
    obtain ⟨hregular, t, w, hw, hwritten, rfl⟩ := ih hparts
    obtain ⟨rfl, hbefore, hlast⟩ := cutOpening?_eq_some_iff.1 hopen
    obtain ⟨rfl, hclosing⟩ := cut?_closing_eq_some_iff.1 hclose
    obtain ⟨b, a, hb, ha, he⟩ := Text.exists_append_trim_append inner
    have hfree : MarkerFree (Text.trim inner) := by
      refine MarkerFree.of_isInfix (u := inner) ⟨by simpa using hinner, hclosing⟩ ?_
      exact ⟨b, a, he.symm⟩
    refine ⟨hregular.fixedPart_dynamic ⟨Text.trim_trim _, hfree⟩ hbefore hlast, _, w, hw,
      (Written.dynamic (Text.trim inner) hb ha hwritten).fixedPart before, ?_⟩
    rw [← he]
    simp
  | case6 => cases h

/-! ## Whole lines -/

/-- A written list that is not empty starts with a character that is not blank,
unless fixed text stands first. -/
theorem Written.head_of_ne_nil (h : Written ps t) (hps : Canonical ps) (hne : ps ≠ []) :
    ∃ c, t.head? = some c ∧ isBlank c = false := by
  cases h with
  | nil => exact absurd rfl hne
  | @fixed u =>
    obtain ⟨hu, -⟩ : u ≠ [] ∧ MarkerFree u := hps.sound (.fixed u) (by simp)
    obtain ⟨c, u, rfl⟩ := List.exists_cons_of_ne_nil hu
    exact ⟨c, rfl, hps.first_not_blank (c :: u) c rfl rfl⟩
  | dynamic => exact ⟨'!', rfl, rfl⟩

/-- Every printing of a canonical list is read as that list. -/
theorem parts_of_printing (hps : Canonical ps) (h : Printing ps line) : parts line = .ok ps := by
  obtain ⟨w, t, w', hw, hw', hwritten, rfl⟩ := h
  rw [parts, List.append_assoc, Text.trimStart_append_of_blank hw]
  by_cases hne : ps = []
  · subst hne
    cases hwritten
    have hnil : Text.trimStart w' = [] := Text.dropWhile_isBlank_eq_nil.2 hw'
    rw [List.nil_append, hnil, partsOf_of_markerFree (markerFree_of_blank rfl)]
    rfl
  · obtain ⟨c, hc, hblank⟩ := hwritten.head_of_ne_nil hps hne
    have hself : Text.trimStart (t ++ w') = t ++ w' := by
      refine Text.trimStart_eq_self fun d hd => ?_
      obtain rfl : c = d := by simpa [List.head?_append, hc] using hd
      exact hblank
    rw [hself]
    exact partsOf_of_written hw' hwritten [] hps.toRegular

/-- What a line is read as is canonical, and the line prints it. -/
theorem canonical_and_printing_of_parts (h : parts line = .ok ps) :
    Canonical ps ∧ Printing ps line := by
  obtain ⟨hps, t, w', hw', hwritten, ht⟩ := regular_and_written_of_partsOf h
  obtain ⟨w, hw, hline⟩ := Text.exists_append_trimStart line
  refine ⟨⟨hps, ?_⟩, w, t, w', hw, hw', hwritten, ?_⟩
  · intro u c hu hc
    refine Text.isBlank_of_head?_trimStart (t := line) ?_
    rw [ht]
    cases hwritten with
    | nil => cases hu
    | fixed => simp_all [List.head?_append]
    | dynamic => cases hu
  · rw [List.append_assoc, ← ht, ← hline]

/-- A line that cannot be read is reported whole, as an unterminated or a nested marker. -/
theorem partsOf_error {e : Error} (h : partsOf line rest = .error e) :
    e = .unterminatedMarker line ∨ e = .nestedMarker line := by
  fun_induction partsOf line rest <;> simp_all

/-- **Reading a line inverts writing parts.** A canonical list is read back from each of
its printings; what is read from a line is canonical and printed by the line; and
the lines that are rejected are those that print no canonical list. -/
theorem parts_inverts_printing (line : Text) :
    (∀ ps, parts line = .ok ps ↔ Canonical ps ∧ Printing ps line) ∧
      (parts line = .error (.unterminatedMarker line) ∨ parts line = .error (.nestedMarker line) ↔
        ¬ ∃ ps, Canonical ps ∧ Printing ps line) := by
  have hok : ∀ ps, parts line = .ok ps ↔ Canonical ps ∧ Printing ps line := fun ps =>
    ⟨canonical_and_printing_of_parts, fun ⟨hps, h⟩ => parts_of_printing hps h⟩
  refine ⟨hok, ?_⟩
  simp only [← hok]
  cases h : parts line with
  | ok ps => simp
  | error e =>
    rcases partsOf_error h with rfl | rfl <;> simp

/-- Markers that share characters are read from left to right. -/
example : (parts "  a!@! x@!@b ".toList).toOption =
    some [.fixed ['a'], .dynamic "! x".toList, .fixed "@b".toList] := by
  decide +kernel

end Stencil.Marker
