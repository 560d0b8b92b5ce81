import Stencil.Identifier
import Stencil.Proofs.Cutting

/-!
# Words and tokens

A word may be written with its ASCII letters in either case, and nothing else about it
may change. So a text that is written as a token of symbols is that token, and one that
is written as a keyword consists of letters like the keyword itself. A token of one
character splits a text at each place where the character stands.

## Main definitions

* `Text.Solid`: a text that trimming leaves whole, and that is not empty.
* `Text.leadingWord`: the identifier characters at the front of a text.
-/
namespace Stencil.Text

variable {s t u w w' k token rest : Text} {a c : Char}

/-! ## Words in either case -/

/-- The ASCII letters. -/
def isLetter (c : Char) : Bool := ('A' ≤ c && c ≤ 'Z') || ('a' ≤ c && c ≤ 'z')

theorem sameLetters_iff : sameLetters s t = true ↔ s.map lowerAscii = t.map lowerAscii := by
  induction s generalizing t with
  | nil => cases t <;> simp [sameLetters]
  | cons a s ih => cases t <;> simp [sameLetters, sameLetter, ih]

@[simp] theorem sameLetters_refl (s : Text) : sameLetters s s = true := sameLetters_iff.2 rfl

theorem sameLetters_symm (h : sameLetters s t = true) : sameLetters t s = true :=
  sameLetters_iff.2 (sameLetters_iff.1 h).symm

theorem sameLetters_trans (h : sameLetters s t = true) (h' : sameLetters t u = true) :
    sameLetters s u = true :=
  sameLetters_iff.2 ((sameLetters_iff.1 h).trans (sameLetters_iff.1 h'))

theorem sameLetters_append (h : sameLetters s t = true) (h' : sameLetters w w' = true) :
    sameLetters (s ++ w) (t ++ w') = true := by
  rw [sameLetters_iff] at *
  simp [h, h']

/-- A text written as two words, one behind the other, falls apart into them. -/
theorem exists_of_sameLetters_append (h : sameLetters k (s ++ t) = true) :
    ∃ k₁ k₂, k = k₁ ++ k₂ ∧ sameLetters k₁ s = true ∧ sameLetters k₂ t = true := by
  simp only [sameLetters_iff, List.map_append] at h ⊢
  exact List.map_eq_append_iff.1 h

theorem length_eq_of_sameLetters (h : sameLetters s t = true) : s.length = t.length := by
  simpa using congrArg List.length (sameLetters_iff.1 h)

/-- A property that holds of the capitals as of the small letters does not see lower-casing. -/
theorem apply_lowerAscii {p : Char → Bool}
    (hp : ∀ n < 26, p (Char.ofNat (65 + n + 32)) = p (Char.ofNat (65 + n))) (a : Char) :
    p (lowerAscii a) = p a := by
  rw [lowerAscii]
  split
  · next h =>
    have hlow : 65 ≤ a.toNat := h.1
    have hhigh : a.toNat ≤ 90 := h.2
    have hupper := hp (a.toNat - 65) (by omega)
    rwa [Nat.add_sub_cancel' hlow, Char.ofNat_toNat] at hupper
  · rfl

theorem isLetter_lowerAscii (a : Char) : isLetter (lowerAscii a) = isLetter a :=
  apply_lowerAscii (by decide) a

/-- Two ways to write a word consist of characters of the same sort. -/
theorem all_eq_of_sameLetters {p : Char → Bool} (hp : ∀ a, p (lowerAscii a) = p a)
    (h : sameLetters s t = true) : s.all p = t.all p := by
  have hmap : ∀ u : Text, (u.map lowerAscii).all p = u.all p := fun u => by
    simp [List.all_map, Function.comp_def, hp]
  rw [← hmap s, ← hmap t, sameLetters_iff.1 h]

theorem all_isLetter_of_sameLetters (h : sameLetters s t = true) (ht : t.all isLetter = true) :
    s.all isLetter = true :=
  (all_eq_of_sameLetters isLetter_lowerAscii h).trans ht

theorem lowerAscii_eq_self (hc : isLetter c = false) : lowerAscii c = c := by
  rw [lowerAscii, if_neg]
  rintro ⟨hlow, hhigh⟩
  simp [isLetter, hlow, hhigh] at hc

/-- Only a letter can be written in two ways. -/
theorem eq_of_lowerAscii_eq (hc : isLetter c = false) (h : lowerAscii a = lowerAscii c) :
    a = c := by
  have ha : isLetter a = false := by rw [← isLetter_lowerAscii, h, isLetter_lowerAscii, hc]
  rwa [lowerAscii_eq_self ha, lowerAscii_eq_self hc] at h

theorem eq_of_sameLetters (ht : t.any isLetter = false) (h : sameLetters s t = true) :
    s = t := by
  induction t generalizing s with
  | nil => simpa [sameLetters_iff] using h
  | cons c t ih =>
    cases s with
    | nil => cases h
    | cons a s =>
      obtain ⟨ha, hs⟩ : lowerAscii a = lowerAscii c ∧ sameLetters s t = true := by
        simpa [sameLetters, sameLetter] using h
      obtain ⟨hc, ht⟩ : isLetter c = false ∧ t.any isLetter = false := by
        simpa [Bool.or_eq_false_iff] using ht
      rw [eq_of_lowerAscii_eq hc ha, ih ht hs]

/-! ## Tokens at an end -/

/-- Cutting a token off the front leaves what stands behind it. -/
theorem dropFrontAnyCase?_eq_some_iff :
    dropFrontAnyCase? token t = some rest ↔ ∃ k, t = k ++ rest ∧ sameLetters k token = true := by
  unfold dropFrontAnyCase?
  induction token generalizing t with
  | nil => simp [dropFrontBy?, sameLetters_iff]
  | cons a token ih =>
    cases t with
    | nil =>
      simp only [dropFrontBy?, reduceCtorEq, false_iff]
      rintro ⟨k, hk, h⟩
      obtain ⟨rfl, -⟩ := List.append_eq_nil_iff.1 hk.symm
      cases h
    | cons b t =>
      rw [dropFrontBy?]
      split
      · next hab =>
        rw [ih]
        constructor
        · rintro ⟨k, rfl, h⟩
          exact ⟨b :: k, rfl, by simp_all [sameLetters, sameLetter]⟩
        · rintro ⟨k, hk, h⟩
          cases k with
          | nil => cases h
          | cons d k =>
            obtain ⟨rfl, rfl⟩ := List.cons.inj hk
            exact ⟨k, rfl, by simp_all [sameLetters]⟩
      · next hab =>
        simp only [reduceCtorEq, false_iff]
        rintro ⟨k, hk, h⟩
        cases k with
        | nil => cases h
        | cons d k =>
          obtain ⟨rfl, rfl⟩ := List.cons.inj hk
          simp_all [sameLetters, sameLetter]

theorem sameLetters_reverse : sameLetters s.reverse t.reverse = sameLetters s t := by
  rw [Bool.eq_iff_iff, sameLetters_iff, sameLetters_iff, List.map_reverse, List.map_reverse,
    List.reverse_inj]

/-- Cutting a token off the back leaves what stands before it. -/
theorem dropBackAnyCase?_eq_some_iff :
    dropBackAnyCase? token t = some rest ↔ ∃ k, t = rest ++ k ∧ sameLetters k token = true := by
  rw [dropBackAnyCase?, Option.map_eq_some_iff]
  constructor
  · rintro ⟨r, hr, rfl⟩
    obtain ⟨k, hk, h⟩ := dropFrontAnyCase?_eq_some_iff.1 hr
    refine ⟨k.reverse, by simpa using congrArg List.reverse hk, ?_⟩
    rw [← sameLetters_reverse, List.reverse_reverse, h]
  · rintro ⟨k, rfl, h⟩
    refine ⟨rest.reverse, dropFrontAnyCase?_eq_some_iff.2 ⟨k.reverse, by simp, ?_⟩, by simp⟩
    rw [sameLetters_reverse, h]

/-- A token of symbols can only be written as itself. -/
theorem dropBackAnyCase?_symbols_eq_some_iff (ht : token.any isLetter = false) :
    dropBackAnyCase? token t = some rest ↔ t = rest ++ token := by
  rw [dropBackAnyCase?_eq_some_iff]
  constructor
  · rintro ⟨k, rfl, h⟩
    rw [eq_of_sameLetters ht h]
  · rintro rfl
    exact ⟨token, rfl, sameLetters_refl token⟩

/-- A keyword at the front reaches up to the space behind it. -/
theorem dropFrontAnyCase?_keyword_eq_some_iff {word : Text} :
    dropFrontAnyCase? (word ++ [' ']) t = some rest ↔
      ∃ k, t = k ++ ' ' :: rest ∧ sameLetters k word = true := by
  rw [dropFrontAnyCase?_eq_some_iff]
  constructor
  · rintro ⟨k, rfl, h⟩
    obtain ⟨k₁, k₂, rfl, h₁, h₂⟩ := exists_of_sameLetters_append h
    obtain rfl : k₂ = [' '] := eq_of_sameLetters (by decide) h₂
    exact ⟨k₁, by simp, h₁⟩
  · rintro ⟨k, rfl, h⟩
    exact ⟨k ++ [' '], by simp, sameLetters_append h (sameLetters_refl _)⟩

/-! ## Splitting at a character -/

theorem occurs_singleton_iff : occurs [c] t = true ↔ c ∈ t := by
  rw [occurs_iff, List.mem_iff_append]
  simp

theorem cut?_singleton (h : c ∉ t) (rest : Text) : cut? [c] (t ++ c :: rest) = some (t, rest) := by
  induction t with
  | nil =>
    have hfront : dropFront? [c] (c :: rest) = some rest := dropFront?_eq_some_iff.2 rfl
    simp [cut?_cons, hfront]
  | cons a t ih =>
    obtain ⟨hne, hmem⟩ : ¬ c = a ∧ c ∉ t := by simpa using h
    have hfront : dropFront? [c] (a :: (t ++ c :: rest)) = none := by
      simp [dropFront?, dropFrontBy?, hne]
    rw [List.cons_append, cut?_cons, hfront, ih hmem]
    rfl

theorem split_singleton_of_not_mem (h : c ∉ t) : split [c] t = [t] := by
  have hcut : cut? [c] t = none := by
    rw [cut?_eq_none_iff, ← Bool.not_eq_true, occurs_singleton_iff]
    exact h
  rw [split]
  split
  · rfl
  · split
    · rfl
    · next hsome => rw [hcut] at hsome; cases hsome

theorem split_singleton_append (h : c ∉ t) (rest : Text) :
    split [c] (t ++ c :: rest) = t :: split [c] rest := by
  rw [split]
  split
  · next hnil => cases hnil
  · split
    · next hnone => rw [cut?_singleton h] at hnone; cases hnone
    · next hsome =>
      rw [cut?_singleton h] at hsome
      cases hsome
      rfl

/-! ## Texts without blanks around them -/

/-- A text that is not empty, with no blank at its ends. -/
def Solid (t : Text) : Prop := t ≠ [] ∧ trim t = t

instance (t : Text) : Decidable (Solid t) := inferInstanceAs (Decidable (_ ∧ _))

theorem trim_eq_self (hhead : ∀ c, t.head? = some c → isBlank c = false)
    (hlast : ∀ c, t.getLast? = some c → isBlank c = false) : trim t = t := by
  rw [trim, trimStart_eq_self hhead, trimEnd_eq_self hlast]

/-- Trimming the back of a text leaves its first character that is not blank. -/
theorem head?_trim (t : Text) : (trim t).head? = (trimStart t).head? := by
  obtain ⟨w, hw, ht⟩ := exists_trimEnd_append (trimStart t)
  cases h : trim t with
  | nil =>
    have hblank : trimStart t = w := by rw [ht, show trimEnd (trimStart t) = [] from h]; rfl
    rw [List.head?_nil, eq_comm, Option.eq_none_iff_forall_ne_some]
    intro c hc
    have hmem : c ∈ w := hblank ▸ List.mem_of_head? hc
    have hsolid := isBlank_of_head?_trimStart hc
    rw [List.all_eq_true.1 hw c hmem] at hsolid
    cases hsolid
  | cons c r =>
    rw [ht, show trimEnd (trimStart t) = c :: r from h]
    rfl

theorem Solid.trim_pad (ht : Solid t) (hw : w.all isBlank = true) (hw' : w'.all isBlank = true) :
    trim (w ++ t ++ w') = t :=
  (trim_append_append hw hw' t).trans ht.2

theorem Solid.trim_pad_front (ht : Solid t) (hw : w.all isBlank = true) : trim (w ++ t) = t := by
  have hnil : ([] : Text).all isBlank = true := rfl
  simpa using ht.trim_pad hw hnil

theorem Solid.trim_pad_back (ht : Solid t) (hw : w.all isBlank = true) : trim (t ++ w) = t := by
  have hnil : ([] : Text).all isBlank = true := rfl
  simpa using ht.trim_pad hnil hw

theorem Solid.isBlankText_eq_false (ht : Solid t) : isBlankText t = false := by
  rw [isBlankText, ht.2, List.isEmpty_eq_false_iff]
  exact ht.1

/-- Between two solid texts there may be anything. -/
theorem Solid.append (hs : Solid s) (ht : Solid t) (u : Text) : Solid (s ++ u ++ t) := by
  obtain ⟨a, s', rfl⟩ := List.exists_cons_of_ne_nil hs.1
  refine ⟨by simp, trim_eq_self (fun c hc => ?_) fun c hc => ?_⟩
  · obtain rfl : a = c := by simpa using hc
    refine isBlank_of_head?_trim (t := a :: s') ?_
    rw [hs.2]
    rfl
  · refine isBlank_of_getLast?_trimEnd (t := trimStart t) ?_
    rw [show trimEnd (trimStart t) = t from ht.2]
    rwa [List.getLast?_append, List.getLast?_eq_some_getLast ht.1, Option.some_or,
      ← List.getLast?_eq_some_getLast ht.1] at hc

theorem solid_of_all {p : Char → Bool} (hp : ∀ c, p c = true → isBlank c = false) (hne : t ≠ [])
    (h : t.all p = true) : Solid t := by
  have hmem : ∀ c ∈ t, isBlank c = false := fun c hc => hp c (List.all_eq_true.1 h c hc)
  exact ⟨hne, trim_eq_self (fun c hc => hmem c (List.mem_of_head? hc)) fun c hc =>
    hmem c (List.mem_of_getLast? hc)⟩

theorem not_mem_of_all {p : Char → Bool} (h : t.all p = true) (hc : p c = false) : c ∉ t := by
  intro hmem
  rw [List.all_eq_true.1 h c hmem] at hc
  cases hc

/-! ## Identifiers -/

/-- What holds of all ASCII characters can be checked one by one. -/
theorem of_ascii {P : Char → Prop} (h : ∀ n < 128, P (Char.ofNat n)) (hc : c.toNat < 128) :
    P c := by
  have hcode := h c.toNat hc
  rwa [Char.ofNat_toNat] at hcode

theorem toNat_lt_of_isIdentifierRest (h : isIdentifierRest c = true) : c.toNat < 128 := by
  have hle : ∀ d : Char, d.toNat < 128 → c ≤ d → c.toNat < 128 := fun d hd hcd =>
    Nat.lt_of_le_of_lt hcd hd
  simp only [isIdentifierRest, isIdentifierStart, Bool.or_eq_true, Bool.and_eq_true,
    decide_eq_true_eq, beq_iff_eq] at h
  rcases h with ((h | h) | rfl) | h
  · exact hle 'Z' (by decide) h.2
  · exact hle 'z' (by decide) h.2
  · decide
  · exact hle '9' (by decide) h.2

theorem isBlank_of_isIdentifierRest (h : isIdentifierRest c = true) : isBlank c = false :=
  of_ascii (P := fun c => isIdentifierRest c = true → isBlank c = false) (by decide +kernel)
    (toNat_lt_of_isIdentifierRest h) h

theorem isIdentifierRest_of_isLetter (h : isLetter c = true) : isIdentifierRest c = true := by
  rw [isIdentifierRest, isIdentifierStart, ← isLetter, h]
  rfl

theorem all_of_isIdentifier (h : isIdentifier t = true) : t.all isIdentifierRest = true := by
  cases t with
  | nil => rfl
  | cons c t => simp_all [isIdentifier, isIdentifierRest]

theorem isIdentifier_eq_false_of_mem (hmem : c ∈ t) (hc : isIdentifierRest c = false) :
    isIdentifier t = false := by
  rw [← Bool.not_eq_true]
  exact fun h => not_mem_of_all (all_of_isIdentifier h) hc hmem

/-- An identifier starts with a letter or an underscore. -/
theorem exists_head_of_isIdentifier (h : isIdentifier t = true) :
    ∃ c r, t = c :: r ∧ isIdentifierStart c = true := by
  cases t with
  | nil => cases h
  | cons c r =>
    rw [isIdentifier, Bool.and_eq_true] at h
    exact ⟨c, r, rfl, h.1⟩

theorem solid_of_isIdentifier (h : isIdentifier t = true) : Solid t := by
  refine solid_of_all (fun c => isBlank_of_isIdentifierRest) ?_ (all_of_isIdentifier h)
  rintro rfl
  cases h

theorem isIdentifier_of_letters (hne : t ≠ []) (h : t.all isLetter = true) :
    isIdentifier t = true := by
  obtain ⟨c, t, rfl⟩ := List.exists_cons_of_ne_nil hne
  obtain ⟨hc, ht⟩ : isLetter c = true ∧ t.all isLetter = true := by simpa using h
  rw [isIdentifier, isIdentifierStart, ← isLetter, hc, Bool.true_or, Bool.true_and]
  exact List.all_eq_true.2 fun d hd =>
    isIdentifierRest_of_isLetter (List.all_eq_true.1 ht d hd)

/-- The identifier characters at the front of a text. -/
def leadingWord (t : Text) : Text := t.takeWhile isIdentifierRest

theorem leadingWord_append (ht : t.all isIdentifierRest = true)
    (hrest : ∀ c, rest.head? = some c → isIdentifierRest c = false) :
    leadingWord (t ++ rest) = t := by
  have hnil : rest.takeWhile isIdentifierRest = [] := by
    cases rest with
    | nil => rfl
    | cons c rest => simp [hrest c rfl]
  rw [leadingWord, List.takeWhile_append_of_pos (by simpa using ht), hnil, List.append_nil]

end Stencil.Text
