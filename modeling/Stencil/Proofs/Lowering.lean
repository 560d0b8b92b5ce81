import Stencil.Text.Case
import Stencil.Proofs.Tokens

/-!
# Lower-casing and ASCII

An ASCII character has one ASCII character for its lower-case form, whatever is around it. What
becomes of any other character is outside ASCII too, except that the Kelvin sign becomes `k` and
the capital I with a dot starts with `i`. So a text without these two letters is looked for in a
lower-case form as it is looked for in the text itself, and finds what is written with its ASCII
letters in either case.

## Main definitions

* `Text.Foreign`: the characters that those outside ASCII become.
* `Text.Steady`: the characters that only ASCII characters become.
-/
namespace Stencil.Text

variable {c d : Char} {before t token : Text}

/-! ## What characters become -/

/-- The characters that those outside ASCII become. -/
def Foreign (c : Char) : Prop := 128 ≤ c.toNat ∨ c = 'i' ∨ c = 'k'

/-- The ASCII characters but `i` and `k`. -/
def Steady (c : Char) : Prop := c.toNat < 128 ∧ c ≠ 'i' ∧ c ≠ 'k'

instance (c : Char) : Decidable (Steady c) := inferInstanceAs (Decidable (_ ∧ _ ∧ _))

theorem Foreign.not_steady (h : Foreign c) : ¬ Steady c := by
  rintro ⟨hlt, hi, hk⟩
  rcases h with h | h | h
  · omega
  · exact hi h
  · exact hk h

theorem toNat_ofNat {n : Nat} (h : n.isValidChar) : (Char.ofNat n).toNat = n := by
  rw [Char.ofNat, dif_pos h]
  rfl

theorem lowerAscii_of_le (h : 128 ≤ c.toNat) : lowerAscii c = c := by
  rw [lowerAscii, if_neg]
  rintro ⟨-, hhigh⟩
  have hle : c.toNat ≤ 90 := hhigh
  omega

theorem lowerChar_of_lt (h : c.toNat < 128) : lowerChar c = [lowerAscii c] := by
  have hcapital : ('A' ≤ c ∧ c ≤ 'Z') ↔ 0x41 ≤ c.toNat ∧ c.toNat ≤ 0x5A := Iff.rfl
  simp only [lowerChar, if_pos h, lowerAscii, hcapital]

/-- An ASCII character becomes one, whatever is around it. -/
theorem lowerBetween_of_lt (h : c.toNat < 128) (before behind : Text) :
    lowerBetween before c behind = [lowerAscii c] := by
  have hsigma : c ≠ capitalSigma := by
    rintro rfl
    exact absurd h (by decide)
  rw [lowerBetween, if_neg hsigma, lowerChar_of_lt h]

/-- The runs beyond ASCII lead to characters beyond ASCII, but for the Kelvin sign. -/
theorem lowerRuns_foreign : ∀ run ∈ CaseTable.lowerRuns,
    run.2.1 < 128 ∨ (run.1 = 0x212a ∧ run.2.1 = 0x212a ∧ run.2.2.2 = -8383) ∨
      (128 ≤ run.1 + run.2.2.2 ∧ run.2.1 + run.2.2.2 < 0xD800) ∨
      (0xE000 ≤ run.1 + run.2.2.2 ∧ run.2.1 + run.2.2.2 < 0x110000) := by
  decide +kernel

/-- A run takes a character beyond ASCII to a foreign one. -/
theorem foreign_of_run {n first last step : Nat} {shift : Int} (hn : 128 ≤ n)
    (hrun : (first, last, step, shift) ∈ CaseTable.lowerRuns) (hfirst : first ≤ n)
    (hlast : n ≤ last) : Foreign (Char.ofNat (n + shift).toNat) := by
  rcases lowerRuns_foreign _ hrun with h | ⟨h, h', hshift⟩ | ⟨h, h'⟩ | ⟨h, h'⟩
  · have hascii : last < 128 := h
    omega
  · obtain rfl : first = 0x212a := h
    obtain rfl : last = 0x212a := h'
    obtain rfl : shift = -8383 := hshift
    obtain rfl : n = 0x212a := by omega
    exact .inr (.inr rfl)
  · have hlow : 128 ≤ (first : Int) + shift := h
    have hhigh : (last : Int) + shift < 0xD800 := h'
    have hvalid : (n + shift).toNat.isValidChar := .inl (by omega)
    refine .inl ?_
    rw [toNat_ofNat hvalid]
    omega
  · have hlow : 0xE000 ≤ (first : Int) + shift := h
    have hhigh : (last : Int) + shift < 0x110000 := h'
    have hvalid : (n + shift).toNat.isValidChar := .inr ⟨by omega, by omega⟩
    refine .inl ?_
    rw [toNat_ofNat hvalid]
    omega

theorem foreign_of_mem_lowerChar (h : 128 ≤ c.toNat) (hd : d ∈ lowerChar c) : Foreign d := by
  simp only [lowerChar] at hd
  rw [if_neg (by omega)] at hd
  split at hd
  · rcases List.mem_cons.1 hd with rfl | hd
    · exact .inr (.inl rfl)
    · obtain rfl := List.mem_singleton.1 hd
      exact .inl (by decide)
  · split at hd
    · next first last step shift hfind =>
      obtain rfl := List.mem_singleton.1 hd
      have hrange := List.find?_some hfind
      simp only [Bool.and_eq_true, decide_eq_true_eq] at hrange
      exact foreign_of_run h (List.mem_of_find?_eq_some hfind) hrange.1.1 hrange.1.2
    · obtain rfl := List.mem_singleton.1 hd
      exact .inl h

/-- A character outside ASCII becomes foreign ones. -/
theorem foreign_of_mem_lowerBetween (h : 128 ≤ c.toNat) {behind : Text}
    (hd : d ∈ lowerBetween before c behind) : Foreign d := by
  unfold lowerBetween at hd
  split at hd
  · obtain rfl := List.mem_singleton.1 hd
    unfold lowerSigma
    split
    · exact .inl (by decide)
    · exact .inl (by decide)
  · exact foreign_of_mem_lowerChar h hd

theorem lowerBetween_ne_nil (before : Text) (c : Char) (behind : Text) :
    lowerBetween before c behind ≠ [] := by
  unfold lowerBetween
  split
  · simp
  · simp only [lowerChar]
    split
    · simp
    · split
      · simp
      · split <;> simp

/-! ## Looking for texts in a lower-case form -/

/-- A steady text stands in front of a lower-case form when it stands in front of the text,
written in either case. -/
theorem isPrefix_lowerAfter_iff (htoken : ∀ c ∈ token, Steady c) (before t : Text) :
    token <+: lowerAfter before t ↔ ∃ k, k <+: t ∧ k.map lowerAscii = token := by
  induction token generalizing before t with
  | nil => simp
  | cons a token ih =>
    obtain ⟨ha, htoken⟩ := List.forall_mem_cons.1 htoken
    cases t with
    | nil => simp
    | cons c t =>
      rw [lowerAfter_cons]
      by_cases hc : c.toNat < 128
      · rw [lowerBetween_of_lt hc, List.singleton_append, List.cons_prefix_cons, ih htoken]
        constructor
        · rintro ⟨hac, k, hk, hmap⟩
          refine ⟨c :: k, List.cons_prefix_cons.2 ⟨rfl, hk⟩, ?_⟩
          rw [List.map_cons, hmap, hac]
        · rintro ⟨k, hk, hmap⟩
          obtain ⟨b, k, rfl, hb, hmap⟩ := List.map_eq_cons_iff.1 hmap
          obtain ⟨rfl, htail⟩ := List.cons_prefix_cons.1 hk
          exact ⟨hb.symm, k, htail, hmap⟩
      · have hforeign : 128 ≤ c.toNat := by omega
        constructor
        · intro h
          obtain ⟨d, ds, hds⟩ := List.exists_cons_of_ne_nil (lowerBetween_ne_nil before c t)
          have hmem : d ∈ lowerBetween before c t := by
            rw [hds]
            exact List.mem_cons_self
          have hd : Foreign d := foreign_of_mem_lowerBetween hforeign hmem
          rw [hds, List.cons_append, List.cons_prefix_cons] at h
          exact absurd (h.1 ▸ ha) hd.not_steady
        · rintro ⟨k, hk, hmap⟩
          obtain ⟨b, k, rfl, hb, -⟩ := List.map_eq_cons_iff.1 hmap
          obtain ⟨rfl, -⟩ := List.cons_prefix_cons.1 hk
          rw [lowerAscii_of_le hforeign] at hb
          rw [← hb] at ha
          exact absurd ha.1 hc

theorem isPrefix_lower_iff (htoken : ∀ c ∈ token, Steady c)
    (hlower : token.map lowerAscii = token) :
    token <+: lower t ↔ (dropFrontAnyCase? token t).isSome := by
  rw [lower, isPrefix_lowerAfter_iff htoken, Option.isSome_iff_exists]
  simp only [dropFrontAnyCase?_eq_some_iff, sameLetters_iff, hlower]
  constructor
  · rintro ⟨k, ⟨rest, ht⟩, hk⟩
    exact ⟨rest, k, ht.symm, hk⟩
  · rintro ⟨rest, k, ht, hk⟩
    exact ⟨k, ⟨rest, ht.symm⟩, hk⟩

/-- The last character of a text becomes the last ones of its lower-case form. -/
theorem exists_lowerAfter_concat (before front : Text) (c : Char) :
    ∃ done, lowerAfter before (front ++ [c]) =
      done ++ lowerBetween (front.reverse ++ before) c [] := by
  induction front generalizing before with
  | nil => exact ⟨[], by simp [lowerAfter_cons]⟩
  | cons b front ih =>
    obtain ⟨done, hdone⟩ := ih (b :: before)
    refine ⟨lowerBetween before b (front ++ [c]) ++ done, ?_⟩
    rw [List.cons_append, lowerAfter_cons, hdone]
    simp

/-- A symbol ends a lower-case form when it ends the text. -/
theorem getLast?_lower_iff (hsteady : Steady d) (hd : isLetter d = false) :
    (lower t).getLast? = some d ↔ t.getLast? = some d := by
  rcases List.eq_nil_or_concat t with rfl | ⟨front, c, rfl⟩
  · rfl
  · obtain ⟨done, hdone⟩ := exists_lowerAfter_concat [] front c
    have hne := lowerBetween_ne_nil (front.reverse ++ []) c []
    rw [List.concat_eq_append, lower, hdone, List.getLast?_append,
      Option.or_of_isSome (List.getLast?_isSome.2 hne), List.getLast?_concat, Option.some.injEq]
    by_cases hc : c.toNat < 128
    · rw [lowerBetween_of_lt hc, List.getLast?_singleton, Option.some.injEq]
      constructor
      · intro h
        exact eq_of_lowerAscii_eq hd (h.trans (lowerAscii_eq_self hd).symm)
      · rintro rfl
        exact lowerAscii_eq_self hd
    · have hforeign : 128 ≤ c.toNat := by omega
      constructor
      · intro h
        have hmem := foreign_of_mem_lowerBetween hforeign (List.mem_of_getLast? h)
        exact absurd hsteady hmem.not_steady
      · rintro rfl
        exact absurd hsteady.1 hc

end Stencil.Text
