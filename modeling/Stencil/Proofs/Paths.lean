import Stencil.Disk
import Stencil.Proofs.Tokens

/-!
# The steps of paths

A path is taken apart at its slashes, and what is between them are its steps. A path that
is joined from two has the steps of both, and a path without its last name has the other
names for steps. A path that is written without anything that says nothing is given by its
names.

## Main definitions

* `Path.IsPlain`: the paths that lead from name to name and nowhere else.
-/
namespace Stencil

/-! ## Texts between separators -/

namespace Text

variable {c : Char} {t part : Text}

/-- A text is one part, or a part with a separator and a text behind it. -/
theorem parts_induction {motive : Text → Prop} (last : ∀ t, c ∉ t → motive t)
    (more : ∀ t rest, c ∉ t → motive rest → motive (t ++ c :: rest)) (t : Text) : motive t := by
  induction hn : t.length using Nat.strongRecOn generalizing t with
  | ind n ih =>
    by_cases hc : c ∈ t
    · obtain ⟨a, b, rfl, ha⟩ := List.eq_append_cons_of_mem hc
      have hlt : b.length < n := by
        rw [← hn, List.length_append, List.length_cons]
        omega
      exact more a b ha (ih _ hlt b rfl)
    · exact last t hc

/-- A separator keeps what is before it from what is behind it. -/
theorem split_append_cons (a b : Text) : split [c] (a ++ c :: b) = split [c] a ++ split [c] b := by
  induction a using parts_induction (c := c) with
  | last a ha => rw [split_singleton_append ha, split_singleton_of_not_mem ha]; rfl
  | more t rest ht ih =>
    rw [List.append_assoc, List.cons_append, split_singleton_append ht,
      split_singleton_append ht, ih]
    rfl

theorem not_mem_of_mem_split (h : part ∈ split [c] t) : c ∉ part := by
  induction t using parts_induction (c := c) with
  | last t ht =>
    rw [split_singleton_of_not_mem ht, List.mem_singleton] at h
    rwa [h]
  | more a rest ha ih =>
    rw [split_singleton_append ha, List.mem_cons] at h
    rcases h with rfl | h
    · exact ha
    · exact ih h

theorem split_ne_nil (t : Text) : split [c] t ≠ [] := by
  induction t using parts_induction (c := c) with
  | last t ht => simp [split_singleton_of_not_mem ht]
  | more a rest ha _ => simp [split_singleton_append ha]

/-- The parts with the separators between them are the text. -/
theorem intercalate_split (t : Text) : List.intercalate [c] (split [c] t) = t := by
  induction t using parts_induction (c := c) with
  | last t ht => simp [split_singleton_of_not_mem ht]
  | more a rest ha ih =>
    rw [split_singleton_append ha, List.intercalate_cons_of_ne_nil (split_ne_nil rest), ih]
    simp

/-- Parts without separators are what the text that is made of them falls into. -/
theorem split_intercalate {parts : List Text} (hne : parts ≠ []) (h : ∀ part ∈ parts, c ∉ part) :
    split [c] (List.intercalate [c] parts) = parts := by
  induction parts with
  | nil => exact absurd rfl hne
  | cons part parts ih =>
    have hpart : c ∉ part := h part (List.mem_cons_self ..)
    cases parts with
    | nil => simpa using split_singleton_of_not_mem hpart
    | cons next parts =>
      have hrest := ih (List.cons_ne_nil _ _) fun p hp => h p (List.mem_cons_of_mem _ hp)
      rw [List.intercalate_cons_of_ne_nil (List.cons_ne_nil _ _), List.append_assoc,
        List.singleton_append, split_singleton_append hpart, hrest]

theorem intercalate_append {front back : List Text} (hfront : front ≠ []) (hback : back ≠ []) :
    List.intercalate [c] (front ++ back) =
      List.intercalate [c] front ++ c :: List.intercalate [c] back := by
  induction front with
  | nil => exact absurd rfl hfront
  | cons part parts ih =>
    rcases Decidable.em (parts = []) with rfl | hne
    · simp [List.intercalate_cons_of_ne_nil hback]
    · have hmore : parts ++ back ≠ [] := List.append_ne_nil_of_left_ne_nil hne back
      rw [List.cons_append, List.intercalate_cons_of_ne_nil hmore, ih hne,
        List.intercalate_cons_of_ne_nil hne, List.append_assoc _ _ (c :: _)]

/-- Parts that are left out take their separators with them. -/
theorem sublist_intercalate {some all : List Text} (h : some.Sublist all) :
    (List.intercalate [c] some).Sublist (List.intercalate [c] all) := by
  induction h with
  | slnil => exact List.Sublist.refl _
  | @cons some all part h ih =>
    rcases Decidable.em (all = []) with rfl | hne
    · rw [List.sublist_nil.1 h]
      simp
    · rw [List.intercalate_cons_of_ne_nil hne]
      exact ih.trans (List.sublist_append_right _ _)
  | @cons_cons some all part h ih =>
    rcases Decidable.em (some = []) with rfl | hsome
    · rcases Decidable.em (all = []) with rfl | hall
      · exact List.Sublist.refl _
      · rw [List.intercalate_cons_of_ne_nil hall, List.append_assoc]
        simp
    · have hall : all ≠ [] := by
        rintro rfl
        exact hsome (List.sublist_nil.1 h)
      rw [List.intercalate_cons_of_ne_nil hsome, List.intercalate_cons_of_ne_nil hall]
      exact List.Sublist.append (List.Sublist.refl _) ih

end Text

/-! ## What a path says -/

namespace Disk

variable {path root name step : Text}

/-- What is left out of a text takes no bytes. -/
theorem bytes_le_of_sublist {s t : Text} (h : s.Sublist t) : bytes s ≤ bytes t := by
  unfold bytes
  induction h with
  | slnil => exact Nat.le_refl _
  | cons c _ ih => exact Nat.le_trans ih (Nat.le_add_left _ _)
  | cons_cons c _ ih => exact Nat.add_le_add_left ih _

theorem steps_append_cons (a b : Text) : steps (a ++ '/' :: b) = steps a ++ steps b := by
  unfold steps
  rw [Text.split_append_cons, List.filter_append]

@[simp] theorem steps_nil : steps [] = [] := by
  rw [steps, Text.split_singleton_of_not_mem (by simp)]
  rfl

/-- A joined path has the steps of the directory and then those of the path. -/
theorem steps_join (root name : Text) : steps (Path.join root name) = steps root ++ steps name := by
  unfold Path.join
  by_cases hnil : root = []
  · simp [hnil]
  · by_cases hslash : root.getLast? = some '/'
    · obtain ⟨front, rfl⟩ := List.getLast?_eq_some_iff.1 hslash
      have hsteps : steps (front ++ ['/']) = steps front := by
        rw [steps_append_cons, steps_nil, List.append_nil]
      rw [if_pos (by simp), hsteps, List.append_assoc, List.singleton_append, steps_append_cons]
    · rw [if_neg (by simp [hnil, hslash]), steps_append_cons]

theorem mem_steps (h : step ∈ steps path) : step ≠ [] ∧ '/' ∉ step := by
  obtain ⟨hsplit, hne⟩ := List.mem_filter.1 h
  exact ⟨by simpa using hne, Text.not_mem_of_mem_split hsplit⟩

/-- The names of a path are its steps without those that stay where they are. -/
theorem names_eq (path : Text) : Path.names path = (steps path).filter (· ≠ ['.']) := by
  rw [Path.names, steps, List.filter_filter]
  congr 1
  funext step
  by_cases h : step = ['.'] <;> simp [h]

/-- Steps with slashes between them are the steps of what is written. -/
theorem steps_intercalate {parts : List Text} (h : ∀ part ∈ parts, part ≠ [] ∧ '/' ∉ part) :
    steps (List.intercalate ['/'] parts) = parts := by
  rcases Decidable.em (parts = []) with rfl | hne
  · exact steps_nil
  · rw [steps, Text.split_intercalate hne fun part hpart => (h part hpart).2, List.filter_eq_self]
    intro part hpart
    simpa using (h part hpart).1

end Disk

namespace Path

variable {path root name n a b : Text}

theorem names_join (root name : Text) : names (join root name) = names root ++ names name := by
  rw [Disk.names_eq, Disk.steps_join, List.filter_append, ← Disk.names_eq, ← Disk.names_eq]

theorem exists_join_eq (root name : Text) : ∃ front, join root name = front ++ name := by
  unfold join
  split
  · exact ⟨root, rfl⟩
  · exact ⟨root ++ ['/'], by simp⟩

theorem mem_names (h : n ∈ names path) : n ≠ [] ∧ '/' ∉ n ∧ n ≠ ['.'] := by
  rw [Disk.names_eq, List.mem_filter] at h
  obtain ⟨hne, hslash⟩ := Disk.mem_steps h.1
  exact ⟨hne, hslash, by simpa using h.2⟩

theorem names_cons_slash (path : Text) : names ('/' :: path) = names path := by
  rw [Disk.names_eq, Disk.names_eq, ← List.nil_append ('/' :: path), Disk.steps_append_cons]
  simp

/-- A relative path starts where the directory starts under which it is put. -/
theorem isAbsolute_join (h : isAbsolute name = false) :
    isAbsolute (join root name) = isAbsolute root := by
  unfold join
  cases root with
  | nil => exact h
  | cons c root =>
    split
    · rw [List.cons_append]
      unfold isAbsolute
      split <;> simp_all
    · rw [List.cons_append]
      unfold isAbsolute
      split <;> simp_all

/-! ## The path without its last name -/

theorem steps_intercalate_dropLast (path : Text) :
    Disk.steps (List.intercalate ['/'] (names path).dropLast) = (names path).dropLast := by
  refine Disk.steps_intercalate fun part hpart => ?_
  obtain ⟨hne, hslash, -⟩ := mem_names (List.dropLast_subset _ hpart)
  exact ⟨hne, hslash⟩

theorem steps_parent (path : Text) : Disk.steps (parent path) = (names path).dropLast := by
  unfold parent
  split
  · rw [List.singleton_append, ← List.nil_append ('/' :: _), Disk.steps_append_cons,
      steps_intercalate_dropLast]
    simp
  · rw [List.nil_append, steps_intercalate_dropLast]

theorem isAbsolute_parent (path : Text) : isAbsolute (parent path) = isAbsolute path := by
  unfold parent
  split
  · next h => rw [h]; rfl
  · next h =>
    rw [List.nil_append, Bool.eq_false_iff.2 h]
    have hmem := fun n (hn : n ∈ (names path).dropLast) => mem_names (List.dropLast_subset _ hn)
    cases hparts : (names path).dropLast with
    | nil => rfl
    | cons part parts =>
      obtain ⟨hne, hslash, -⟩ := hmem part (hparts ▸ List.mem_cons_self ..)
      obtain ⟨c, part, rfl⟩ := List.exists_cons_of_ne_nil hne
      have hc : c ≠ '/' := by
        rintro rfl
        exact hslash (List.mem_cons_self ..)
      cases parts <;> simp [isAbsolute, List.intercalate_cons_of_ne_nil, hc]

/-- The path without its last name is written with what is written in the path. -/
theorem parent_sublist (path : Text) : (parent path).Sublist path := by
  have hnames (t : Text) : (List.intercalate ['/'] (names t).dropLast).Sublist t := by
    have hparts : (names t).dropLast.Sublist (Text.split ['/'] t) :=
      (List.dropLast_sublist _).trans List.filter_sublist
    simpa [Text.intercalate_split] using Text.sublist_intercalate (c := '/') hparts
  unfold parent
  split
  · next h =>
    unfold isAbsolute at h
    split at h
    · rw [names_cons_slash, List.singleton_append]
      exact (hnames _).cons_cons _
    · cases h
  · rw [List.nil_append]
    exact hnames path

/-! ## Plain paths -/

/-- A path that is names with single slashes between them, none of which leads back or
stays. -/
def IsPlain (path : Text) : Prop :=
  ∀ part ∈ Text.split ['/'] path, part ≠ [] ∧ part ≠ ['.'] ∧ part ≠ ['.', '.']

instance : DecidablePred IsPlain := fun path =>
  inferInstanceAs (Decidable (∀ part ∈ Text.split ['/'] path, _))

namespace IsPlain

theorem names_eq_split (h : IsPlain path) : names path = Text.split ['/'] path := by
  rw [names, List.filter_eq_self]
  intro part hpart
  obtain ⟨hne, hdot, -⟩ := h part hpart
  simp [hne, hdot]

theorem steps_eq_names (h : IsPlain path) : Disk.steps path = names path := by
  rw [h.names_eq_split, Disk.steps, List.filter_eq_self]
  intro part hpart
  simpa using (h part hpart).1

theorem names_ne_nil (h : IsPlain path) : names path ≠ [] := by
  rw [h.names_eq_split]
  exact Text.split_ne_nil path

/-- Plain paths with the same names are written alike. -/
theorem eq_of_names_eq (ha : IsPlain a) (hb : IsPlain b) (h : names a = names b) : a = b := by
  rw [ha.names_eq_split, hb.names_eq_split] at h
  rw [← Text.intercalate_split (c := '/') a, h, Text.intercalate_split]

/-- A plain path whose names come first in another is the other, or a directory of it. -/
theorem eq_or_below (ha : IsPlain a) (hb : IsPlain b) (h : names a <+: names b) :
    a = b ∨ a ++ ['/'] <+: b := by
  obtain ⟨rest, hrest⟩ := h
  rcases Decidable.em (rest = []) with rfl | hne
  · exact .inl (eq_of_names_eq ha hb (by simpa using hrest))
  · refine .inr ⟨List.intercalate ['/'] rest, ?_⟩
    rw [ha.names_eq_split, hb.names_eq_split] at hrest
    rw [← Text.intercalate_split (c := '/') b, ← hrest,
      Text.intercalate_append (Text.split_ne_nil a) hne, Text.intercalate_split,
      List.append_assoc, List.singleton_append]

theorem back_not_mem (h : IsPlain path) : ['.', '.'] ∉ names path := by
  rw [h.names_eq_split]
  intro hmem
  exact (h _ hmem).2.2 rfl

/-- A plain path ends in a name. -/
theorem getLast?_ne (h : IsPlain path) : path.getLast? ≠ some '/' := by
  intro hlast
  obtain ⟨front, rfl⟩ := List.getLast?_eq_some_iff.1 hlast
  refine (h [] ?_).1 rfl
  rw [Text.split_append_cons, Text.split_singleton_of_not_mem (t := []) (by simp)]
  simp

theorem not_escapes (h : IsPlain path) : escapes path = false := by
  have hne : path ≠ [] := by
    rintro rfl
    exact (h [] (by rw [Text.split_singleton_of_not_mem (by simp)]; simp)).1 rfl
  have habsolute : isAbsolute path = false := by
    unfold isAbsolute
    split
    · next rest =>
      have hmem : [] ∈ Text.split ['/'] ('/' :: rest) := by
        rw [← List.nil_append ('/' :: rest), Text.split_append_cons,
          Text.split_singleton_of_not_mem (by simp)]
        simp
      exact absurd rfl (h [] hmem).1
    · rfl
  simp [escapes, hne, habsolute, h.back_not_mem]

end IsPlain

end Path
end Stencil
