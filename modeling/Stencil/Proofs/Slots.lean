import Stencil.Proofs.Frames

/-!
# The slots of a store

Frames are counted from the global one here, which is frame 0, so that a frame keeps its
number as long as it lives. A slot is a name in a frame. Declaring and assigning write one
slot: a declaration the one of its name in the last frame, an assignment the one of its
name in the innermost frame that has it. The slot gets a value of its kind, and every
other slot stays as it was.

## Main definitions

* `Frame.Sets`: a frame in which the value of one name is written.
* `Store.slot`, `Store.Holds`: the variable of a name in a frame, and its kind.
* `Store.Innermost`: the innermost frame that has a name.
* `Store.Updates`, `Store.Rewrites`: a store in which one slot is written, and one in which
  one frame is replaced.
-/
namespace Stencil

/-! ## Frames in which one name is written -/

namespace Frame

variable {f g : Frame} {name n : Text} {kind k : Kind} {value : Value} {v : Variable}

/-- A frame that can be read as a table: it has one variable for a name, whose value is of
the variable's kind. -/
structure Lawful (f : Frame) : Prop where
  distinct : (f.map Variable.name).Nodup
  typed : ∀ v ∈ f, v.value.kind? = some v.kind

/-- A frame with the value of one name written, which has the kind that the name had
before, if it was there. -/
structure Sets (name : Text) (k : Kind) (value : Value) (f g : Frame) : Prop where
  fits : value.kind? = some k
  kept : f.kind? name = some k ∨ f.kind? name = none
  get? : ∀ n, g.get? n = if n = name then some ⟨name, k, value⟩ else f.get? n
  lawful : f.Lawful → g.Lawful

theorem lawful_nil : Lawful [] := ⟨List.nodup_nil, by simp⟩

theorem mem_of_get? (h : f.get? n = some v) : v ∈ f := List.mem_of_find?_eq_some h

/-- Assigning writes one variable and leaves those around it. -/
theorem exists_of_assign? (h : f.assign? name value = some (.ok g)) :
    ∃ a v b, f = a ++ v :: b ∧ g = a ++ { v with value := value } :: b ∧
      value.kind? = some v.kind := by
  induction f generalizing g with
  | nil => cases h
  | cons v f ih =>
    rw [assign?] at h
    split at h
    · obtain ⟨w, hw, rfl⟩ := Steps.map_eq_ok_iff.1 (Option.some.inj h)
      obtain ⟨hkind, rfl⟩ := Variable.write_eq_ok_iff.1 hw
      exact ⟨[], v, f, rfl, rfl, hkind⟩
    · obtain ⟨r, hr, he⟩ := Option.map_eq_some_iff.1 h
      obtain ⟨g', rfl, rfl⟩ := Steps.map_eq_ok_iff.1 he
      obtain ⟨a, u, b, rfl, rfl, hkind⟩ := ih hr
      exact ⟨v :: a, u, b, rfl, rfl, hkind⟩

theorem lawful_assign? (h : f.assign? name value = some (.ok g)) (hf : f.Lawful) : g.Lawful := by
  obtain ⟨a, v, b, rfl, rfl, hkind⟩ := exists_of_assign? h
  obtain ⟨hdistinct, htyped⟩ := hf
  refine ⟨by simpa using hdistinct, fun w hw => ?_⟩
  rcases List.mem_append.1 hw with hw | hw
  · exact htyped w (List.mem_append_left _ hw)
  · rcases List.mem_cons.1 hw with rfl | hw
    · exact hkind
    · exact htyped w (List.mem_append_right _ (List.mem_cons_of_mem _ hw))

theorem exists_assign?_iff_get? : (∃ g, f.assign? name value = some (.ok g)) ↔
    ∃ v, f.get? name = some v ∧ value.kind? = some v.kind := by
  rw [exists_assign?_iff]
  constructor
  · rintro ⟨k, hk, hvalue⟩
    obtain ⟨v, hv, rfl⟩ := Option.map_eq_some_iff.1 hk
    exact ⟨v, hv, hvalue⟩
  · rintro ⟨v, hv, hvalue⟩
    exact ⟨v.kind, Option.map_eq_some_iff.2 ⟨v, hv, rfl⟩, hvalue⟩

/-- An assignment writes a name that the frame has. -/
theorem sets_of_assign? (h : f.assign? name value = some (.ok g)) :
    ∃ k, f.kind? name = some k ∧ Sets name k value f g := by
  obtain ⟨k, hk, hvalue⟩ := exists_assign?_iff.1 ⟨g, h⟩
  obtain ⟨v, hv, rfl⟩ := Option.map_eq_some_iff.1 hk
  refine ⟨v.kind, hk, hvalue, .inl hk, fun n => ?_, lawful_assign? h⟩
  rw [get?_assign? h n]
  split
  · next hn =>
    subst hn
    rw [hv, Option.map_some, name_of_get? hv]
  · rfl

theorem lawful_declare (h : f.declare name kind value = .ok g) (hf : f.Lawful) : g.Lawful := by
  rw [declare] at h
  split at h
  · next r hr =>
    subst h
    exact lawful_assign? hr hf
  · next hr =>
    obtain ⟨v, hv, rfl⟩ := Steps.map_eq_ok_iff.1 h
    obtain ⟨hkind, rfl⟩ := Variable.new_eq_ok_iff.1 hv
    have hnone : ∀ w ∈ f, w.name ≠ name := by
      have hnone := assign?_eq_none_iff.1 hr
      simpa [get?] using hnone
    refine ⟨?_, ?_⟩
    · rw [List.map_append, List.map_singleton, List.nodup_append]
      refine ⟨hf.distinct, by simp, ?_⟩
      intro a ha b hb
      obtain ⟨w, hw, rfl⟩ := List.mem_map.1 ha
      rw [List.mem_singleton.1 hb]
      exact hnone w hw
    · intro w hw
      rcases List.mem_append.1 hw with hw | hw
      · exact hf.typed w hw
      · rw [List.mem_singleton.1 hw]
        exact hkind

/-- A declaration writes its name, with the kind that the name has in the frame or else with
its own. -/
theorem sets_of_declare (h : f.declare name kind value = .ok g) :
    Sets name ((f.kind? name).getD kind) value f g := by
  refine ⟨exists_declare_iff.1 ⟨g, h⟩, ?_, get?_declare h, lawful_declare h⟩
  cases f.kind? name with
  | none => exact .inr rfl
  | some k => exact .inl rfl

end Frame

namespace Store

variable {s t : Store} {i j : Nat} {f g : Frame} {above below : List Frame} {name n m : Text}
  {kind k : Kind} {value : Value} {v w : Variable} {e : Error}

/-! ## Slots -/

/-- The variable that a frame has under a name. The global frame is frame 0. -/
def slot (s : Store) (i : Nat) (n : Text) : Option Variable := s.frames.reverse[i]?.bind (·.get? n)

/-- The number of the innermost frame, which declarations go to. -/
def top (s : Store) : Nat := s.locals.length

/-- A frame has a name, and no frame further in has it. -/
structure Innermost (s : Store) (i : Nat) (n : Text) : Prop where
  has : (s.slot i n).isSome
  first : ∀ j, i < j → s.slot j n = none

theorem Innermost.unique (h : s.Innermost i n) (h' : s.Innermost j n) : i = j := by
  rcases Nat.lt_trichotomy i j with hlt | he | hlt
  · have hhas := h'.has
    rw [h.first j hlt] at hhas
    cases hhas
  · exact he
  · have hhas := h.has
    rw [h'.first i hlt] at hhas
    cases hhas

theorem lt_depth_of_slot (h : s.slot i n = some v) : i < s.depth := by
  obtain ⟨f, hf, -⟩ := Option.bind_eq_some_iff.1 h
  have hlt := (List.getElem?_eq_some_iff.1 hf).1
  rwa [List.length_reverse, length_frames] at hlt

/-- A frame has a name, with a value of a kind. -/
def Holds (s : Store) (i : Nat) (n : Text) (k : Kind) : Prop :=
  ∃ v, s.slot i n = some v ∧ v.kind = k ∧ v.value.kind? = some k

theorem Holds.lt_depth (h : s.Holds i n k) : i < s.depth := by
  obtain ⟨v, hv, -⟩ := h
  exact lt_depth_of_slot hv

theorem slot_eq_none_of_depth_le (h : s.depth ≤ i) : s.slot i n = none := by
  rw [Option.eq_none_iff_forall_ne_some]
  intro v hv
  exact Nat.not_lt_of_le h (lt_depth_of_slot hv)

theorem name_of_slot (h : s.slot i n = some v) : v.name = n := by
  obtain ⟨f, -, hget⟩ := Option.bind_eq_some_iff.1 h
  exact Frame.name_of_get? hget

/-- The number of a frame is the number of the frames below it. -/
theorem slot_of_frames (h : s.frames = above ++ f :: below) (n : Text) :
    s.slot below.length n = f.get? n := by
  simp [slot, h]

theorem slot_below (h : s.frames = above ++ below) (hi : i < below.length) (n : Text) :
    s.slot i n = below.reverse[i]?.bind (·.get? n) := by
  rw [slot, h, List.reverse_append, List.getElem?_append_left (by simpa using hi)]

theorem slot_above (h : s.frames = above ++ f :: below) (hi : below.length < i) (n : Text) :
    s.slot i n = above.reverse[i - (below.length + 1)]?.bind (·.get? n) := by
  have hlength : (f :: below).reverse.length = below.length + 1 := by simp
  rw [slot, h, List.reverse_append, List.getElem?_append_right (by omega), hlength]

/-- The first frame of the stack that has a name is the innermost one. -/
theorem innermost_of_frames (h : s.frames = above ++ f :: below) (hf : (f.get? n).isSome)
    (hnone : ∀ f' ∈ above, f'.get? n = none) : s.Innermost below.length n := by
  refine ⟨by rwa [slot_of_frames h], fun j hj => ?_⟩
  rw [slot_above h hj, Option.bind_eq_none_iff]
  intro f' hf'
  exact hnone f' (List.mem_reverse.1 (List.mem_of_getElem? hf'))

/-- A new frame has no names, and those below it stay. -/
theorem slot_push (s : Store) (i : Nat) (n : Text) : s.push.slot i n = s.slot i n := by
  have hframes : s.push.frames = [] ++ [] :: s.frames := rfl
  rcases Nat.lt_or_ge i s.depth with hlt | hge
  · have hpush : s.push.frames = [[]] ++ s.frames := rfl
    rw [slot_below hpush (by rwa [length_frames])]
    rfl
  · have hnone : s.push.slot i n = none := by
      rcases Nat.eq_or_lt_of_le hge with rfl | hgt
      · rw [← length_frames]
        exact slot_of_frames hframes n
      · exact slot_eq_none_of_depth_le hgt
    rw [hnone, slot_eq_none_of_depth_le hge]

/-- Dropping a frame leaves those below it. -/
theorem slot_of_dropped (h : s.frames = f :: t.frames) (hi : i < t.depth) (n : Text) :
    t.slot i n = s.slot i n := by
  have hframes : s.frames = [f] ++ t.frames := h
  rw [slot_below hframes (by rwa [length_frames])]
  rfl

theorem exists_innermost_of_get? (h : s.get? n = some v) :
    ∃ i, s.Innermost i n ∧ s.slot i n = some v := by
  rw [get?_eq_findSome?] at h
  obtain ⟨above, f, below, hframes, hv, hnone⟩ := List.findSome?_eq_some_iff.1 h
  refine ⟨below.length, innermost_of_frames hframes (by rw [hv]; rfl) hnone, ?_⟩
  exact (slot_of_frames hframes n).trans hv

theorem slot_of_get?_eq_none (h : s.get? n = none) (i : Nat) : s.slot i n = none := by
  rw [get?_eq_findSome?] at h
  rw [slot, Option.bind_eq_none_iff]
  intro f hf
  exact List.findSome?_eq_none_iff.1 h f (List.mem_reverse.1 (List.mem_of_getElem? hf))

/-- A name denotes the variable of the innermost frame that has it. -/
theorem get?_eq_some_iff : s.get? n = some v ↔ ∃ i, s.Innermost i n ∧ s.slot i n = some v := by
  refine ⟨exists_innermost_of_get?, ?_⟩
  rintro ⟨i, hinner, hv⟩
  cases h : s.get? n with
  | none =>
    rw [slot_of_get?_eq_none h] at hv
    cases hv
  | some u =>
    obtain ⟨j, hinner', hu⟩ := exists_innermost_of_get? h
    rw [← hinner.unique hinner', hv] at hu
    exact hu.symm

/-! ## Stores that differ in one frame -/

/-- The second store has a variable in one slot, and is like the first one otherwise. -/
structure Updates (i : Nat) (n : Text) (v : Variable) (s t : Store) : Prop where
  depth : t.depth = s.depth
  slot : t.slot i n = some v
  other : ∀ j m, j ≠ i ∨ m ≠ n → t.slot j m = s.slot j m

/-- The second store has the frame `g` where the first one has the frame `f`, with the
number `i`, and is like it otherwise. -/
def Rewrites (i : Nat) (f g : Frame) (s t : Store) : Prop :=
  ∃ above below, s.frames = above ++ f :: below ∧ t.frames = above ++ g :: below ∧ below.length = i

namespace Rewrites

theorem depth (h : Rewrites i f g s t) : t.depth = s.depth := by
  obtain ⟨above, below, hs, ht, -⟩ := h
  rw [← length_frames, ← length_frames, hs, ht, List.length_append, List.length_append,
    List.length_cons, List.length_cons]

theorem slot_old (h : Rewrites i f g s t) (n : Text) : s.slot i n = f.get? n := by
  obtain ⟨above, below, hs, -, rfl⟩ := h
  exact slot_of_frames hs n

theorem slot_new (h : Rewrites i f g s t) (n : Text) : t.slot i n = g.get? n := by
  obtain ⟨above, below, -, ht, rfl⟩ := h
  exact slot_of_frames ht n

theorem slot_ne (h : Rewrites i f g s t) (hj : j ≠ i) (n : Text) : t.slot j n = s.slot j n := by
  obtain ⟨above, below, hs, ht, rfl⟩ := h
  rcases Nat.lt_or_gt_of_ne hj with hlt | hgt
  · have hs' : s.frames = (above ++ [f]) ++ below := by simpa using hs
    have ht' : t.frames = (above ++ [g]) ++ below := by simpa using ht
    rw [slot_below hs' hlt, slot_below ht' hlt]
  · rw [slot_above ht hgt, slot_above hs hgt]

/-- Where one name of the frame is written, one slot is updated. -/
theorem updates (h : Rewrites i f g s t) (hg : Frame.Sets name k value f g) :
    Updates i name ⟨name, k, value⟩ s t := by
  refine ⟨h.depth, by rw [h.slot_new, hg.get?, if_pos rfl], ?_⟩
  intro j m hne
  by_cases hj : j = i
  · subst hj
    have hm : m ≠ name := hne.resolve_left (not_not_intro rfl)
    rw [h.slot_new, h.slot_old, hg.get?, if_neg hm]
  · exact h.slot_ne hj m

theorem forall_mem {P : Frame → Prop} (h : Rewrites i f g s t) (hs : ∀ f ∈ s.frames, P f)
    (hg : P f → P g) : ∀ f ∈ t.frames, P f := by
  obtain ⟨above, below, hframes, ht, -⟩ := h
  rw [hframes] at hs
  rw [ht]
  intro f' hf'
  rcases List.mem_append.1 hf' with hf' | hf'
  · exact hs f' (List.mem_append_left _ hf')
  · rcases List.mem_cons.1 hf' with rfl | hf'
    · exact hg (hs f (by simp))
    · exact hs f' (List.mem_append_right _ (List.mem_cons_of_mem _ hf'))

end Rewrites

theorem rewrites_global (s : Store) (g : Frame) : Rewrites 0 s.global g s { s with global := g } :=
  ⟨s.locals, [], rfl, rfl, rfl⟩

/-- Assigning writes to the first frame of a stack that has the name. -/
theorem exists_of_assignIn? {fs gs : List Frame} (h : assignIn? name value fs = some (.ok gs)) :
    ∃ above f g below, fs = above ++ f :: below ∧ gs = above ++ g :: below ∧
      f.assign? name value = some (.ok g) ∧ ∀ f' ∈ above, f'.get? name = none := by
  induction fs generalizing gs with
  | nil => cases h
  | cons f fs ih =>
    rw [assignIn?] at h
    split at h
    · next r hr =>
      obtain ⟨g, rfl, rfl⟩ := Steps.map_eq_ok_iff.1 (Option.some.inj h)
      exact ⟨[], f, g, fs, rfl, rfl, hr, by simp⟩
    · next hr =>
      obtain ⟨r, hr', he⟩ := Option.map_eq_some_iff.1 h
      obtain ⟨gs', rfl, rfl⟩ := Steps.map_eq_ok_iff.1 he
      obtain ⟨above, f', g, below, rfl, rfl, hg, hnone⟩ := ih hr'
      exact ⟨f :: above, f', g, below, rfl, rfl, hg,
        List.forall_mem_cons.2 ⟨Frame.assign?_eq_none_iff.1 hr, hnone⟩⟩

theorem assignIn?_eq_none_iff {fs : List Frame} :
    assignIn? name value fs = none ↔ ∀ f ∈ fs, f.get? name = none := by
  induction fs with
  | nil => simp [assignIn?]
  | cons f fs ih =>
    rw [assignIn?]
    cases h : f.assign? name value with
    | none => simp [ih, Frame.assign?_eq_none_iff.1 h]
    | some r =>
      have hget : f.get? name ≠ none := fun hget => by
        rw [Frame.assign?_eq_none_iff.2 hget] at h
        cases h
      simp [hget]

/-- A declaration is made in the last frame. -/
theorem declare_rewrites (h : declare name kind value s = .ok () t) :
    ∃ f g, Rewrites s.top f g s t ∧ f.declare name kind value = .ok g := by
  rcases declare_cases name kind value s with ⟨e, he⟩ | ⟨f, fs, g, u, hs, hg, hu, ht⟩
  · rw [he] at h
    cases h
  · rw [hu] at h
    cases h
    refine ⟨f, g, ⟨[], fs, hs, ht, ?_⟩, hg⟩
    have hlength := length_frames s
    rw [hs] at hlength
    exact Nat.succ.inj hlength

/-- An assignment is made in the innermost frame that has the name. -/
theorem assign_rewrites (h : assign name value s = .ok () t) :
    ∃ i f g, s.Innermost i name ∧ Rewrites i f g s t ∧ f.assign? name value = some (.ok g) := by
  have hsome : ∀ {f g : Frame}, f.assign? name value = some (.ok g) → (f.get? name).isSome := by
    intro f g hg
    rw [Option.isSome_iff_ne_none]
    intro hnone
    rw [Frame.assign?_eq_none_iff.2 hnone] at hg
    cases hg
  rcases assign_cases name value s with ⟨e, he⟩ | ⟨fs, hfs, hok⟩ | ⟨g, hlocals, hg, hok⟩
  · rw [he] at h
    cases h
  · rw [hok] at h
    cases h
    obtain ⟨above, f, g, below, hs, rfl, hg, hnone⟩ := exists_of_assignIn? hfs
    have hframes : s.frames = above ++ f :: (below ++ [s.global]) := by simp [frames, hs]
    refine ⟨_, f, g, innermost_of_frames hframes (hsome hg) hnone, ?_, hg⟩
    exact ⟨above, _, hframes, by simp [frames], rfl⟩
  · rw [hok] at h
    cases h
    have hframes : s.frames = s.locals ++ s.global :: [] := rfl
    have hinner : s.Innermost 0 name :=
      innermost_of_frames hframes (hsome hg) (assignIn?_eq_none_iff.1 hlocals)
    exact ⟨0, s.global, g, hinner, rewrites_global s g, hg⟩

/-- Assigning globally fails and changes nothing, or it assigns in the global frame. -/
theorem assignGlobal_cases (name : Text) (value : Value) (s : Store) :
    (∃ e, assignGlobal name value s = .error e s) ∨
      ∃ g, s.global.assign? name value = some (.ok g) ∧
        assignGlobal name value s = .ok () { s with global := g } := by
  rw [assignGlobal]
  cases h : s.global.assign? name value with
  | none => exact .inl ⟨_, rfl⟩
  | some r =>
    cases r with
    | error e => exact .inl ⟨e, rfl⟩
    | ok g => exact .inr ⟨g, rfl, rfl⟩

/-! ## When declaring and assigning succeed -/

theorem slot_top (s : Store) (n : Text) : s.slot s.top n = (s.locals.headD s.global).get? n := by
  obtain ⟨locals, global⟩ := s
  cases locals with
  | nil => rfl
  | cons f locals =>
    have hframes : (Store.mk (f :: locals) global).frames = [] ++ f :: (locals ++ [global]) := rfl
    have hslot := slot_of_frames hframes n
    rwa [List.length_append] at hslot

theorem slot_zero (s : Store) (n : Text) : s.slot 0 n = s.global.get? n := by
  have hframes : s.frames = s.locals ++ s.global :: [] := rfl
  exact slot_of_frames hframes n

/-- The kind that a slot has, or gets when it is declared. -/
def kindFor (s : Store) (i : Nat) (n : Text) (kind : Kind) : Kind :=
  ((s.slot i n).map Variable.kind).getD kind

theorem exists_declare_iff : (∃ t, declare name kind value s = .ok () t) ↔
    value.kind? = some (s.kindFor s.top name kind) := by
  rw [kindFor, slot_top]
  obtain ⟨locals, global⟩ := s
  cases locals with
  | nil =>
    refine Iff.trans ?_ (Frame.exists_declare_iff (f := global))
    simp only [declare]
    cases global.declare name kind value <;> simp
  | cons f locals =>
    refine Iff.trans ?_ (Frame.exists_declare_iff (f := f))
    simp only [declare]
    cases f.declare name kind value <;> simp

theorem exists_declareGlobal_iff : (∃ t, declareGlobal name kind value s = .ok () t) ↔
    value.kind? = some (s.kindFor 0 name kind) := by
  rw [kindFor, slot_zero]
  refine Iff.trans ?_ (Frame.exists_declare_iff (f := s.global))
  rw [declareGlobal]
  cases s.global.declare name kind value <;> simp

theorem exists_assignGlobal_iff : (∃ t, assignGlobal name value s = .ok () t) ↔
    ∃ v, s.slot 0 name = some v ∧ value.kind? = some v.kind := by
  rw [slot_zero, ← Frame.exists_assign?_iff_get?, assignGlobal]
  cases h : s.global.assign? name value with
  | none => simp
  | some r => cases r <;> simp

/-- Within frames an assignment succeeds when the first variable of the name takes the value. -/
theorem exists_assignIn?_iff {fs : List Frame} :
    (∃ gs, assignIn? name value fs = some (.ok gs)) ↔
      ∃ v, fs.findSome? (·.get? name) = some v ∧ value.kind? = some v.kind := by
  induction fs with
  | nil => simp [assignIn?]
  | cons f fs ih =>
    cases h : f.assign? name value with
    | none =>
      have hget : f.get? name = none := Frame.assign?_eq_none_iff.1 h
      rw [List.findSome?_cons_of_isNone (by simp [hget]), ← ih]
      simp only [assignIn?, h, Option.map_eq_some_iff]
      constructor
      · rintro ⟨gs, r, hr, he⟩
        obtain ⟨gs', rfl, -⟩ := Steps.map_eq_ok_iff.1 he
        exact ⟨gs', hr⟩
      · rintro ⟨gs, hgs⟩
        exact ⟨f :: gs, .ok gs, hgs, rfl⟩
    | some r =>
      have hframe : (∃ g, f.assign? name value = some (.ok g)) ↔ _ :=
        Frame.exists_assign?_iff_get?
      have hget : f.get? name ≠ none := fun hget => by
        rw [Frame.assign?_eq_none_iff.2 hget] at h
        cases h
      obtain ⟨u, hu⟩ := Option.ne_none_iff_exists'.1 hget
      rw [List.findSome?_cons_of_isSome (by simp [hu]), ← hframe, assignIn?, h]
      cases r <;> simp [Except.map]

theorem exists_assign_iff : (∃ t, assign name value s = .ok () t) ↔
    ∃ v, s.get? name = some v ∧ value.kind? = some v.kind := by
  have hlocals : (∃ fs, assignIn? name value s.locals = some (.ok fs)) ↔ _ :=
    exists_assignIn?_iff
  rw [get?, assign]
  cases h : assignIn? name value s.locals with
  | none =>
    have hnone : s.locals.findSome? (·.get? name) = none :=
      List.findSome?_eq_none_iff.2 (assignIn?_eq_none_iff.1 h)
    rw [hnone, Option.none_or, ← slot_zero, ← exists_assignGlobal_iff]
  | some r =>
    have hsome : s.locals.findSome? (·.get? name) ≠ none := fun hnone => by
      rw [assignIn?_eq_none_iff.2 (List.findSome?_eq_none_iff.1 hnone)] at h
      cases h
    obtain ⟨u, hu⟩ := Option.ne_none_iff_exists'.1 hsome
    rw [h, hu] at hlocals
    rw [hu, Option.some_or, ← hlocals]
    cases r <;> simp

end Store
end Stencil
