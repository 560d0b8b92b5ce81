import Stencil.Proofs.Slots

/-!
# Histories of a store

A store is made by pushing and dropping frames, declaring and assigning. An operation that
succeeds pushes an empty frame, drops the last one, or writes one slot; one that fails does
nothing. So all that is said of the stores that histories make follows from what these
three do to the frames and their slots.

## Main definitions

* `Store.Operation`: the operations, and the step that each one is.
* `Store.Operation.Writes`: the slot that an operation writes, and the value.
* `Store.Operation.Does`: what an operation that succeeds does.
* `Store.afterAll`, `Store.ofHistory`: the store behind some operations.
-/
namespace Stencil.Store

open Steps (after Fails)

variable {s t : Store} {i j : Nat} {name n : Text} {k : Kind} {value value' : Value}
  {v : Variable}

/-- The operations on a store. -/
inductive Operation where
  | push
  | pop
  | declare (name : Text) (kind : Kind) (value : Value)
  | declareGlobal (name : Text) (kind : Kind) (value : Value)
  | assign (name : Text) (value : Value)
  | assignGlobal (name : Text) (value : Value)
  deriving DecidableEq, Repr

namespace Operation

/-- The step that an operation is. -/
def step : Operation → Step Unit
  | .push => fun s => .ok () s.push
  | .pop => Store.pop
  | .declare name kind value => Store.declare name kind value
  | .declareGlobal name kind value => Store.declareGlobal name kind value
  | .assign name value => Store.assign name value
  | .assignGlobal name value => Store.assignGlobal name value

/-- The slot that an operation writes: its name in the last frame, in the global one, or in
the innermost frame that has it. -/
inductive Writes (s : Store) : Operation → Nat → Text → Value → Prop
  | declare (name : Text) (kind : Kind) (value : Value) :
      Writes s (.declare name kind value) s.top name value
  | declareGlobal (name : Text) (kind : Kind) (value : Value) :
      Writes s (.declareGlobal name kind value) 0 name value
  | assign {i : Nat} {name : Text} (value : Value) :
      s.Innermost i name → Writes s (.assign name value) i name value
  | assignGlobal (name : Text) (value : Value) : Writes s (.assignGlobal name value) 0 name value

/-- When an operation succeeds: a frame can be dropped that is not the global one, and a slot
takes values of its kind, which a declaration gives it if it is new. -/
def Possible (s : Store) : Operation → Prop
  | .push => True
  | .pop => s.depth ≠ 1
  | .declare name kind value => value.kind? = some (s.kindFor s.top name kind)
  | .declareGlobal name kind value => value.kind? = some (s.kindFor 0 name kind)
  | .assign name value => ∃ v, s.get? name = some v ∧ value.kind? = some v.kind
  | .assignGlobal name value => ∃ v, s.slot 0 name = some v ∧ value.kind? = some v.kind

/-- What an operation does when it succeeds: it pushes an empty frame, drops the last one, or
writes one slot of one frame. -/
inductive Does (s : Store) : Operation → Store → Prop
  | pushed : Does s .push s.push
  | popped {f : Frame} {t : Store} : s.frames = f :: t.frames → Does s .pop t
  | written {op : Operation} {i : Nat} {name : Text} {k : Kind} {value : Value} {f g : Frame}
      {t : Store} : Writes s op i name value → Rewrites i f g s t →
        Frame.Sets name k value f g → Does s op t

variable {op : Operation} {ops more : List Operation} {e : Error}

/-- There is one slot at most that an operation writes. -/
theorem Writes.unique (h : Writes s op i n value) (h' : Writes s op j name value') :
    i = j ∧ n = name ∧ value = value' := by
  cases h with
  | declare => cases h'; exact ⟨rfl, rfl, rfl⟩
  | declareGlobal => cases h'; exact ⟨rfl, rfl, rfl⟩
  | assign _ hi =>
    cases h' with
    | assign _ hj => exact ⟨hi.unique hj, rfl, rfl⟩
  | assignGlobal => cases h'; exact ⟨rfl, rfl, rfl⟩

/-- An operation fails and changes nothing, or it does one of the three things. -/
theorem step_cases (op : Operation) (s : Store) :
    (∃ e, op.step s = .error e s) ∨ ∃ t, op.step s = .ok () t ∧ op.Does s t := by
  cases op with
  | push => exact .inr ⟨s.push, rfl, .pushed⟩
  | pop =>
    obtain ⟨locals, global⟩ := s
    cases locals with
    | nil => exact .inl ⟨.scopeUnderflow, rfl⟩
    | cons f locals => exact .inr ⟨⟨locals, global⟩, rfl, .popped (f := f) rfl⟩
  | declare name kind value =>
    rcases declare_cases name kind value s with ⟨e, he⟩ | ⟨-, -, -, t, -, -, ht, -⟩
    · exact .inl ⟨e, he⟩
    · obtain ⟨f, g, hst, hg⟩ := declare_rewrites ht
      exact .inr ⟨t, ht, .written (.declare name kind value) hst (Frame.sets_of_declare hg)⟩
  | declareGlobal name kind value =>
    rcases declareGlobal_cases name kind value s with ⟨e, he⟩ | ⟨g, hg, ht⟩
    · exact .inl ⟨e, he⟩
    · exact .inr ⟨_, ht, .written (.declareGlobal name kind value) (rewrites_global s g)
        (Frame.sets_of_declare hg)⟩
  | assign name value =>
    have hdoes : ∀ {t}, Store.assign name value s = .ok () t → Does s (.assign name value) t := by
      intro t ht
      obtain ⟨i, f, g, hinner, hst, hg⟩ := assign_rewrites ht
      obtain ⟨k, -, hsets⟩ := Frame.sets_of_assign? hg
      exact .written (.assign value hinner) hst hsets
    rcases assign_cases name value s with ⟨e, he⟩ | ⟨_, _, ht⟩ | ⟨_, _, _, ht⟩
    · exact .inl ⟨e, he⟩
    · exact .inr ⟨_, ht, hdoes ht⟩
    · exact .inr ⟨_, ht, hdoes ht⟩
  | assignGlobal name value =>
    rcases assignGlobal_cases name value s with ⟨e, he⟩ | ⟨g, hg, ht⟩
    · exact .inl ⟨e, he⟩
    · obtain ⟨k, -, hsets⟩ := Frame.sets_of_assign? hg
      exact .inr ⟨_, ht, .written (.assignGlobal name value) (rewrites_global s g) hsets⟩

theorem does_of_ok {u : Unit} (h : op.step s = .ok u t) : op.Does s t := by
  rcases step_cases op s with ⟨e, he⟩ | ⟨t', ht', hdoes⟩
  · rw [he] at h
    cases h
  · rw [ht'] at h
    cases h
    exact hdoes

/-- An operation that fails does nothing. -/
theorem eq_of_error (h : op.step s = .error e t) : t = s := by
  rcases step_cases op s with ⟨e', he⟩ | ⟨t', ht', -⟩
  · rw [he] at h
    cases h
    rfl
  · rw [ht'] at h
    cases h

/-- The failures of an operation are told by the frames and slots alone. -/
theorem exists_ok_iff : (∃ t, op.step s = .ok () t) ↔ op.Possible s := by
  cases op with
  | push => exact iff_of_true ⟨s.push, rfl⟩ trivial
  | pop =>
    obtain ⟨locals, global⟩ := s
    cases locals with
    | nil => simp [step, Store.pop, Possible, depth]
    | cons f locals => simp [step, Store.pop, Possible, depth]
  | declare name kind value => exact exists_declare_iff
  | declareGlobal name kind value => exact exists_declareGlobal_iff
  | assign name value => exact exists_assign_iff
  | assignGlobal name value => exact exists_assignGlobal_iff

/-! ### What an operation keeps -/

namespace Does

/-- A frame that is there before and behind an operation has the slots that are not written. -/
theorem slot_eq (h : op.Does s t) (hi : i < t.depth) (hnot : ∀ value, ¬ op.Writes s i n value) :
    t.slot i n = s.slot i n := by
  cases h with
  | pushed => exact slot_push s i n
  | popped hframes => exact slot_of_dropped hframes hi n
  | @written op j name k value f g t hwrites hst hsets =>
    by_cases hij : i = j
    · subst hij
      have hn : n ≠ name := fun hn => hnot value (hn ▸ hwrites)
      rw [hst.slot_new, hst.slot_old, hsets.get?, if_neg hn]
    · exact hst.slot_ne hij n

/-- The slot that is written has the value, which is of its kind, and the kind that it had. -/
theorem slot_written (h : op.Does s t) (hwrites : op.Writes s i n value) :
    ∃ v, t.slot i n = some v ∧ v.value = value ∧ v.value.kind? = some v.kind ∧
      ∀ u, s.slot i n = some u → v.kind = u.kind := by
  cases h with
  | pushed => cases hwrites
  | popped => cases hwrites
  | @written op j name k value' f g t hwrites' hst hsets =>
    obtain ⟨rfl, rfl, rfl⟩ := hwrites.unique hwrites'
    refine ⟨⟨n, k, value⟩, by rw [hst.slot_new, hsets.get?, if_pos rfl], rfl, hsets.fits, ?_⟩
    intro u hu
    rw [hst.slot_old] at hu
    have hkind : f.kind? n = some u.kind := by rw [Frame.kind?, hu, Option.map_some]
    rcases hsets.kept with hk | hk
    · rw [hk] at hkind
      exact Option.some.inj hkind
    · rw [hk] at hkind
      cases hkind

/-- A frame that is there before and behind an operation holds its names with values of their
kinds. -/
theorem holds (h : op.Does s t) (hi : i < t.depth) (hs : s.Holds i n k) : t.Holds i n k := by
  obtain ⟨u, hu, hkind, hvalue⟩ := hs
  by_cases hwritten : ∃ value, op.Writes s i n value
  · obtain ⟨value, hwrites⟩ := hwritten
    obtain ⟨v, hv, -, hfits, hkept⟩ := h.slot_written hwrites
    have hsame : v.kind = k := (hkept u hu).trans hkind
    exact ⟨v, hv, hsame, hsame ▸ hfits⟩
  · have hslot : t.slot i n = s.slot i n :=
      h.slot_eq hi fun value hwrites => hwritten ⟨value, hwrites⟩
    exact ⟨u, hslot.trans hu, hkind, hvalue⟩

theorem lawful (h : op.Does s t) (hs : ∀ f ∈ s.frames, f.Lawful) : ∀ f ∈ t.frames, f.Lawful := by
  cases h with
  | pushed => exact List.forall_mem_cons.2 ⟨Frame.lawful_nil, hs⟩
  | popped hframes =>
    rw [hframes] at hs
    exact (List.forall_mem_cons.1 hs).2
  | written hwrites hst hsets => exact hst.forall_mem hs hsets.lawful

/-- Only pushing and dropping change the number of frames. -/
theorem depth_eq (h : op.Does s t) :
    t.depth + [op].count .pop = s.depth + [op].count .push := by
  cases h with
  | pushed => rfl
  | popped hframes =>
    have hlength := congrArg List.length hframes
    rw [List.length_cons, length_frames, length_frames] at hlength
    exact hlength.symm
  | written hwrites hst hsets =>
    rw [hst.depth]
    cases hwrites <;> rfl

end Does

end Operation

/-! ## Histories -/

variable {op : Operation} {ops more : List Operation}

/-- The store that operations leave behind, one after the other, each failing or not. -/
def afterAll (s : Store) (ops : List Operation) : Store :=
  ops.foldl (fun s op => after op.step s) s

/-- The store that operations make of a new one. -/
def ofHistory (ops : List Operation) : Store := afterAll empty ops

/-- The operations that succeed, in their order. -/
def succeeded (s : Store) : List Operation → List Operation
  | [] => []
  | op :: ops =>
    match op.step s with
    | .ok _ t => op :: succeeded t ops
    | .error _ t => succeeded t ops

theorem afterAll_cons (s : Store) (op : Operation) (ops : List Operation) :
    afterAll s (op :: ops) = afterAll (after op.step s) ops := rfl

theorem afterAll_append (s : Store) (ops more : List Operation) :
    afterAll s (ops ++ more) = afterAll (afterAll s ops) more := List.foldl_append

/-- An operation leaves the store alone, or does one of the three things. -/
theorem eq_or_does (op : Operation) (s : Store) :
    after op.step s = s ∨ op.Does s (after op.step s) := by
  rcases op.step_cases s with ⟨e, he⟩ | ⟨t, ht, hdoes⟩
  · exact .inl (Steps.after_of_error he)
  · rw [Steps.after_of_ok ht]
    exact .inr hdoes

theorem lawful_afterAll (hs : ∀ f ∈ s.frames, f.Lawful) (ops : List Operation) :
    ∀ f ∈ (afterAll s ops).frames, f.Lawful := by
  induction ops generalizing s with
  | nil => exact hs
  | cons op ops ih =>
    rw [afterAll_cons]
    rcases eq_or_does op s with he | hdoes
    · rw [he]
      exact ih hs
    · exact ih (hdoes.lawful hs)

/-- A frame holds its names as long as no operation drops it. -/
theorem holds_afterAll (halive : ∀ j, i < (afterAll s (ops.take j)).depth) (hs : s.Holds i n k) :
    (afterAll s ops).Holds i n k := by
  induction ops generalizing s with
  | nil => exact hs
  | cons op ops ih =>
    have hrest : ∀ j, i < (afterAll (after op.step s) (ops.take j)).depth := fun j => halive (j + 1)
    rw [afterAll_cons]
    rcases eq_or_does op s with he | hdoes
    · rw [he] at hrest ⊢
      exact ih hrest hs
    · exact ih hrest (hdoes.holds (hrest 0) hs)

/-- Each push adds a frame, and each pop that succeeds takes one away. -/
theorem depth_afterAll (s : Store) (ops : List Operation) :
    (afterAll s ops).depth + (succeeded s ops).count .pop = s.depth + ops.count .push := by
  induction ops generalizing s with
  | nil => rfl
  | cons op ops ih =>
    rw [afterAll_cons, succeeded]
    cases h : op.step s with
    | ok u t =>
      have hdepth := (Operation.does_of_ok h).depth_eq
      have hrest := ih t
      rw [Steps.after_of_ok h]
      simp only [List.count_cons, List.count_nil] at hdepth ⊢
      omega
    | error e t =>
      obtain rfl := Operation.eq_of_error h
      have hpush : op ≠ .push := by
        rintro rfl
        cases h
      rw [Steps.after_of_error h, List.count_cons_of_ne hpush]
      exact ih t

theorem lawful_ofHistory (ops : List Operation) : ∀ f ∈ (ofHistory ops).frames, f.Lawful := by
  have hempty : ∀ f ∈ empty.frames, f.Lawful := List.forall_mem_singleton.2 Frame.lawful_nil
  exact lawful_afterAll hempty ops

theorem typed_of_slot (hs : ∀ f ∈ s.frames, f.Lawful) (h : s.slot i n = some v) :
    v.value.kind? = some v.kind := by
  obtain ⟨f, hf, hget⟩ := Option.bind_eq_some_iff.1 h
  have hmem : f ∈ s.frames := List.mem_reverse.1 (List.mem_of_getElem? hf)
  exact (hs f hmem).typed v (Frame.mem_of_get? hget)

theorem fails_pop_iff : (∃ e, Fails (Operation.step .pop) s e) ↔ s.depth = 1 := by
  have hok : (∃ t, Operation.step .pop s = .ok () t) ↔ s.depth ≠ 1 := Operation.exists_ok_iff
  constructor
  · rintro ⟨e, he⟩
    refine Decidable.byContradiction fun hdepth => ?_
    obtain ⟨t, ht⟩ := hok.2 hdepth
    exact Steps.not_fails_of_ok ht he
  · intro hdepth
    rcases Steps.ok_or_fails (Operation.step .pop) s with ⟨u, t, ht⟩ | he
    · exact absurd hdepth (hok.1 ⟨t, ht⟩)
    · exact he

/-- **Every history keeps the slots.** Behind any operations on a new store, the number of
frames is one more than the pushes less the pops that succeeded, and it is a pop of the last
frame that fails; a frame has one variable for each of its names, which is called so and has
a value of its kind, so that none is a double; and as long as a frame lives it keeps its names
with their kinds. An operation that fails changes nothing. One that succeeds, which the slots
decide, changes no slot but the one that it writes; and a name denotes the variable of the
innermost frame that has it. -/
theorem slots_of_histories :
    (∀ ops,
      (ofHistory ops).depth + (succeeded empty ops).count .pop = 1 + ops.count .push ∧
      (ofHistory ops).depth ≠ 0 ∧
      ((∃ e, Fails (Operation.step .pop) (ofHistory ops) e) ↔ (ofHistory ops).depth = 1)) ∧
    (∀ ops, (∀ f ∈ (ofHistory ops).frames, (f.map Variable.name).Nodup) ∧
      ∀ i n v, (ofHistory ops).slot i n = some v →
        v.name = n ∧ v.value.kind? = some v.kind ∧ ∀ x, v.value ≠ .double x) ∧
    (∀ ops more i, (∀ k, i < (ofHistory (ops ++ more.take k)).depth) →
      ∀ n v, (ofHistory ops).slot i n = some v →
        ∃ w, (ofHistory (ops ++ more)).slot i n = some w ∧ w.kind = v.kind) ∧
    (∀ (op : Operation) (s t : Store) (e : Error), op.step s = .error e t → t = s) ∧
    (∀ (op : Operation) (s t : Store), op.step s = .ok () t →
      (∀ i n, i < t.depth → (∀ value, ¬ op.Writes s i n value) → t.slot i n = s.slot i n) ∧
      ∀ i n value, op.Writes s i n value →
        (∃ v, t.slot i n = some v ∧ v.value = value) ∧
        ∀ j m value', op.Writes s j m value' → j = i ∧ m = n) ∧
    (∀ (op : Operation) (s : Store), (∃ t, op.step s = .ok () t) ↔ op.Possible s) ∧
    ∀ (s : Store) (n : Text), (∀ v, s.get? n = some v ↔ ∃ i, s.Innermost i n ∧ s.slot i n = some v) ∧
      (s.get? n = none ↔ ∀ i, s.slot i n = none) := by
  refine ⟨?_, ?_, ?_, ?_, ?_, ?_, ?_⟩
  · intro ops
    exact ⟨depth_afterAll empty ops, Nat.succ_ne_zero _, fails_pop_iff⟩
  · intro ops
    have hlawful := lawful_ofHistory ops
    refine ⟨fun f hf => (hlawful f hf).distinct, fun i n v hv => ?_⟩
    have htyped := typed_of_slot hlawful hv
    refine ⟨name_of_slot hv, htyped, fun x hx => ?_⟩
    rw [hx] at htyped
    cases htyped
  · intro ops more i halive n v hv
    have htyped := typed_of_slot (lawful_ofHistory ops) hv
    simp only [ofHistory, afterAll_append] at halive ⊢
    obtain ⟨w, hw, hkind, -⟩ := holds_afterAll halive ⟨v, hv, rfl, htyped⟩
    exact ⟨w, hw, hkind⟩
  · intro op s t e h
    exact Operation.eq_of_error h
  · intro op s t h
    have hdoes := Operation.does_of_ok h
    refine ⟨fun i n => hdoes.slot_eq, fun i n value hwrites => ⟨?_, ?_⟩⟩
    · obtain ⟨v, hv, hvalue, -⟩ := hdoes.slot_written hwrites
      exact ⟨v, hv, hvalue⟩
    · intro j m value' hwrites'
      obtain ⟨hj, hm, -⟩ := hwrites'.unique hwrites
      exact ⟨hj, hm⟩
  · intro op s
    exact Operation.exists_ok_iff
  · intro s n
    refine ⟨fun v => get?_eq_some_iff, slot_of_get?_eq_none, fun hnone => ?_⟩
    rw [Option.eq_none_iff_forall_ne_some]
    intro v hv
    obtain ⟨i, -, hslot⟩ := get?_eq_some_iff.1 hv
    rw [hnone i] at hslot
    cases hslot

end Stencil.Store
