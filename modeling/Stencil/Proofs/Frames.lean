import Stencil.Store
import Stencil.Proofs.Steps

/-!
# Frames and kinds

What steps on a store do to its frames. A declaration may give the innermost frame
one name, an assignment gives no frame any, and neither takes a name away or
changes the kind of one; a step that fails leaves the store as it was.

## Main definitions

* `Store.kindAt`: the kind of a name in a frame, counted from the innermost.
* `Store.Keeps`: the frames of a store keep their names and kinds, and gain only
  the names that they may.
-/
namespace Stencil

namespace Variable

variable {v w : Variable} {name : Text} {kind : Kind} {value : Value}

theorem checkKind_eq_ok_iff {u : Unit} :
    checkKind name kind value = .ok u ↔ value.kind? = some kind := by
  rw [checkKind]
  split <;> simp_all

/-- A variable takes the values of its kind. -/
theorem new_eq_ok_iff :
    new name kind value = .ok v ↔ value.kind? = some kind ∧ ⟨name, kind, value⟩ = v := by
  rw [new, Steps.map_eq_ok_iff]
  simp only [checkKind_eq_ok_iff, exists_and_left, exists_const]

theorem write_eq_ok_iff :
    v.write value = .ok w ↔ value.kind? = some v.kind ∧ { v with value := value } = w := by
  rw [write, Steps.map_eq_ok_iff]
  simp only [checkKind_eq_ok_iff, exists_and_left, exists_const]

end Variable

namespace Frame

variable {f g : Frame} {name n : Text} {kind : Kind} {value : Value}

/-- The kind of a name, when the frame has it. -/
def kind? (f : Frame) (n : Text) : Option Kind := (f.get? n).map Variable.kind

@[simp] theorem get?_cons (v : Variable) (f : Frame) (n : Text) :
    get? (v :: f) n = if v.name = n then some v else get? f n := by
  by_cases h : v.name = n <;> simp [get?, h]

theorem kind?_eq_none_iff : f.kind? n = none ↔ f.get? n = none := Option.map_eq_none_iff

theorem assign?_eq_none_iff : f.assign? name value = none ↔ f.get? name = none := by
  induction f with
  | nil => simp [assign?, get?]
  | cons v f ih => by_cases h : v.name = name <;> simp_all [assign?]

/-- Assigning changes no kind. -/
theorem kind?_assign? (h : f.assign? name value = some (.ok g)) (n : Text) :
    g.kind? n = f.kind? n := by
  rw [kind?, kind?, get?_assign? h n]
  split
  · cases f.get? n <;> rfl
  · rfl

/-- A frame assigns to the names that it has, values of their kinds. -/
theorem exists_assign?_iff :
    (∃ g, f.assign? name value = some (.ok g)) ↔
      ∃ k, f.kind? name = some k ∧ value.kind? = some k := by
  induction f with
  | nil => simp [assign?, kind?, get?]
  | cons v f ih =>
    by_cases hv : v.name = name
    · simp only [assign?, hv, beq_self_eq_true, if_true, kind?, get?_cons, Option.map_some,
        Option.some.injEq, exists_eq_left']
      constructor
      · rintro ⟨g, hg⟩
        obtain ⟨w, hw, -⟩ := Steps.map_eq_ok_iff.1 hg
        exact (Variable.write_eq_ok_iff.1 hw).1
      · intro hk
        exact ⟨_, Steps.map_eq_ok_iff.2 ⟨_, Variable.write_eq_ok_iff.2 ⟨hk, rfl⟩, rfl⟩⟩
    · have hkind : kind? (v :: f) name = kind? f name := by
        rw [kind?, get?_cons, if_neg hv, kind?]
      rw [hkind, ← ih]
      simp only [assign?, beq_iff_eq, hv, if_false, Option.map_eq_some_iff]
      constructor
      · rintro ⟨g, r, hr, he⟩
        obtain ⟨g', rfl, -⟩ := Steps.map_eq_ok_iff.1 he
        exact ⟨g', hr⟩
      · rintro ⟨g, hg⟩
        exact ⟨v :: g, .ok g, hg, rfl⟩

theorem name_of_get? {v : Variable} (h : f.get? name = some v) : v.name = name := by
  simpa using List.find?_some h

/-- A frame declares a name with values of the kind that the name has there, or is
declared with. -/
theorem exists_declare_iff :
    (∃ g, f.declare name kind value = .ok g) ↔
      value.kind? = some ((f.kind? name).getD kind) := by
  rw [declare]
  cases h : f.assign? name value with
  | none =>
    rw [kind?_eq_none_iff.2 (assign?_eq_none_iff.1 h), Option.getD_none]
    constructor
    · rintro ⟨g, hg⟩
      obtain ⟨v, hv, -⟩ := Steps.map_eq_ok_iff.1 hg
      exact (Variable.new_eq_ok_iff.1 hv).1
    · intro hk
      exact ⟨_, Steps.map_eq_ok_iff.2 ⟨_, Variable.new_eq_ok_iff.2 ⟨hk, rfl⟩, rfl⟩⟩
  | some r =>
    have hassign := @exists_assign?_iff f name value
    cases hk : f.kind? name with
    | none => rw [assign?_eq_none_iff.2 (kind?_eq_none_iff.1 hk)] at h; cases h
    | some k => simpa [h, hk] using hassign

/-- Declaring makes one variable, and changes nothing else that can be read. -/
theorem get?_declare (h : f.declare name kind value = .ok g) (n : Text) :
    g.get? n = if n = name then some ⟨name, (f.kind? name).getD kind, value⟩ else f.get? n := by
  rw [declare] at h
  split at h
  · next r hr =>
    subst h
    rw [get?_assign? hr n]
    split
    · next hn =>
      subst hn
      cases hget : f.get? n with
      | none => rw [assign?_eq_none_iff.2 hget] at hr; cases hr
      | some v =>
        have hname : v.name = n := name_of_get? hget
        simp [kind?, hget, hname]
    · rfl
  · next hr =>
    have hget := assign?_eq_none_iff.1 hr
    obtain ⟨v, hv, rfl⟩ := Steps.map_eq_ok_iff.1 h
    obtain ⟨-, rfl⟩ := Variable.new_eq_ok_iff.1 hv
    rw [kind?_eq_none_iff.2 hget, Option.getD_none]
    split
    · next hn =>
      subst hn
      simp only [get?] at hget ⊢
      simp [List.find?_append, hget]
    · next hn =>
      have hne : ¬ name = n := fun h => hn h.symm
      simp [get?, List.find?_append, hne]

/-- Declaring keeps every kind, and gives the frame no name but its own. -/
theorem kind?_declare (h : f.declare name kind value = .ok g) (n : Text) :
    g.kind? n = (f.kind? n).or (if n = name then some kind else none) := by
  rw [kind?, get?_declare h n]
  split
  · next hn =>
    subst hn
    cases f.kind? n <;> rfl
  · rw [Option.or_none]
    rfl

theorem kind?_declare_cases (h : f.declare name kind value = .ok g) (n : Text) :
    g.kind? n = f.kind? n ∨ (f.kind? n = none ∧ n = name) := by
  rw [kind?_declare h n]
  cases f.kind? n <;> by_cases hn : n = name <;> simp [hn]

/-- Every variable of a frame is one of the other. -/
def Sub (f f' : Frame) : Prop := ∀ n v, f.get? n = some v → f'.get? n = some v

namespace Sub

variable {f' : Frame} {k : Kind}

theorem kind? (h : Sub f f') (hk : f.kind? n = some k) : f'.kind? n = some k := by
  obtain ⟨v, hv, rfl⟩ := Option.map_eq_some_iff.1 hk
  rw [Frame.kind?, h n v hv, Option.map_some]

theorem kind?_eq_none (h : Sub f f') (hk : f'.kind? n = none) : f.kind? n = none := by
  cases hf : f.kind? n with
  | none => rfl
  | some k =>
    rw [h.kind? hf] at hk
    cases hk

/-- What can be assigned in a frame can be assigned in a larger one. -/
theorem assign? (h : Sub f f') (hg : f.assign? name value = some (.ok g)) :
    ∃ g', f'.assign? name value = some (.ok g') ∧ Sub g g' := by
  obtain ⟨k, hk, hvalue⟩ := exists_assign?_iff.1 ⟨g, hg⟩
  obtain ⟨g', hg'⟩ := exists_assign?_iff.2 ⟨k, h.kind? hk, hvalue⟩
  refine ⟨g', hg', fun n v hv => ?_⟩
  rw [get?_assign? hg n] at hv
  rw [get?_assign? hg' n]
  split at hv
  · next hn =>
    rw [if_pos hn]
    obtain ⟨u, hu, rfl⟩ := Option.map_eq_some_iff.1 hv
    exact Option.map_eq_some_iff.2 ⟨u, h n u hu, rfl⟩
  · next hn =>
    rw [if_neg hn]
    exact h n v hv

/-- What can be declared in a frame can be declared in a larger one that has the name, if
at all, with the same kind. -/
theorem declare (h : Sub f f') (hkind : (f'.kind? name).getD kind = (f.kind? name).getD kind)
    (hg : f.declare name kind value = .ok g) :
    ∃ g', f'.declare name kind value = .ok g' ∧ Sub g g' := by
  obtain ⟨g', hg'⟩ := exists_declare_iff.2 (hkind ▸ exists_declare_iff.1 ⟨g, hg⟩)
  refine ⟨g', hg', fun n v hv => ?_⟩
  rw [get?_declare hg n] at hv
  rw [get?_declare hg' n, hkind]
  split at hv
  · next hn =>
    rw [if_pos hn]
    exact hv
  · next hn =>
    rw [if_neg hn]
    exact h n v hv

end Sub

end Frame

namespace Store

variable {s t u : Store} {name n : Text} {kind : Kind} {value : Value}
  {may : Nat → Text → Prop}

/-- The kind of a name in a frame, where the innermost frame is the first. -/
def kindAt (s : Store) (i : Nat) (n : Text) : Option Kind := s.frames[i]?.bind (·.kind? n)

/-- A store has the same number of frames, each with its names and their kinds. A
frame may have gained names that it may gain. -/
structure Keeps (may : Nat → Text → Prop) (s t : Store) : Prop where
  depth : t.depth = s.depth
  kind : ∀ i n, t.kindAt i n = s.kindAt i n ∨ (s.kindAt i n = none ∧ may i n)

/-- Only the innermost frame may gain names. -/
def innermost (i : Nat) (_ : Text) : Prop := i = 0

/-- No frame may gain names. -/
def nowhere (_ : Nat) (_ : Text) : Prop := False

theorem Keeps.refl (s : Store) : Keeps may s s := ⟨rfl, fun _ _ => .inl rfl⟩

theorem Keeps.trans (h : Keeps may s t) (h' : Keeps may t u) : Keeps may s u := by
  refine ⟨h'.depth.trans h.depth, fun i n => ?_⟩
  rcases h.kind i n with hk | ⟨hk, hmay⟩
  · rcases h'.kind i n with hk' | ⟨hk', hmay⟩
    · exact .inl (hk'.trans hk)
    · exact .inr ⟨hk ▸ hk', hmay⟩
  · exact .inr ⟨hk, hmay⟩

theorem Keeps.mono {may' : Nat → Text → Prop} (h : Keeps may s t)
    (hmay : ∀ i n, may i n → may' i n) : Keeps may' s t :=
  ⟨h.depth, fun i n => (h.kind i n).imp_right fun ⟨hk, hi⟩ => ⟨hk, hmay i n hi⟩⟩

theorem Keeps.of_nowhere (h : Keeps nowhere s t) : Keeps may s t := h.mono fun _ _ hi => hi.elim

@[simp] theorem length_frames (s : Store) : s.frames.length = s.depth := by simp [frames, depth]

/-- A store that keeps the frames around a new one has them left when that is dropped. -/
theorem Keeps.exists_pop (h : Keeps innermost s.push t) :
    ∃ f fs, t.locals = f :: fs ∧ Keeps nowhere s ⟨fs, t.global⟩ := by
  obtain ⟨locals, global⟩ := t
  cases locals with
  | nil =>
    have hdepth : 1 = s.locals.length + 1 + 1 := h.depth
    omega
  | cons f fs =>
    refine ⟨f, fs, rfl, Nat.succ.inj h.depth, fun i n => .inl ?_⟩
    rcases h.kind (i + 1) n with hk | ⟨-, hi⟩
    · exact hk
    · cases hi

/-! ## Looking names up -/

/-- A step that looks a name up and does nothing else. -/
def lookUp {α : Type} (name : Text) (f : Value → Except Error α) : Step α := fun s =>
  match s.value? name with
  | none => .error (.unknownVariable name) s
  | some v =>
    match f v with
    | .ok a => .ok a s
    | .error e => .error e s

theorem lookUp_eq_ok_iff {α : Type} {f : Value → Except Error α} {a : α} :
    lookUp name f s = .ok a t ↔ s = t ∧ ∃ v, s.value? name = some v ∧ f v = .ok a := by
  rw [lookUp]
  cases s.value? name with
  | none => simp
  | some v => cases h : f v <;> simp [h, and_comm]

theorem after_lookUp {α : Type} (name : Text) (f : Value → Except Error α) (s : Store) :
    Steps.after (lookUp name f) s = s := by
  rw [Steps.after, lookUp]
  cases s.value? name with
  | none => rfl
  | some v => cases h : f v <;> simp [h]

/-! ## What steps do to frames -/

/-- Declaring fails and changes nothing, or it declares in the innermost frame. -/
theorem declare_cases (name : Text) (kind : Kind) (value : Value) (s : Store) :
    (∃ e, declare name kind value s = .error e s) ∨
      ∃ f fs g t, s.frames = f :: fs ∧ f.declare name kind value = .ok g ∧
        declare name kind value s = .ok () t ∧ t.frames = g :: fs := by
  obtain ⟨locals, global⟩ := s
  cases locals with
  | nil =>
    rw [declare]
    cases h : global.declare name kind value with
    | error e => exact .inl ⟨e, rfl⟩
    | ok g => exact .inr ⟨global, [], g, ⟨[], g⟩, rfl, h, rfl, rfl⟩
  | cons f locals =>
    rw [declare]
    cases h : f.declare name kind value with
    | error e => exact .inl ⟨e, by simp only [h]⟩
    | ok g =>
      exact .inr ⟨f, locals ++ [global], g, ⟨g :: locals, global⟩, rfl, h, by simp only [h], rfl⟩

/-- Declaring globally fails and changes nothing, or it declares in the global frame. -/
theorem declareGlobal_cases (name : Text) (kind : Kind) (value : Value) (s : Store) :
    (∃ e, declareGlobal name kind value s = .error e s) ∨
      ∃ g, s.global.declare name kind value = .ok g ∧
        declareGlobal name kind value s = .ok () { s with global := g } := by
  rw [declareGlobal]
  cases h : s.global.declare name kind value with
  | error e => exact .inl ⟨e, rfl⟩
  | ok g => exact .inr ⟨g, rfl, rfl⟩

/-- Assigning fails and changes nothing, or it assigns in the first local frame that has
the name, or in the global one when none has it. -/
theorem assign_cases (name : Text) (value : Value) (s : Store) :
    (∃ e, assign name value s = .error e s) ∨
      (∃ fs, assignIn? name value s.locals = some (.ok fs) ∧
        assign name value s = .ok () { s with locals := fs }) ∨
      ∃ g, assignIn? name value s.locals = none ∧ s.global.assign? name value = some (.ok g) ∧
        assign name value s = .ok () { s with global := g } := by
  rw [assign]
  cases hl : assignIn? name value s.locals with
  | some r =>
    cases r with
    | error e => exact .inl ⟨e, rfl⟩
    | ok fs => exact .inr (.inl ⟨fs, rfl, rfl⟩)
  | none =>
    simp only [assignGlobal]
    cases hg : s.global.assign? name value with
    | none => exact .inl ⟨_, rfl⟩
    | some r =>
      cases r with
      | error e => exact .inl ⟨e, rfl⟩
      | ok g => exact .inr (.inr ⟨g, trivial, rfl, rfl⟩)

/-- Assigning within frames keeps their number and all kinds. -/
theorem kinds_assignIn? {fs gs : List Frame} (h : assignIn? name value fs = some (.ok gs)) :
    gs.length = fs.length ∧
      ∀ (i : Nat) (n : Text), gs[i]?.bind (Frame.kind? · n) = fs[i]?.bind (Frame.kind? · n) := by
  induction fs generalizing gs with
  | nil => cases h
  | cons f fs ih =>
    rw [assignIn?] at h
    split at h
    · next r hr =>
      obtain ⟨g, rfl, rfl⟩ := Steps.map_eq_ok_iff.1 (Option.some.inj h)
      refine ⟨rfl, fun i n => ?_⟩
      cases i with
      | zero => exact Frame.kind?_assign? hr n
      | succ i => rfl
    · obtain ⟨r, hr, he⟩ := Option.map_eq_some_iff.1 h
      obtain ⟨gs', rfl, rfl⟩ := Steps.map_eq_ok_iff.1 he
      obtain ⟨hlength, hkinds⟩ := ih hr
      refine ⟨by simp [hlength], fun i n => ?_⟩
      cases i with
      | zero => rfl
      | succ i => exact hkinds i n

theorem kindAt_eq (s : Store) (i : Nat) (n : Text) :
    s.kindAt i n =
      if i < s.locals.length then s.locals[i]?.bind (Frame.kind? · n)
      else if i = s.locals.length then s.global.kind? n else none := by
  rw [kindAt, frames, List.getElem?_append]
  split
  · rfl
  · split
    · next h => simp [h]
    · rw [List.getElem?_eq_none]
      · rfl
      · rw [List.length_singleton]
        omega

/-! ## What steps keep -/

/-- Declaring gives names to the innermost frame only. -/
theorem within_declare (name : Text) (kind : Kind) (value : Value) :
    Steps.Within (Keeps innermost) (declare name kind value) := by
  intro s
  rcases declare_cases name kind value s with ⟨e, h⟩ | ⟨f, fs, g, t, hs, hg, h, ht⟩
  · rw [Steps.after_of_error h]
    exact .refl s
  · rw [Steps.after_of_ok h]
    refine ⟨?_, fun i n => ?_⟩
    · rw [← length_frames, ← length_frames, hs, ht, List.length_cons, List.length_cons]
    · rw [kindAt, kindAt, hs, ht]
      cases i with
      | zero => exact (Frame.kind?_declare_cases hg n).imp_right fun h => ⟨h.1, rfl⟩
      | succ i => exact .inl rfl

/-- Declaring globally gives the global frame one name at most. -/
theorem within_declareGlobal (name : Text) (kind : Kind) (value : Value) :
    Steps.Within (fun s => Keeps (fun i n => i + 1 = s.depth ∧ n = name) s)
      (declareGlobal name kind value) := by
  intro s
  rcases declareGlobal_cases name kind value s with ⟨e, h⟩ | ⟨g, hg, h⟩
  · rw [Steps.after_of_error h]
    exact .refl s
  · rw [Steps.after_of_ok h]
    refine ⟨rfl, fun i n => ?_⟩
    rw [kindAt_eq, kindAt_eq]
    rcases Nat.lt_trichotomy i s.locals.length with hi | rfl | hi
    · simp [hi]
    · simpa [depth] using Frame.kind?_declare_cases hg n
    · have hne : i ≠ s.locals.length := by omega
      simp [Nat.not_lt.2 (Nat.le_of_lt hi), hne]

/-- Assigning gives no frame any name. -/
theorem within_assign (name : Text) (value : Value) :
    Steps.Within (Keeps nowhere) (assign name value) := by
  intro s
  rcases assign_cases name value s with ⟨e, h⟩ | ⟨fs, hfs, h⟩ | ⟨g, -, hg, h⟩
  · rw [Steps.after_of_error h]
    exact .refl s
  · rw [Steps.after_of_ok h]
    obtain ⟨hlength, hkinds⟩ := kinds_assignIn? hfs
    refine ⟨by simp only [depth, hlength], fun i n => .inl ?_⟩
    rw [kindAt_eq, kindAt_eq]
    simp only [hlength, hkinds]
  · rw [Steps.after_of_ok h]
    refine ⟨rfl, fun i n => .inl ?_⟩
    rw [kindAt_eq, kindAt_eq]
    simp only [Frame.kind?_assign? hg]

end Store

end Stencil
