import Stencil.Error

/-!
# Steps one after the other

How a sequence of two steps ends: it succeeds when both do, and it fails with the
first failure. A step on a state also says which state it leaves behind.
-/
namespace Stencil.Steps

variable {ε σ α β : Type}

theorem bind_eq_ok_iff {x : Except ε α} {f : α → Except ε β} {b : β} :
    x >>= f = .ok b ↔ ∃ a, x = .ok a ∧ f a = .ok b := by
  cases x with
  | error e => simp [bind, Except.bind]
  | ok a => simp [bind, Except.bind]

theorem bind_eq_error_iff {x : Except ε α} {f : α → Except ε β} {e : ε} :
    x >>= f = .error e ↔ x = .error e ∨ ∃ a, x = .ok a ∧ f a = .error e := by
  cases x with
  | error e => simp [bind, Except.bind]
  | ok a => simp [bind, Except.bind]

theorem map_eq_ok_iff {x : Except ε α} {f : α → β} {b : β} :
    x.map f = .ok b ↔ ∃ a, x = .ok a ∧ f a = b := by
  cases x <;> simp [Except.map]

theorem map_eq_error_iff {x : Except ε α} {f : α → β} {e : ε} :
    x.map f = .error e ↔ x = .error e := by
  cases x <;> simp [Except.map]

theorem toOption_eq_some_iff {x : Except ε α} {a : α} : x.toOption = some a ↔ x = .ok a := by
  cases x <;> simp [Except.toOption]

/-! ## Steps on a state -/

theorem run_bind_eq_ok_iff {x : EStateM ε σ α} {f : α → EStateM ε σ β} {s t : σ} {b : β} :
    (x >>= f) s = .ok b t ↔ ∃ a u, x s = .ok a u ∧ f a u = .ok b t := by
  change EStateM.bind x f s = _ ↔ _
  rw [EStateM.bind]
  cases x s with
  | error e u => simp
  | ok a u =>
    constructor
    · intro h
      exact ⟨a, u, rfl, h⟩
    · rintro ⟨_, _, he, h⟩
      cases he
      exact h

theorem run_bind_of_ok {x : EStateM ε σ α} {f : α → EStateM ε σ β} {s t : σ} {a : α}
    (h : x s = .ok a t) : (x >>= f) s = f a t := by
  change EStateM.bind x f s = _
  rw [EStateM.bind, h]

theorem run_bind_of_error {x : EStateM ε σ α} {f : α → EStateM ε σ β} {s t : σ} {e : ε}
    (h : x s = .error e t) : (x >>= f) s = .error e t := by
  change EStateM.bind x f s = _
  rw [EStateM.bind, h]

/-- The state that a step leaves behind, whether it succeeds or fails. -/
def after (x : EStateM ε σ α) (s : σ) : σ :=
  match x s with
  | .ok _ t => t
  | .error _ t => t

theorem after_of_ok {x : EStateM ε σ α} {s t : σ} {a : α} (h : x s = .ok a t) : after x s = t := by
  rw [after, h]

theorem after_of_error {x : EStateM ε σ α} {s t : σ} {e : ε} (h : x s = .error e t) :
    after x s = t := by
  rw [after, h]

/-- What a sequence leaves behind: what its second step leaves, if the first succeeds. -/
theorem after_bind (x : EStateM ε σ α) (f : α → EStateM ε σ β) (s : σ) :
    after (x >>= f) s =
      match x s with
      | .ok a t => after (f a) t
      | .error _ t => t := by
  rw [after]
  change (match EStateM.bind x f s with | .ok _ t => t | .error _ t => t) = _
  rw [EStateM.bind]
  cases x s <;> rfl

/-- A relation holds between the state before a step and the one that it leaves. -/
def Within (R : σ → σ → Prop) (x : EStateM ε σ α) : Prop := ∀ s, R s (after x s)

variable {R : σ → σ → Prop}

theorem Within.pure (refl : ∀ s, R s s) (a : α) : Within R (pure a : EStateM ε σ α) := refl

theorem Within.bind {x : EStateM ε σ α} {f : α → EStateM ε σ β}
    (trans : ∀ {a b c}, R a b → R b c → R a c) (hx : Within R x) (hf : ∀ a, Within R (f a)) :
    Within R (x >>= f) := by
  intro s
  have hs := hx s
  rw [after_bind]
  cases h : x s with
  | ok a t =>
    rw [after_of_ok h] at hs
    exact trans hs (hf a t)
  | error e t => rwa [after_of_error h] at hs

/-! ## How a step fails -/

section

/-- A step fails on a state with an error, whatever state it leaves. -/
def Fails (x : EStateM ε σ α) (s : σ) (e : ε) : Prop := ∃ t, x s = .error e t

variable {x : EStateM ε σ α} {f : α → EStateM ε σ β} {s t : σ} {a : α} {e : ε} {E : ε → Prop}

theorem not_fails_of_ok (h : x s = .ok a t) : ¬ Fails x s e := by
  rintro ⟨u, hu⟩
  rw [h] at hu
  cases hu

theorem Fails.unique {e' : ε} (h : Fails x s e) (h' : Fails x s e') : e = e' := by
  obtain ⟨t, ht⟩ := h
  obtain ⟨u, hu⟩ := h'
  rw [ht] at hu
  cases hu
  rfl

/-- What a step yields, with the state it leaves if it succeeds. -/
def outcome (x : EStateM ε σ α) (s : σ) : Except ε (α × σ) :=
  match x s with
  | .ok a t => .ok (a, t)
  | .error e _ => .error e

theorem outcome_eq_ok_iff : outcome x s = .ok (a, t) ↔ x s = .ok a t := by
  rw [outcome]
  cases x s <;> simp

theorem outcome_eq_error_iff : outcome x s = .error e ↔ Fails x s e := by
  rw [outcome, Fails]
  cases x s <;> simp

/-- A step succeeds on a state or fails on it. -/
theorem ok_or_fails (x : EStateM ε σ α) (s : σ) : (∃ a t, x s = .ok a t) ∨ ∃ e, Fails x s e := by
  cases h : x s with
  | ok a t => exact .inl ⟨a, t, rfl⟩
  | error e t => exact .inr ⟨e, t, h⟩

/-- Where a step cannot fail without another, it succeeds when that does. -/
theorem exists_ok_of_ok {τ : Type} {y : EStateM ε τ β} {u v : τ} {b : β}
    (hfails : ∀ e, Fails x s e → ∃ e', Fails y u e') (h : y u = .ok b v) :
    ∃ a t, x s = .ok a t := by
  rcases ok_or_fails x s with hok | ⟨e, he⟩
  · exact hok
  · obtain ⟨e', he'⟩ := hfails e he
    exact absurd he' (not_fails_of_ok h)

/-- Where a step cannot succeed without another, it fails when that does. -/
theorem exists_fails_of_fails {τ : Type} {y : EStateM ε τ β} {u : τ}
    (hok : ∀ a t, x s = .ok a t → ∃ b v, y u = .ok b v) (h : Fails y u e) : ∃ e', Fails x s e' := by
  rcases ok_or_fails x s with ⟨a, t, hx⟩ | hfails
  · obtain ⟨b, v, hy⟩ := hok a t hx
    exact absurd h (not_fails_of_ok hy)
  · exact hfails

/-- A sequence fails in its first step, or in its second one behind the first. -/
theorem fails_bind_iff :
    Fails (x >>= f) s e ↔ Fails x s e ∨ ∃ a t, x s = .ok a t ∧ Fails (f a) t e := by
  constructor
  · rintro ⟨u, h⟩
    change EStateM.bind x f s = _ at h
    rw [EStateM.bind] at h
    cases hx : x s with
    | ok a t =>
      rw [hx] at h
      exact .inr ⟨a, t, rfl, u, h⟩
    | error e' t =>
      rw [hx] at h
      cases h
      exact .inl ⟨u, hx⟩
  · rintro (⟨u, hx⟩ | ⟨a, t, hx, u, hf⟩)
    · refine ⟨u, ?_⟩
      change EStateM.bind x f s = _
      rw [EStateM.bind, hx]
    · exact ⟨u, (run_bind_of_ok hx).trans hf⟩

/-- Behind a step that succeeds, a sequence fails as its second step does. -/
theorem fails_bind_iff_of_ok (h : x s = .ok a t) : Fails (x >>= f) s e ↔ Fails (f a) t e := by
  rw [Fails, Fails, run_bind_of_ok h]

/-- A step fails with errors of one sort only. -/
def Raises (E : ε → Prop) (x : EStateM ε σ α) : Prop := ∀ s e, Fails x s e → E e

theorem Raises.of_ok {g : σ → α} {k : σ → σ} (h : ∀ s, x s = .ok (g s) (k s)) : Raises E x :=
  fun s _ he => absurd he (not_fails_of_ok (h s))

theorem Raises.pure (a : α) : Raises E (pure a : EStateM ε σ α) := .of_ok fun _ => rfl

theorem Raises.mono {E' : ε → Prop} (h : Raises E x) (hE : ∀ e, E e → E' e) : Raises E' x :=
  fun s e he => hE e (h s e he)

theorem Raises.bind (hx : Raises E x) (hf : ∀ a, Raises E (f a)) : Raises E (x >>= f) := by
  intro s e h
  rcases fails_bind_iff.1 h with h | ⟨a, t, -, h⟩
  · exact hx s e h
  · exact hf a t e h

/-- A step that fails leaves the state as it was. -/
def Atomic (x : EStateM ε σ α) : Prop := ∀ s e t, x s = .error e t → t = s

theorem Atomic.pure (a : α) : Atomic (pure a : EStateM ε σ α) := by
  intro s e t h
  cases h

/-- Behind a step that only reads, the second one decides what a failure leaves. -/
theorem Atomic.bind_of_reads (hx : ∀ s, after x s = s) (hf : ∀ a, Atomic (f a)) :
    Atomic (x >>= f) := by
  intro s e t h
  have hread := hx s
  cases hs : x s with
  | ok a u =>
    rw [after_of_ok hs] at hread
    rw [run_bind_of_ok hs, hread] at h
    exact hf a s e t h
  | error e' u =>
    rw [after_of_error hs] at hread
    rw [run_bind_of_error hs, hread] at h
    cases h
    rfl

/-- A result that is made of another one adds no failures. -/
theorem Atomic.bind_pure {g : α → β} (hx : Atomic x) :
    Atomic (x >>= fun a => (Pure.pure (g a) : EStateM ε σ β)) := by
  intro s e t h
  cases hs : x s with
  | ok a u =>
    rw [run_bind_of_ok hs] at h
    cases h
  | error e' u =>
    rw [run_bind_of_error hs] at h
    cases h
    exact hx s e t hs

end

/-! ## Two runs of a step -/

/-- On states that `P` relates, a step that succeeds on the first succeeds on the second
with the same result, and leaves states that `Q` relates. -/
def Carries (P Q : σ → σ → Prop) (x : EStateM ε σ α) : Prop :=
  ∀ s s' a t, P s s' → x s = .ok a t → ∃ t', x s' = .ok a t' ∧ Q t t'

variable {P Q S : σ → σ → Prop}

theorem Carries.pure (a : α) : Carries P P (pure a : EStateM ε σ α) := by
  intro s s' b t hs h
  cases h
  exact ⟨s', rfl, hs⟩

theorem Carries.bind {x : EStateM ε σ α} {f : α → EStateM ε σ β} (hx : Carries P Q x)
    (hf : ∀ a, Carries Q S (f a)) : Carries P S (x >>= f) := by
  intro s s' b u hs h
  obtain ⟨a, t, hxs, hfs⟩ := run_bind_eq_ok_iff.1 h
  obtain ⟨t', hxs', ht⟩ := hx s s' a t hs hxs
  obtain ⟨u', hfs', hu⟩ := hf a t t' b u ht hfs
  exact ⟨u', run_bind_eq_ok_iff.2 ⟨a, t', hxs', hfs'⟩, hu⟩

/-- A step that reads and does not write. -/
theorem Carries.of_reads {x : EStateM ε σ α}
    (h : ∀ s s' a t, P s s' → x s = .ok a t → t = s ∧ x s' = .ok a s') : Carries P P x := by
  intro s s' a t hs hx
  obtain ⟨rfl, hx'⟩ := h s s' a t hs hx
  exact ⟨s', hx', hs⟩

/-- On states that `P` relates, a step that fails on the first fails on the second too, or it
fails on the first with an error of one sort. -/
def FailsAlike (E : ε → Prop) (P : σ → σ → Prop) (x : EStateM ε σ α) : Prop :=
  ∀ s s' e, P s s' → Fails x s e → (∃ e', Fails x s' e') ∨ E e

section

variable {E E' : ε → Prop} {x : EStateM ε σ α} {f : α → EStateM ε σ β}

theorem FailsAlike.pure (a : α) : FailsAlike E P (pure a : EStateM ε σ α) :=
  fun _ _ _ _ h => absurd h (not_fails_of_ok rfl)

theorem FailsAlike.mono (h : FailsAlike E P x) (hE : ∀ e, E e → E' e) : FailsAlike E' P x :=
  fun s s' e hs hx => (h s s' e hs hx).imp_right (hE e)

/-- Behind a first step that both runs take, the second one decides. -/
theorem FailsAlike.bind (hcarries : Carries P Q x) (hx : FailsAlike E P x)
    (hf : ∀ a, FailsAlike E Q (f a)) : FailsAlike E P (x >>= f) := by
  intro s s' e hs h
  rcases fails_bind_iff.1 h with h | ⟨a, t, hok, h⟩
  · refine (hx s s' e hs h).imp_left ?_
    rintro ⟨e', he'⟩
    exact ⟨e', fails_bind_iff.2 (.inl he')⟩
  · obtain ⟨t', hok', ht⟩ := hcarries s s' a t hs hok
    refine (hf a t t' e ht h).imp_left ?_
    rintro ⟨e', he'⟩
    exact ⟨e', (fails_bind_iff_of_ok hok').2 he'⟩

end

/-! ## Two runs that may fail apart -/

section

variable {α' β' τ : Type} {E : ε → Prop} {R : α → β → Prop} {R' : α' → β' → Prop}
  {P P' : σ → τ → Prop} {x : EStateM ε σ α} {y : EStateM ε τ β} {s s' : σ} {t t' : τ} {a : α}
  {b : β} {e : ε}

/-- How two runs end that only errors of one sort can tell apart: both succeed, with
results and states that are related; or one alone fails, with such an error; or both fail. -/
inductive Parallel (E : ε → Prop) (R : α → β → Prop) (P : σ → τ → Prop) :
    EStateM.Result ε σ α → EStateM.Result ε τ β → Prop
  | ok {a : α} {b : β} {s : σ} {t : τ} : R a b → P s t → Parallel E R P (.ok a s) (.ok b t)
  | left {e : ε} {b : β} {s : σ} {t : τ} : E e → Parallel E R P (.error e s) (.ok b t)
  | right {a : α} {e : ε} {s : σ} {t : τ} : E e → Parallel E R P (.ok a s) (.error e t)
  | failed (e e' : ε) (s : σ) (t : τ) : Parallel E R P (.error e s) (.error e' t)

theorem Parallel.bind {f : α → EStateM ε σ α'} {g : β → EStateM ε τ β'}
    (hx : Parallel E R P (x s) (y t))
    (hf : ∀ a b s' t', R a b → P s' t' → Parallel E R' P' (f a s') (g b t')) :
    Parallel E R' P' ((x >>= f) s) ((y >>= g) t) := by
  change Parallel E R' P' (EStateM.bind x f s) (EStateM.bind y g t)
  rw [EStateM.bind, EStateM.bind]
  generalize x s = r at hx ⊢
  generalize y t = r' at hx ⊢
  cases hx with
  | ok hab hst => exact hf _ _ _ _ hab hst
  | @left e b s' t' he =>
    dsimp only
    cases g b t' with
    | ok _ _ => exact .left he
    | error e' _ => exact .failed e e' _ _
  | @right a e s' t' he =>
    dsimp only
    cases f a s' with
    | ok _ _ => exact .right he
    | error e' _ => exact .failed e' e _ _
  | failed e e' _ _ => exact .failed e e' _ _

/-- Two runs that both succeed end with related results and states. -/
theorem Parallel.of_ok (h : Parallel E R P (x s) (y t)) (hx : x s = .ok a s')
    (hy : y t = .ok b t') : R a b ∧ P s' t' := by
  rw [hx, hy] at h
  cases h with
  | ok hab hst => exact ⟨hab, hst⟩

/-- Runs that both fail are parallel. -/
theorem Parallel.of_fails {e' : ε} (hx : Fails x s e) (hy : Fails y t e') :
    Parallel E R P (x s) (y t) := by
  obtain ⟨u, hu⟩ := hx
  obtain ⟨v, hv⟩ := hy
  rw [hu, hv]
  exact .failed e e' u v

/-- Where the first run fails with any other error, the second one fails. -/
theorem Parallel.fails_right (h : Parallel E R P (x s) (y t)) (hx : Fails x s e) (he : ¬ E e) :
    ∃ e', Fails y t e' := by
  obtain ⟨s', hs'⟩ := hx
  rw [hs'] at h
  rcases ok_or_fails y t with ⟨b, t', hy⟩ | hfails
  · rw [hy] at h
    cases h with
    | left hE => exact absurd hE he
  · exact hfails

/-- Where the second run fails with any other error, the first one fails. -/
theorem Parallel.fails_left (h : Parallel E R P (x s) (y t)) (hy : Fails y t e) (he : ¬ E e) :
    ∃ e', Fails x s e' := by
  obtain ⟨t', ht'⟩ := hy
  rw [ht'] at h
  rcases ok_or_fails x s with ⟨a, s', hx⟩ | hfails
  · rw [hx] at h
    cases h with
    | right hE => exact absurd hE he
  · exact hfails

end

end Stencil.Steps
