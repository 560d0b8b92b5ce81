import Stencil.Proofs.Failures
import Stencil.Proofs.Quoting

/-!
# What an evaluation does

An expression reads all that it needs before it writes, and it writes one slot at most. So an
evaluation that fails leaves the store as it was, and one that succeeds has done what the
expression says to one slot, or nothing. A step that is taken back writes the old value into
the slot that it came from, which makes it the store that it was. Literals are read as integers
of 64 bits and steps do not leave that range, so no variable of a store that is reached ever
does.

## Main definitions

* `Expression.Sound`: expressions with integers in range, and steps by one.
* `Expression.Effect`: what each expression does when it succeeds.
* `Expression.Unevaluated`: how an evaluation fails.
* `Store.Bounded`: stores whose integers are in range.
* `Store.Reached`: stores that evaluations and frames lead to.
-/
namespace Stencil

open Steps (Within Atomic Fails after)

/-! ## Integers in range -/

/-- An integer literal is in range. -/
def Param.InRange : Param → Prop
  | .literal (.int n) => Number.InRange n
  | _ => True

namespace Form

variable {line : Text} {c : Char} {params : List Param} {n : Int}

theorem inRange_of_integer? (h : Number.integer? line = some n) : Number.InRange n := by
  obtain ⟨m, -, h⟩ := Option.bind_eq_some_iff.1 h
  simp only [Option.ite_none_right_eq_some, Option.some.injEq] at h
  obtain ⟨hrange, hn⟩ := h
  rwa [hn] at hrange

theorem inRange_of_read?_values (h : values.read? line = some params) :
    ∀ p ∈ params, p.InRange := by
  have hinteger : ∀ n, integer? line = some n → Number.InRange n := by
    intro n hn
    rw [integer?] at hn
    split at hn
    · cases hn
    · exact inRange_of_integer? hn
  rw [read?_values, read?_literals, read?_integer, read?_double, read?_bool, read?_quoted,
    read?_identifier] at h
  simp only [Option.or_eq_some_iff, Option.map_eq_some_iff] at h
  grind [Param.InRange]

theorem inRange_of_forall₂ {parts : List Text}
    (h : List.Forall₂ (fun part p => values.read? part = some [p]) parts params) :
    ∀ p ∈ params, p.InRange := by
  induction h with
  | nil => simp
  | cons hread _ ih =>
    have hfirst := inRange_of_read?_values hread _ List.mem_cons_self
    exact List.forall_mem_cons.2 ⟨hfirst, ih⟩

theorem inRange_of_read?_separated (h : (separated [c] values).read? line = some params) :
    ∀ p ∈ params, p.InRange :=
  inRange_of_forall₂ (forall₂_of_read?_separated h)

theorem inRange_of_read?_identifier (h : identifier.read? line = some params) :
    ∀ p ∈ params, p.InRange := by
  rw [read?_identifier] at h
  split at h
  · cases h
    simp [Param.InRange]
  · cases h

end Form

namespace Expression

variable {text line r name n : Text} {kind : Kind} {init : Option Param} {p : Param} {delta k : Int}
  {e : Error} {expression : Expression} {params : List Param} {s t u : Store} {v : Variable}

/-- The integers of an expression are in range, and its steps are by one. -/
def Sound : Expression → Prop
  | .declare _ _ init => ∀ p ∈ init, p.InRange
  | .assign _ p => p.InRange
  | .step _ delta => delta = 1 ∨ delta = -1
  | .literal _ | .read _ => True

theorem sound_ofDeclaration (h : ofDeclaration kind params = some expression)
    (hparams : ∀ p ∈ params, p.InRange) : expression.Sound := by
  unfold ofDeclaration at h
  split at h
  · cases h
    simp [Sound]
  · cases h
    simpa [Sound] using hparams _ (List.mem_cons_of_mem _ List.mem_cons_self)
  · cases h

theorem sound_ofAssignment (h : ofAssignment params = some expression)
    (hparams : ∀ p ∈ params, p.InRange) : expression.Sound := by
  unfold ofAssignment at h
  split at h
  · cases h
    exact hparams _ (List.mem_cons_of_mem _ List.mem_cons_self)
  · cases h

theorem sound_ofStep (h : ofStep delta params = some expression)
    (hdelta : delta = 1 ∨ delta = -1) : expression.Sound := by
  unfold ofStep at h
  split at h
  · cases h
    exact hdelta
  · cases h

theorem sound_ofLiteral (h : ofLiteral params = some expression) : expression.Sound := by
  unfold ofLiteral at h
  split at h
  · cases h
    trivial
  · cases h

theorem sound_ofName (h : ofName params = some expression) : expression.Sound := by
  unfold ofName at h
  split at h
  · cases h
    trivial
  · cases h

theorem inRange_of_declaration (h : (declaration kind).form.read? line = some params) :
    ∀ p ∈ params, p.InRange := by
  obtain ⟨rest, -, h⟩ := Option.bind_eq_some_iff.1 (Form.read?_leading.symm.trans h)
  rw [Form.read?_firstOf_cons, Form.read?_firstOf_cons, Form.read?_firstOf_nil, Option.or_none,
    Option.or_eq_some_iff] at h
  rcases h with h | ⟨-, h⟩
  · exact Form.inRange_of_read?_identifier h
  · exact Form.inRange_of_read?_separated h

/-- What a construct takes is sound: only declarations and assignments have parameters. -/
theorem sound_of_taken {c : Construct Expression} (hc : c ∈ language)
    (hread : c.form.read? line = some params) (hbuild : c.build params = .ok (some expression)) :
    expression.Sound := by
  simp only [language, List.mem_cons, List.not_mem_nil, or_false] at hc
  rcases hc with rfl | rfl | rfl | rfl | rfl | rfl | rfl | rfl
  · exact sound_ofDeclaration (Except.ok.inj hbuild) (inRange_of_declaration hread)
  · exact sound_ofDeclaration (Except.ok.inj hbuild) (inRange_of_declaration hread)
  · exact sound_ofDeclaration (Except.ok.inj hbuild) (inRange_of_declaration hread)
  · exact sound_ofAssignment (Except.ok.inj hbuild) (Form.inRange_of_read?_separated hread)
  · exact sound_ofStep (Except.ok.inj hbuild) (.inl rfl)
  · exact sound_ofStep (Except.ok.inj hbuild) (.inr rfl)
  · exact sound_ofLiteral (Except.ok.inj hbuild)
  · exact sound_ofName (Except.ok.inj hbuild)

theorem sound_of_parse (h : parse text = .ok expression) : expression.Sound := by
  have hdecides := Language.parse_eq_iff_decides.1 h
  cases hdecides with
  | @taken before behind c params a hl _ _ hparams hbuild =>
    have hc : c ∈ language := by
      rw [hl]
      simp
    exact sound_of_taken hc (Form.read?_eq_some_iff.2 hparams) hbuild

end Expression

/-! ## Assigning again -/

namespace Frame

variable {f g : Frame} {name : Text} {value : Value} {v : Variable}

/-- Whether a frame has a name to assign to does not depend on the value. -/
theorem assign?_eq_none_of (h : f.assign? name value = none) (last : Value) :
    f.assign? name last = none :=
  assign?_eq_none_iff.2 (assign?_eq_none_iff.1 h)

/-- The last value that is assigned is the one that counts. -/
theorem assign?_assign? (h : f.assign? name value = some (.ok g)) (last : Value) :
    g.assign? name last = f.assign? name last := by
  induction f generalizing g with
  | nil => cases h
  | cons v f ih =>
    by_cases hv : v.name = name
    · simp only [assign?, hv, beq_self_eq_true, if_true, Option.some.injEq] at h
      obtain ⟨w, hw, rfl⟩ := Steps.map_eq_ok_iff.1 h
      obtain ⟨-, rfl⟩ := Variable.write_eq_ok_iff.1 hw
      simp [assign?, hv, Variable.write]
    · simp only [assign?, beq_iff_eq, hv, if_false, Option.map_eq_some_iff] at h
      obtain ⟨r, hr, he⟩ := h
      obtain ⟨g', rfl, rfl⟩ := Steps.map_eq_ok_iff.1 he
      simp [assign?, hv, ih hr]

/-- Assigning the value that is there changes nothing. -/
theorem assign?_self (h : f.get? name = some v) (htyped : v.value.kind? = some v.kind) :
    f.assign? name v.value = some (.ok f) := by
  induction f with
  | nil => cases h
  | cons w f ih =>
    rw [get?_cons] at h
    by_cases hw : w.name = name
    · rw [if_pos hw] at h
      obtain rfl : w = v := Option.some.inj h
      have hwrite : w.write w.value = .ok w := Variable.write_eq_ok_iff.2 ⟨htyped, rfl⟩
      simp [assign?, hw, hwrite, Except.map]
    · rw [if_neg hw] at h
      simp [assign?, hw, ih h, Except.map]

end Frame

namespace Store

variable {s t u : Store} {name : Text} {value last : Value} {v : Variable} {fs gs : List Frame}

theorem assignIn?_eq_none_of (h : assignIn? name value fs = none) (last : Value) :
    assignIn? name last fs = none :=
  assignIn?_eq_none_iff.2 (assignIn?_eq_none_iff.1 h)

theorem assignIn?_assignIn? (h : assignIn? name value fs = some (.ok gs)) (last : Value) :
    assignIn? name last gs = assignIn? name last fs := by
  induction fs generalizing gs with
  | nil => cases h
  | cons f fs ih =>
    rw [assignIn?] at h
    split at h
    · next r hr =>
      obtain ⟨g, rfl, rfl⟩ := Steps.map_eq_ok_iff.1 (Option.some.inj h)
      rw [assignIn?, assignIn?, Frame.assign?_assign? hr]
      have hsome : f.assign? name last ≠ none := by
        intro hnone
        rw [Frame.assign?_eq_none_of hnone value] at hr
        cases hr
      obtain ⟨r, hr⟩ := Option.ne_none_iff_exists'.1 hsome
      rw [hr]
    · next hnone =>
      obtain ⟨r, hr, he⟩ := Option.map_eq_some_iff.1 h
      obtain ⟨gs', rfl, rfl⟩ := Steps.map_eq_ok_iff.1 he
      have hlast : f.assign? name last = none := Frame.assign?_eq_none_of hnone last
      rw [assignIn?, assignIn?, hlast, ih hr]

theorem assignIn?_self (h : fs.findSome? (·.get? name) = some v)
    (htyped : v.value.kind? = some v.kind) : assignIn? name v.value fs = some (.ok fs) := by
  induction fs with
  | nil => cases h
  | cons f fs ih =>
    rw [assignIn?]
    cases hget : f.get? name with
    | none =>
      rw [List.findSome?_cons_of_isNone (by simp [hget])] at h
      simp [Frame.assign?_eq_none_iff.2 hget, ih h, Except.map]
    | some w =>
      rw [List.findSome?_cons_of_isSome (by simp [hget]), hget] at h
      obtain rfl : w = v := Option.some.inj h
      simp [Frame.assign?_self hget htyped, Except.map]

/-- Assigning its own value to a name gives the store back. -/
theorem assign_self (h : s.get? name = some v) (htyped : v.value.kind? = some v.kind) :
    assign name v.value s = .ok () s := by
  rw [get?, Option.or_eq_some_iff] at h
  rcases h with h | ⟨hnone, h⟩
  · rw [assign, assignIn?_self h htyped]
  · have hlocals : assignIn? name v.value s.locals = none :=
      assignIn?_eq_none_iff.2 (List.findSome?_eq_none_iff.1 hnone)
    rw [assign, hlocals]
    simp only [assignGlobal, Frame.assign?_self h htyped]

/-- The last value that is assigned to a name is the one that counts. -/
theorem assign_assign (h : assign name value s = .ok () t) (hlast : assign name last s = .ok () u) :
    assign name last t = .ok () u := by
  rcases assign_cases name value s with ⟨e, he⟩ | ⟨fs, hfs, hok⟩ | ⟨g, hlocals, hg, hok⟩
  · rw [he] at h
    cases h
  · rw [hok] at h
    cases h
    have hsome : assignIn? name last s.locals ≠ none := by
      intro hnone
      rw [assignIn?_eq_none_of hnone value] at hfs
      cases hfs
    obtain ⟨r, hr⟩ := Option.ne_none_iff_exists'.1 hsome
    rw [assign, hr] at hlast
    rw [assign, assignIn?_assignIn? hfs, hr]
    cases r with
    | ok gs => exact hlast
    | error e => cases hlast
  · rw [hok] at h
    cases h
    have hnone : assignIn? name last s.locals = none := assignIn?_eq_none_of hlocals last
    rw [assign, hnone] at hlast ⊢
    simp only [assignGlobal, Frame.assign?_assign? hg] at hlast ⊢
    cases hr : s.global.assign? name last with
    | none =>
      rw [hr] at hlast
      cases hlast
    | some r =>
      rw [hr] at hlast
      cases r with
      | ok g' => exact hlast
      | error e => cases hlast

/-! ## Stores with integers in range -/

/-- The variables of a store are of their kinds, and its integers are in range. -/
structure Bounded (s : Store) : Prop where
  lawful : ∀ f ∈ s.frames, f.Lawful
  inRange : ∀ i n v k, s.slot i n = some v → v.value = .int k → Number.InRange k

theorem Bounded.typed {n : Text} (h : s.Bounded) (hv : s.get? n = some v) :
    v.value.kind? = some v.kind := by
  obtain ⟨i, -, hslot⟩ := get?_eq_some_iff.1 hv
  exact typed_of_slot h.lawful hslot

theorem Bounded.value? {n : Text} {k : Int} (h : s.Bounded) (hv : s.value? n = some (.int k)) :
    Number.InRange k := by
  obtain ⟨v, hget, hk⟩ := Option.map_eq_some_iff.1 hv
  obtain ⟨i, -, hslot⟩ := get?_eq_some_iff.1 hget
  exact h.inRange i n v k hslot hk

theorem bounded_empty : empty.Bounded := by
  refine ⟨List.forall_mem_singleton.2 Frame.lawful_nil, ?_⟩
  intro i n v k hv
  obtain ⟨f, hf, hget⟩ := Option.bind_eq_some_iff.1 hv
  obtain rfl : f = [] := by simpa [empty, frames] using List.mem_of_getElem? hf
  cases hget

theorem Bounded.push (h : s.Bounded) : s.push.Bounded := by
  refine ⟨List.forall_mem_cons.2 ⟨Frame.lawful_nil, h.lawful⟩, ?_⟩
  intro i n v k hv
  rw [slot_push] at hv
  exact h.inRange i n v k hv

theorem Bounded.pop (h : s.Bounded) : (after Store.pop s).Bounded := by
  obtain ⟨locals, global⟩ := s
  cases locals with
  | nil => exact h
  | cons f locals =>
    have hframes : (Store.mk (f :: locals) global).frames = f :: (Store.mk locals global).frames :=
      rfl
    refine ⟨(List.forall_mem_cons.1 h.lawful).2, ?_⟩
    intro i n v k hv
    have hslot := slot_of_dropped hframes (lt_depth_of_slot hv) n
    exact h.inRange i n v k (hslot ▸ hv)

/-- A slot that is updated with a value in range leaves the integers in range. -/
theorem Bounded.of_updates {i : Nat} {n : Text} (h : s.Bounded) (hupdates : Updates i n v s t)
    (hlawful : ∀ f ∈ t.frames, f.Lawful) (hv : ∀ k, v.value = .int k → Number.InRange k) :
    t.Bounded := by
  refine ⟨hlawful, ?_⟩
  intro j m w k hw hk
  by_cases hslot : j = i ∧ m = n
  · obtain ⟨rfl, rfl⟩ := hslot
    rw [hupdates.slot] at hw
    obtain rfl := Option.some.inj hw
    exact hv k hk
  · rw [hupdates.other j m (by tauto)] at hw
    exact h.inRange j m w k hw hk

/-- A value that is resolved is an integer in range, if it is one. -/
theorem Bounded.resolve {p : Param} {k : Int} (h : s.Bounded) (hp : p.InRange)
    (hvalue : s.resolve p = .ok (.int k)) : Number.InRange k := by
  match p, hp, hvalue with
  | .literal v, hp, hvalue =>
    cases hvalue
    exact hp
  | .variable n, _, hvalue =>
    rw [Store.resolve] at hvalue
    split at hvalue
    · next v hv =>
      cases hvalue
      exact h.value? hv
    · cases hvalue

end Store

namespace Expression

variable {text line r name n : Text} {kind : Kind} {init : Option Param} {p : Param} {delta k : Int}
  {e : Error} {expression : Expression} {s t u : Store} {v : Variable}

/-! ## What evaluations do -/

/-- What an expression does when it succeeds: the text that takes its place, and the store that
it leaves. A literal and a read leave the store alone. The others have no text, and update one
slot: a declaration the one of its name in the innermost frame, an assignment and a step the one
in the innermost frame that has the name. -/
inductive Effect (s : Store) : Expression → Text → Store → Prop
  | literal (text : Text) : Effect s (.literal text) text s
  | read {name : Text} {v : Value} : s.value? name = some v → Effect s (.read name) v.text s
  | declare {kind : Kind} {name : Text} {init : Option Param} {value : Value} {t : Store} :
      s.initial kind init = .ok value →
        Store.Updates s.top name ⟨name, s.kindFor s.top name kind, value⟩ s t →
          Effect s (.declare kind name init) [] t
  | assign {name : Text} {p : Param} {i : Nat} {v : Variable} {value : Value} {t : Store} :
      s.Innermost i name → s.slot i name = some v → s.resolve p = .ok value →
        Store.Updates i name { v with value := value } s t → Effect s (.assign name p) [] t
  | step {name : Text} {delta : Int} {i : Nat} {v : Variable} {k : Int} {t : Store} :
      s.Innermost i name → s.slot i name = some v → v.value = .int k →
        Number.InRange (k + delta) →
          Store.Updates i name { v with value := .int (k + delta) } s t →
            Effect s (.step name delta) [] t

theorem resolve_eq_ok_iff {value : Value} :
    resolve p s = .ok value t ↔ s = t ∧ s.resolve p = .ok value := by
  rw [resolve]
  cases s.resolve p with
  | ok w => simp [and_comm]
  | error e => simp

/-- An assignment that succeeds updates the slot in which its name is found. -/
theorem exists_updates_of_assign {value : Value} (h : Store.assign name value s = .ok () t) :
    ∃ i v, s.Innermost i name ∧ s.slot i name = some v ∧
      Store.Updates i name { v with value := value } s t := by
  obtain ⟨v, hget, hkind⟩ := Store.exists_assign_iff.1 ⟨t, h⟩
  obtain ⟨i, hinner, hslot⟩ := Store.get?_eq_some_iff.1 hget
  obtain ⟨t', ht', hupdates⟩ := Store.assign_updates hinner hslot hkind
  rw [h] at ht'
  cases ht'
  exact ⟨i, v, hinner, hslot, hupdates⟩

theorem move_eq_ok_iff {next : Int} :
    move name k delta s = .ok next t ↔ s = t ∧ Number.InRange (k + delta) ∧ k + delta = next := by
  rw [move]
  by_cases h : Number.InRange (k + delta)
  · simp [h, and_comm]
  · simp [h]

/-- A step reads an integer, and assigns the next one to its name. -/
theorem eval_step_eq_ok_iff :
    (step name delta).eval s = .ok r t ↔ r = [] ∧ ∃ k, s.value? name = some (.int k) ∧
      Number.InRange (k + delta) ∧ Store.assign name (.int (k + delta)) s = .ok () t := by
  constructor
  · intro h
    obtain ⟨k, s', hk, h⟩ := Steps.run_bind_eq_ok_iff.1 h
    obtain ⟨rfl, hvalue⟩ := intOf_eq_ok_iff.1 hk
    obtain ⟨next, s', hnext, h⟩ := Steps.run_bind_eq_ok_iff.1 h
    obtain ⟨rfl, hrange, rfl⟩ := move_eq_ok_iff.1 hnext
    obtain ⟨_, t', hassign, h⟩ := Steps.run_bind_eq_ok_iff.1 h
    cases h
    exact ⟨rfl, k, hvalue, hrange, hassign⟩
  · rintro ⟨rfl, k, hvalue, hrange, hassign⟩
    refine (Steps.run_bind_of_ok (intOf_eq_ok_iff.2 ⟨rfl, hvalue⟩)).trans ?_
    refine (Steps.run_bind_of_ok (move_eq_ok_iff.2 ⟨rfl, hrange, rfl⟩)).trans ?_
    exact Steps.run_bind_of_ok hassign

/-- An expression that succeeds has its effect. -/
theorem effect_of_eval (h : expression.eval s = .ok r t) : Effect s expression r t := by
  cases expression with
  | declare kind name init =>
    cases hvalue : s.initial kind init with
    | error e =>
      rw [eval_declare_of_error hvalue] at h
      cases h
    | ok value =>
      rw [eval_declare_of_ok hvalue] at h
      obtain ⟨_, t', hdeclare, h⟩ := Steps.run_bind_eq_ok_iff.1 h
      cases h
      obtain ⟨t', ht', hupdates⟩ := Store.declare_updates (Store.exists_declare_iff.1 ⟨t, hdeclare⟩)
      rw [hdeclare] at ht'
      cases ht'
      exact .declare hvalue hupdates
  | assign name p =>
    obtain ⟨value, s', hresolve, h⟩ := Steps.run_bind_eq_ok_iff.1 h
    obtain ⟨rfl, hvalue⟩ := resolve_eq_ok_iff.1 hresolve
    obtain ⟨_, t', hassign, h⟩ := Steps.run_bind_eq_ok_iff.1 h
    cases h
    obtain ⟨i, v, hinner, hslot, hupdates⟩ := exists_updates_of_assign hassign
    exact .assign hinner hslot hvalue hupdates
  | step name delta =>
    obtain ⟨rfl, k, hvalue, hrange, hassign⟩ := eval_step_eq_ok_iff.1 h
    obtain ⟨i, v, hinner, hslot, hupdates⟩ := exists_updates_of_assign hassign
    have hget : s.get? name = some v := Store.get?_eq_some_iff.2 ⟨i, hinner, hslot⟩
    have hk : v.value = .int k := by simpa [Store.value?, hget] using hvalue
    exact .step hinner hslot hk hrange hupdates
  | literal =>
    cases h
    exact .literal _
  | read name =>
    rw [eval_read, Store.lookUp_eq_ok_iff] at h
    obtain ⟨rfl, v, hv, hr⟩ := h
    cases hr
    exact .read hv

/-- An expression reads before it writes, so it fails before it has written anything. -/
theorem atomic_eval (expression : Expression) : Atomic expression.eval := by
  have hstore : ∀ op : Store.Operation, Atomic op.step := by
    intro op s e t h
    exact Store.Operation.eq_of_error h
  have hdeclare : ∀ name kind value, Atomic (Store.declare name kind value) :=
    fun name kind value => hstore (.declare name kind value)
  have hassign : ∀ name value, Atomic (Store.assign name value) :=
    fun name value => hstore (.assign name value)
  cases expression with
  | declare kind name init =>
    cases init with
    | none => exact (hdeclare name kind _).bind_pure
    | some p =>
      refine Atomic.bind_of_reads (after_resolve p) fun value => ?_
      exact (hdeclare name kind value).bind_pure
  | assign name p =>
    refine Atomic.bind_of_reads (after_resolve p) fun value => ?_
    exact (hassign name value).bind_pure
  | step name delta =>
    refine Atomic.bind_of_reads (after_intOf name) fun k => ?_
    refine Atomic.bind_of_reads (after_move name k delta) fun next => ?_
    exact (hassign name _).bind_pure
  | literal text => exact .pure text
  | read name =>
    intro s e t h
    have hread := after_read name s
    rwa [Steps.after_of_error h] at hread

/-- How evaluating a text fails: it is no expression, a name is not used as it can be, or an
integer leaves the range. -/
inductive Unevaluated : Error → Prop
  | unknownCommand (text : Text) : Unevaluated (.unknownCommand text)
  | unknownVariable (name : Text) : Unevaluated (.unknownVariable name)
  | kindMismatch (name : Text) (expected found : ValueType) :
      Unevaluated (.kindMismatch name expected found)
  | overflow (name : Text) : Unevaluated (.overflow name)

theorem Unevaluated.of_misuse (h : Misuse e) : Unevaluated e := by
  cases h with
  | unknownVariable name => exact .unknownVariable name
  | kindMismatch name expected found => exact .kindMismatch name expected found

/-- Evaluating a text fails when it is no expression, or as its expression does. -/
theorem evaluate_eq_error_iff :
    evaluate text s = .error e t ↔ (parse text = .error e ∧ t = s) ∨
      ∃ expression, parse text = .ok expression ∧ expression.eval s = .error e t := by
  rw [evaluate]
  cases parse text with
  | ok expression => simp
  | error e' => simp [eq_comm]

theorem evaluate_eq_ok_iff :
    evaluate text s = .ok r t ↔
      ∃ expression, parse text = .ok expression ∧ expression.eval s = .ok r t := by
  rw [evaluate]
  cases parse text with
  | ok expression => simp
  | error e => simp

theorem atomic_evaluate (text : Text) : Atomic (evaluate text) := by
  intro s e t h
  rcases evaluate_eq_error_iff.1 h with ⟨-, hsame⟩ | ⟨expression, -, h⟩
  · exact hsame
  · exact atomic_eval expression s e t h

theorem unevaluated_of_error (h : evaluate text s = .error e t) : Unevaluated e := by
  rcases evaluate_eq_error_iff.1 h with ⟨hparse, -⟩ | ⟨expression, -, h⟩
  · rw [parse_error hparse]
    exact .unknownCommand _
  · rcases fails_eval ⟨t, h⟩ with hmisuse | ⟨name, -, -, -, -, -, rfl⟩
    · exact .of_misuse hmisuse
    · exact .overflow name

/-! ## Stores that are reached -/

theorem lawful_evaluate (text : Text) :
    Within (fun s t => (∀ f ∈ s.frames, f.Lawful) → ∀ f ∈ t.frames, f.Lawful) (evaluate text) := by
  have hoperation : ∀ op : Store.Operation,
      Within (fun s t => (∀ f ∈ s.frames, f.Lawful) → ∀ f ∈ t.frames, f.Lawful) op.step := by
    intro op s hs
    rcases Store.eq_or_does op s with hsame | hdoes
    · rwa [hsame]
    · exact hdoes.lawful hs
  refine within_evaluate (fun s hs => hs) ?_ text
  refine within_eval_of (fun s hs => hs) (fun h h' hs => h' (h hs)) ?_ ?_
  · intro name kind value
    exact hoperation (.declare name kind value)
  · intro name value
    exact hoperation (.assign name value)

/-- What a sound expression does leaves the integers in range. -/
theorem Effect.bounded (h : Effect s expression r t) (hsound : expression.Sound) (hs : s.Bounded)
    (hlawful : ∀ f ∈ t.frames, f.Lawful) : t.Bounded := by
  cases h with
  | literal => exact hs
  | read => exact hs
  | @declare kind name init value t hvalue hupdates =>
    refine hs.of_updates hupdates hlawful fun k hk => ?_
    obtain rfl : value = .int k := hk
    cases init with
    | none =>
      have hzero : kind.zero = .int k := Except.ok.inj hvalue
      cases kind <;> cases hzero
      decide
    | some p => exact hs.resolve (hsound p rfl) hvalue
  | @assign name p i v value t hinner hslot hvalue hupdates =>
    refine hs.of_updates hupdates hlawful fun k hk => ?_
    obtain rfl : value = .int k := hk
    exact hs.resolve hsound hvalue
  | step hinner hslot hk hrange hupdates =>
    refine hs.of_updates hupdates hlawful fun k' hk' => ?_
    cases hk'
    exact hrange

theorem bounded_evaluate (hs : s.Bounded) (text : Text) : (after (evaluate text) s).Bounded := by
  have hlawful := lawful_evaluate text s hs.lawful
  cases h : evaluate text s with
  | error e t =>
    obtain rfl := atomic_evaluate text s e t h
    rwa [Steps.after_of_error h]
  | ok r t =>
    rw [Steps.after_of_ok h] at hlawful ⊢
    obtain ⟨expression, hparse, heval⟩ := evaluate_eq_ok_iff.1 h
    exact (effect_of_eval heval).bounded (sound_of_parse hparse) hs hlawful

end Expression

namespace Store

/-- The stores that evaluations, pushes and pops lead to, whether they fail or not. -/
inductive Reached : Store → Prop
  | empty : Reached .empty
  | evaluate {s : Store} (h : Reached s) (text : Text) :
    Reached (after (Expression.evaluate text) s)
  | push {s : Store} (h : Reached s) : Reached s.push
  | pop {s : Store} (h : Reached s) : Reached (after Store.pop s)

/-- Every store that is reached has its integers in range. -/
theorem Reached.bounded {s : Store} (h : s.Reached) : s.Bounded := by
  induction h with
  | empty => exact bounded_empty
  | evaluate h text ih => exact Expression.bounded_evaluate ih text
  | push h ih => exact ih.push
  | pop h ih => exact ih.pop

end Store

namespace Expression

variable {text back line r name n : Text} {delta k : Int} {s t : Store} {v : Variable}

/-! ## Steps up and down -/

/-- The last integer that a variable can hold, going up or down. -/
def limit (delta : Int) : Int :=
  if 0 < delta then 9223372036854775807 else -9223372036854775808

theorem inRange_add_iff (hk : Number.InRange k) (hdelta : delta = 1 ∨ delta = -1) :
    Number.InRange (k + delta) ↔ k ≠ limit delta := by
  unfold Number.InRange at *
  rcases hdelta with rfl | rfl
  · simp only [limit, if_pos Int.one_pos]
    omega
  · simp only [limit, if_neg (by decide : ¬ (0 : Int) < -1)]
    omega

/-- Any identifier may be stepped, be it a word of the language. -/
theorem parse_step (hn : isIdentifier n = true) :
    parse (n ++ "++".toList) = .ok (.step n 1) ∧ parse (n ++ "--".toList) = .ok (.step n (-1)) := by
  have hnot : ∀ {c : Char}, isIdentifierRest c = false → c ∉ n := fun hc =>
    Text.not_mem_of_all (Text.all_of_isIdentifier hn) hc
  have hsolid : ∀ token : Text, Text.Solid token → Text.Solid (n ++ token) := by
    intro token htoken
    simpa using (Text.solid_of_isIdentifier hn).append htoken []
  have hrest : ∀ token : Text, Text.Solid token → ' ' ∉ token → '=' ∉ token →
      parse (n ++ token) = Language.parse
        [stepping "++".toList 1, stepping "--".toList (-1), literals, reading] (n ++ token) := by
    intro token htoken hspace hsign
    have hline : ' ' ∉ Text.trim (n ++ token) := by
      rw [(hsolid token htoken).2]
      simp [hspace, hnot (show isIdentifierRest ' ' = false by decide)]
    have hequals : '=' ∉ n ++ token := by
      simp [hsign, hnot (show isIdentifierRest '=' = false by decide)]
    rw [parse_of_undeclared fun kind => declaration_declines_of_not_mem hline,
      Language.parse_cons_of_declines (assignment_declines_of_not_mem hequals)]
  have hup : Text.Solid "++".toList := by decide
  have hdown : Text.Solid "--".toList := by decide
  have hnil : ([] : Text).all Text.isBlank = true := rfl
  constructor
  · have htrim : Text.trim (n ++ "++".toList) = n ++ [] ++ "++".toList := by
      rw [(hsolid _ hup).2, List.append_nil]
    rw [hrest _ hup (by decide) (by decide)]
    exact Language.parse_cons_of_taken (stepping_take? (by decide) hn hnil htrim)
  · have htrim : Text.trim (n ++ "--".toList) = n ++ [] ++ "--".toList := by
      rw [(hsolid _ hdown).2, List.append_nil]
    have hdeclines : (stepping "++".toList 1).Declines (n ++ "--".toList) := by
      refine stepping_declines_of_getLast? (c := '+') (by decide) rfl ?_
      rw [htrim, List.getLast?_append]
      exact (by decide : some '-' ≠ some '+')
    rw [hrest _ hdown (by decide) (by decide), Language.parse_cons_of_declines hdeclines]
    exact Language.parse_cons_of_taken (stepping_take? (by decide) hn hnil htrim)

/-- An integer that is not at its limit is stepped. -/
theorem exists_evaluate_step (hs : s.Bounded) (h : parse text = .ok (.step name delta))
    (hk : s.value? name = some (.int k)) (hlimit : k ≠ limit delta) :
    ∃ t, evaluate text s = .ok [] t ∧ t.value? name = some (.int (k + delta)) := by
  obtain ⟨v, hget, hvalue⟩ := Option.map_eq_some_iff.1 hk
  have hkind : v.kind = .int := by
    have htyped := hs.typed hget
    rw [hvalue] at htyped
    exact (Option.some.inj htyped).symm
  have hrange : Number.InRange (k + delta) :=
    (inRange_add_iff (hs.value? hk) (sound_of_parse h)).2 hlimit
  have hfits : (Value.int (k + delta)).kind? = some v.kind := by
    rw [hkind]
    rfl
  obtain ⟨i, hinner, hslot⟩ := Store.get?_eq_some_iff.1 hget
  obtain ⟨t, hassign, hupdates⟩ := Store.assign_updates hinner hslot hfits
  refine ⟨t, ?_, ?_⟩
  · rw [evaluate_of_parse h]
    exact eval_step_eq_ok_iff.2 ⟨rfl, k, hk, hrange, hassign⟩
  · rw [Store.value?, hupdates.get?_of_innermost hinner]
    rfl

/-- It is a step at its limit that overflows, and nothing else. -/
theorem evaluate_overflow_iff (hs : s.Bounded) :
    evaluate text s = .error (.overflow name) t ↔
      t = s ∧ ∃ delta, parse text = .ok (.step name delta) ∧
        s.value? name = some (.int (limit delta)) := by
  constructor
  · intro h
    refine ⟨atomic_evaluate text s _ t h, ?_⟩
    rcases evaluate_eq_error_iff.1 h with ⟨hparse, -⟩ | ⟨expression, hparse, h⟩
    · cases parse_error hparse
    · rcases fails_eval ⟨t, h⟩ with hmisuse | ⟨name, delta, k, rfl, hk, hrange, he⟩
      · cases hmisuse
      · cases he
        rw [inRange_add_iff (hs.value? hk) (sound_of_parse hparse), not_not] at hrange
        exact ⟨delta, hparse, hrange ▸ hk⟩
  · rintro ⟨rfl, delta, hparse, hk⟩
    have hrange : ¬ Number.InRange (limit delta + delta) := by
      rw [inRange_add_iff (hs.value? hk) (sound_of_parse hparse), not_not]
    have hmove : move name (limit delta) delta t = .error (.overflow name) t := if_neg hrange
    rw [evaluate_of_parse hparse]
    refine (Steps.run_bind_of_ok (intOf_eq_ok_iff.2 ⟨rfl, hk⟩)).trans ?_
    exact Steps.run_bind_of_error hmove

/-- A step that is taken back leaves the store as it was, in every frame. -/
theorem evaluate_back (hs : s.Bounded) (h : parse text = .ok (.step name delta))
    (hback : parse back = .ok (.step name (-delta))) (hok : evaluate text s = .ok r t) :
    evaluate back t = .ok [] s := by
  rw [evaluate_of_parse h] at hok
  obtain ⟨-, k, hk, hrange, hassign⟩ := eval_step_eq_ok_iff.1 hok
  obtain ⟨v, hget, hvalue⟩ := Option.map_eq_some_iff.1 hk
  obtain ⟨i, w, hinner, hslot, hupdates⟩ := exists_updates_of_assign hassign
  have hmoved : t.value? name = some (.int (k + delta)) := by
    rw [Store.value?, hupdates.get?_of_innermost hinner]
    rfl
  have hcancel : k + delta + -delta = k := by omega
  have hself : Store.assign name (.int k) s = .ok () s :=
    hvalue ▸ Store.assign_self hget (hs.typed hget)
  rw [evaluate_of_parse hback]
  refine eval_step_eq_ok_iff.2 ⟨rfl, k + delta, hmoved, ?_, ?_⟩
  · rw [hcancel]
    exact hs.value? hk
  · rw [hcancel]
    exact Store.assign_assign hassign hself

/-- **An evaluation does one thing or nothing.** Reach a store by evaluations, pushes and pops,
and evaluate any text in it. A failure, which can only be one of four, leaves the store as it
was. A success has the effect of the expression that the text writes. An overflow is a step of
an integer that is at its limit. Any other step of an integer is by one, up or down, and the
step back makes the store what it was. Every identifier can be stepped both ways. No integer
of the store is out of range. -/
theorem evaluations_are_atomic (hs : s.Reached) (text : Text) :
    (∀ e t, evaluate text s = .error e t → Unevaluated e ∧ t = s) ∧
    (∀ r t, evaluate text s = .ok r t →
      ∃ expression, parse text = .ok expression ∧ Effect s expression r t) ∧
    (∀ name t, evaluate text s = .error (.overflow name) t ↔
      t = s ∧ ∃ delta, parse text = .ok (.step name delta) ∧
        s.value? name = some (.int (limit delta))) ∧
    (∀ name delta, parse text = .ok (.step name delta) →
      (delta = 1 ∨ delta = -1) ∧
      (∀ k, s.value? name = some (.int k) → k ≠ limit delta →
        ∃ t, evaluate text s = .ok [] t ∧ t.value? name = some (.int (k + delta))) ∧
      ∀ back r t, parse back = .ok (.step name (-delta)) → evaluate text s = .ok r t →
        evaluate back t = .ok [] s) ∧
    (∀ n, isIdentifier n = true → parse (n ++ "++".toList) = .ok (.step n 1) ∧
      parse (n ++ "--".toList) = .ok (.step n (-1))) ∧
    ∀ i n v k, s.slot i n = some v → v.value = .int k → Number.InRange k := by
  have hbounded : s.Bounded := hs.bounded
  refine ⟨?_, ?_, ?_, ?_, fun n => parse_step, hbounded.inRange⟩
  · intro e t h
    exact ⟨unevaluated_of_error h, atomic_evaluate text s e t h⟩
  · intro r t h
    obtain ⟨expression, hparse, heval⟩ := evaluate_eq_ok_iff.1 h
    exact ⟨expression, hparse, effect_of_eval heval⟩
  · intro name t
    exact evaluate_overflow_iff hbounded
  · intro name delta hparse
    refine ⟨sound_of_parse hparse, ?_, ?_⟩
    · intro k hk hlimit
      exact exists_evaluate_step hbounded hparse hk hlimit
    · intro back r t hback hok
      exact evaluate_back hbounded hparse hback hok

/-- A store with an integer in the global frame, and a frame over it. -/
def counting : Store := ⟨[[]], [⟨['n'], .int, .int 0⟩]⟩

theorem reached_counting : counting.Reached :=
  .push (.evaluate .empty "int n".toList)

/-- From the frame over it, a counter is stepped up, and back to where it was. -/
theorem evaluations_are_atomic_counting :
    counting.Reached ∧ ∃ t, evaluate "n++".toList counting = .ok [] t ∧
      t.value? ['n'] = some (.int 1) ∧ evaluate "n--".toList t = .ok [] counting := by
  obtain ⟨-, -, -, hsteps, hidentifiers, -⟩ :=
    evaluations_are_atomic reached_counting "n++".toList
  obtain ⟨hup, hdown⟩ := hidentifiers ['n'] rfl
  obtain ⟨-, hnext, hback⟩ := hsteps ['n'] 1 hup
  obtain ⟨t, ht, hvalue⟩ := hnext 0 rfl (by decide)
  exact ⟨reached_counting, t, ht, hvalue, hback _ _ t hdown ht⟩

end Expression

end Stencil
