import Stencil.Proofs.Declaring
import Stencil.Proofs.Discipline
import Stencil.Proofs.Histories

/-!
# Names of variables

A declaration takes every identifier for a name, but not every name can be used. What looks
like a truth value is one, so it is not read as a name; and what looks like the keyword of a
kind starts a declaration. The other names denote their variables, for as long as the frame
lives in which they are declared.

## Main definitions

* `Store.Retains`: the frames are the same, and hold what they held.
* `Expression.Declared`: two names are declared.
* `Expression.IsRead`, `Expression.Takes`: what their use is.
-/
namespace Stencil

open Steps (Within after)

/-! ## What a frame holds -/

namespace Store

variable {s t u : Store} {i : Nat} {n : Text} {k : Kind} {value : Value} {v : Variable}

theorem innermost_top (h : s.slot s.top n = some v) : s.Innermost s.top n := by
  refine ⟨by rw [h]; rfl, ?_⟩
  intro j hj
  exact slot_eq_none_of_depth_le hj

/-- What the innermost frame has is what the name denotes. -/
theorem get?_of_slot_top (h : s.slot s.top n = some v) : s.get? n = some v :=
  get?_eq_some_iff.2 ⟨s.top, innermost_top h, h⟩

/-- A value of the variable's kind is written where the name is found, and nowhere else. -/
theorem assign_updates (hinner : s.Innermost i n) (hv : s.slot i n = some v)
    (hkind : value.kind? = some v.kind) :
    ∃ t, assign n value s = .ok () t ∧ Updates i n { v with value := value } s t := by
  have hget : s.get? n = some v := get?_eq_some_iff.2 ⟨i, hinner, hv⟩
  obtain ⟨t, ht⟩ := exists_assign_iff.2 ⟨v, hget, hkind⟩
  obtain ⟨j, f, g, hinner', hst, hg⟩ := assign_rewrites ht
  obtain ⟨k, hk, hsets⟩ := Frame.sets_of_assign? hg
  obtain rfl : i = j := hinner.unique hinner'
  have hkindAt : k = v.kind := by
    rw [Frame.kind?, ← hst.slot_old, hv] at hk
    exact (Option.some.inj hk).symm
  have hnew : ({ v with value := value } : Variable) = ⟨n, k, value⟩ := by
    rw [hkindAt, ← name_of_slot hv]
  refine ⟨t, ht, ?_⟩
  rw [hnew]
  exact hst.updates hsets

/-- A store has the same frames, which hold the same names with values of the same kinds. -/
structure Retains (s t : Store) : Prop where
  depth : t.depth = s.depth
  holds : ∀ i n k, s.Holds i n k → t.Holds i n k

namespace Retains

theorem refl (s : Store) : Retains s s := ⟨rfl, fun _ _ _ h => h⟩

theorem trans (h : Retains s t) (h' : Retains t u) : Retains s u :=
  ⟨h'.depth.trans h.depth, fun i n k hs => h'.holds i n k (h.holds i n k hs)⟩

theorem top (h : Retains s t) : t.top = s.top := Nat.succ.inj h.depth

end Retains

/-- An operation that neither adds nor drops a frame retains what the frames hold. -/
theorem Operation.retains (op : Operation) (hdepth : (after op.step s).depth = s.depth) :
    Retains s (after op.step s) := by
  rcases eq_or_does op s with hsame | hdoes
  · rw [hsame]
    exact .refl s
  · refine ⟨hdepth, ?_⟩
    intro i n k hs
    exact hdoes.holds (hdepth ▸ hs.lt_depth) hs

theorem retains_declare (name : Text) (kind : Kind) (value : Value) :
    Within Retains (declare name kind value) := fun s =>
  Operation.retains (.declare name kind value) (within_declare name kind value s).depth

theorem retains_assign (name : Text) (value : Value) : Within Retains (assign name value) :=
  fun s => Operation.retains (.assign name value) (within_assign name value s).depth

end Store

/-! ## What texts retain -/

namespace Expression

variable {s s' t : Store} {n m x y r : Text} {kind : Kind} {u v : Variable}

theorem retains_eval (e : Expression) : Within Store.Retains e.eval :=
  within_eval_of .refl .trans Store.retains_declare Store.retains_assign e

theorem retains_evaluate (text : Text) : Within Store.Retains (evaluate text) :=
  within_evaluate .refl retains_eval text

theorem retains_afterTexts (s : Store) (texts : List Text) :
    Store.Retains s (afterTexts s texts) := by
  induction texts generalizing s with
  | nil => exact .refl s
  | cons text texts ih => exact (retains_evaluate text s).trans (ih _)

/-! ## Declaring, reading and assigning -/

/-- The text that declares a name. -/
def declaring (kind : Kind) (n : Text) : Text := kind.name ++ ' ' :: n

/-- The text that assigns the value of a name to another one. -/
def assigning (n m : Text) : Text := n ++ " = ".toList ++ m

/-- Two names are declared one after the other, with the same kind. -/
def Declared (s : Store) (n m : Text) (t : Store) : Prop :=
  ∃ kind r₁ s₁ r₂, evaluate (declaring kind n) s = .ok r₁ s₁ ∧
    evaluate (declaring kind m) s₁ = .ok r₂ t

/-- A name of the innermost frame is evaluated to the text of its value. -/
def IsRead (s : Store) (n : Text) : Prop :=
  ∃ v, s.slot s.top n = some v ∧ evaluate n s = .ok v.value.text s

/-- A name of the innermost frame takes the value of another one, and nothing else changes. -/
def Takes (s : Store) (n m : Text) : Prop :=
  ∃ u v t, s.slot s.top n = some u ∧ s.slot s.top m = some v ∧
    evaluate (assigning n m) s = .ok [] t ∧ Store.Updates s.top n { u with value := v.value } s t

/-- An identifier that is declared is in the innermost frame, with its kind. -/
theorem holds_of_declaring (hn : isIdentifier n = true)
    (h : evaluate (declaring kind n) s = .ok r t) : t.Holds s.top n kind := by
  have hkeyword : Text.sameLetters kind.name kind.name = true := Text.sameLetters_refl _
  have hsolid : Text.Solid (declaring kind n) := by
    simpa [declaring] using (solid_of_kind hkeyword).append (Text.solid_of_isIdentifier hn) [' ']
  have hparse : parse (declaring kind n) = .ok (.declare kind n none) :=
    parse_declaration (u := []) hkeyword rfl hn hsolid.2
  have hkind : s.kindFor s.top n kind = kind := kindFor_of_evaluate hparse h
  have hfits : kind.zero.kind? = some (s.kindFor s.top n kind) := by rw [hkind, kind?_zero]
  obtain ⟨t', ht', hupdates⟩ := evaluate_of_fitting hparse rfl hfits
  rw [h] at ht'
  cases ht'
  rw [hkind] at hupdates
  exact ⟨_, hupdates.slot, rfl, kind?_zero kind⟩

/-- Behind two declarations the innermost frame has both names, with one kind. -/
theorem holds_of_declared (hn : isIdentifier n = true) (hm : isIdentifier m = true)
    (h : Declared s n m t) : ∃ kind, t.Holds t.top n kind ∧ t.Holds t.top m kind := by
  obtain ⟨kind, r₁, s₁, r₂, h₁, h₂⟩ := h
  have hretains₁ : Store.Retains s s₁ := Steps.after_of_ok h₁ ▸ retains_evaluate _ s
  have hretains₂ : Store.Retains s₁ t := Steps.after_of_ok h₂ ▸ retains_evaluate _ s₁
  refine ⟨kind, ?_, ?_⟩
  · rw [hretains₂.top, hretains₁.top]
    exact hretains₂.holds _ _ _ (holds_of_declaring hn h₁)
  · rw [hretains₂.top]
    exact holds_of_declaring hm h₂

theorem isRead_of_slot (hn : Legible n) (hv : s.slot s.top n = some v) : IsRead s n := by
  have hvalue : s.value? n = some v.value := by
    rw [Store.value?, Store.get?_of_slot_top hv, Option.map_some]
  refine ⟨v, hv, ?_⟩
  rw [evaluate_of_parse (parse_name hn hn.solid.2)]
  simp only [eval, hvalue]

theorem takes_of_slots (hn : Plain n) (hm : Legible m) (hu : s.slot s.top n = some u)
    (hv : s.slot s.top m = some v) (hkind : v.value.kind? = some u.kind) : Takes s n m := by
  have hparse : parse (assigning n m) = .ok (.assign n (.variable m)) := by
    have hblank : ([' '] : Text).all Text.isBlank = true := rfl
    have hnil : ([] : Text).all Text.isBlank = true := rfl
    have hwritten := parse_assignment hn hblank hblank hm.side hnil hnil
    simpa [assigning] using hwritten
  have hresolve : s.resolve (.variable m) = .ok v.value := by
    simp [Store.resolve, Store.value?, Store.get?_of_slot_top hv]
  obtain ⟨t, ht, hupdates⟩ := Store.assign_updates (Store.innermost_top hu) hu hkind
  refine ⟨u, v, t, hu, hv, ?_, hupdates⟩
  rw [evaluate_of_parse hparse]
  refine (Steps.run_bind_of_ok (resolve_of_ok hresolve)).trans ?_
  exact Steps.run_bind_of_ok ht

/-- **Names that are declared can be used.** Two names are declared with one kind in a frame,
and then any texts are evaluated in it. Each of the two that is no truth value is read as the
text of its value. Unless it is the keyword of a kind, it takes the value of the other one, if
that is no truth value either. -/
theorem declared_names_are_used (hn : isIdentifier n = true) (hm : isIdentifier m = true)
    (hdeclared : Declared s n m s') (texts : List Text) (ht : afterTexts s' texts = t)
    (hxy : x = n ∧ y = m ∨ x = m ∧ y = n) :
    (Legible x → IsRead t x) ∧ (Plain x → Legible y → Takes t x y) := by
  obtain ⟨kind, hfirst, hsecond⟩ := holds_of_declared hn hm hdeclared
  have hlater : Store.Retains s' t := ht ▸ retains_afterTexts s' texts
  have hholds : ∀ z, z = n ∨ z = m → t.Holds t.top z kind := by
    intro z hz
    rw [hlater.top]
    apply hlater.holds
    rcases hz with rfl | rfl
    · exact hfirst
    · exact hsecond
  obtain ⟨u, hu, hkind, -⟩ := hholds x (hxy.imp And.left And.left)
  obtain ⟨v, hv, -, hvalue⟩ := hholds y (hxy.symm.imp And.right And.right)
  refine ⟨?_, ?_⟩
  · intro hx
    exact isRead_of_slot hx hu
  · intro hx hy
    exact takes_of_slots hx hy hu hv (hkind ▸ hvalue)

/-- Two integers, of which one is counted up and the other one takes its value. -/
theorem declared_counters_are_used :
    ∃ s, Declared .empty ['a'] ['b'] s ∧ IsRead (afterTexts s ["b++".toList]) ['a'] ∧
      Takes (afterTexts s ["b++".toList]) ['a'] ['b'] := by
  have hdeclared : Declared .empty ['a'] ['b']
      ⟨[], [⟨['a'], .int, .int 0⟩, ⟨['b'], .int, .int 0⟩]⟩ :=
    ⟨.int, _, _, _, rfl, rfl⟩
  have hused := declared_names_are_used rfl rfl hdeclared ["b++".toList] rfl (.inl ⟨rfl, rfl⟩)
  have ha : Plain ['a'] := ⟨rfl, by decide⟩
  have hb : Legible ['b'] := ⟨rfl, by decide⟩
  exact ⟨_, hdeclared, hused.1 ha.legible, hused.2 ha hb⟩

/-! ### Names that are words of the language -/

/-- A truth value in front of an equals sign is no name to assign to. -/
theorem parse_truth_target :
    parse "true = x".toList = .error (.unknownCommand "true = x".toList) := by
  have hparams : (Form.separated ['='] .values).read? "true = x".toList =
      some [.literal (.bool true), .variable ['x']] :=
    Form.read?_pair (a := "true ".toList) (b := " x".toList) (by decide) (by decide) rfl rfl
  have hassignment : assignment.Declines "true = x".toList := by
    refine .of_read? fun params hread => ?_
    rw [show assignment.form = .separated ['='] .values from rfl, hparams] at hread
    obtain rfl := Option.some.inj hread
    rfl
  have hdeclaration : ∀ kind, (declaration kind).Declines "true = x".toList := by
    intro kind
    apply declaration_declines_of_leadingWord
    cases kind <;> decide
  rw [parse_of_undeclared hdeclaration, Language.parse_cons_of_declines hassignment]
  rfl

/-- A truth value behind an equals sign is no name to assign from. -/
theorem parse_truth_source :
    parse "x = true".toList = .ok (.assign ['x'] (.literal (.bool true))) := by
  have hx : Plain ['x'] := ⟨rfl, by decide⟩
  have htruth : Param.Written (.literal (.bool true)) "true".toList := .bool (by decide)
  have hblank : ([' '] : Text).all Text.isBlank = true := rfl
  have hnil : ([] : Text).all Text.isBlank = true := rfl
  simpa using parse_assign hx hblank hblank htruth hnil hnil

/-- The keyword of a kind in front of an equals sign starts a declaration, of the name behind
the sign. -/
theorem parse_keyword_target : parse "int = x".toList = .ok (.declare .int ['x'] none) := by
  have hfragments : Form.fragments ['='] "= x".toList = [['x']] := by
    rw [Form.fragments, show "= x".toList = [] ++ '=' :: " x".toList from rfl,
      Text.split_singleton_append (by decide), Text.split_singleton_of_not_mem (by decide)]
    rfl
  have hread : (Form.separated ['='] .values).read? "= x".toList = some [.variable ['x']] := by
    have haccepts : (Form.separated ['='] .values).accepts "= x".toList = true := by
      rw [Form.accepts, hfragments]
      rfl
    rw [Form.read?_eq_some_iff, Form.parse, if_pos haccepts, hfragments]
    rfl
  have hkeyword : Text.sameLetters "int".toList (Kind.name .int) = true := by decide
  refine parse_of_declaration (r := "= x".toList) hkeyword rfl ?_
  have hbuild : ofDeclaration .int [.variable ['x']] = some (.declare .int ['x'] none) := rfl
  exact declaration_take? (r := "= x".toList) hkeyword rfl hbuild hread

/-- The store in which two names are declared as truth values. -/
def truths (n m : Text) : Store := ⟨[], [⟨n, .bool, .bool false⟩, ⟨m, .bool, .bool false⟩]⟩

/-- Not every name that is declared can be used: a truth value is read as itself, as a text
and as what is assigned, and neither it nor the keyword of a kind is assigned to. -/
theorem not_all_declared_names_are_used :
    (Declared .empty "true".toList ['x'] (truths "true".toList ['x']) ∧
      ¬ IsRead (truths "true".toList ['x']) "true".toList ∧
      ¬ Takes (truths "true".toList ['x']) "true".toList ['x']) ∧
    (Declared .empty ['x'] "true".toList (truths ['x'] "true".toList) ∧
      ¬ Takes (truths ['x'] "true".toList) ['x'] "true".toList) ∧
    Declared .empty "int".toList ['x'] (truths "int".toList ['x']) ∧
      ¬ Takes (truths "int".toList ['x']) "int".toList ['x'] := by
  refine ⟨⟨⟨.bool, _, _, _, rfl, rfl⟩, ?_, ?_⟩, ⟨⟨.bool, _, _, _, rfl, rfl⟩, ?_⟩,
    ⟨.bool, _, _, _, rfl, rfl⟩, ?_⟩
  · rintro ⟨v, hv, h⟩
    obtain rfl := Option.some.inj hv
    cases h
  · rintro ⟨u, v, t, -, -, h, -⟩
    have hactual : evaluate (assigning "true".toList ['x']) (truths "true".toList ['x']) =
        .error (.unknownCommand "true = x".toList) (truths "true".toList ['x']) := by
      rw [evaluate, show assigning "true".toList ['x'] = "true = x".toList from rfl,
        parse_truth_target]
    rw [hactual] at h
    cases h
  · rintro ⟨u, v, t, hu, hv, h, hupdates⟩
    have hactual : evaluate (assigning ['x'] "true".toList) (truths ['x'] "true".toList) =
        .ok [] ⟨[], [⟨['x'], .bool, .bool true⟩, ⟨"true".toList, .bool, .bool false⟩]⟩ :=
      evaluate_of_parse parse_truth_source
    rw [hactual] at h
    cases h
    obtain rfl := Option.some.inj hu
    obtain rfl := Option.some.inj hv
    cases hupdates.slot
  · rintro ⟨u, v, t, -, -, h, -⟩
    have hactual : evaluate (assigning "int".toList ['x']) (truths "int".toList ['x']) =
        .error (.kindMismatch ['x'] .bool .int) (truths "int".toList ['x']) :=
      evaluate_of_parse parse_keyword_target
    rw [hactual] at h
    cases h

end Expression
end Stencil
