import Stencil.Proofs.Choosing
import Stencil.Proofs.Detecting

/-!
# What the constructs of expressions decline

A declaration needs its keyword and a space in front, an assignment an equals sign with a
name before it, a step its sign at the end behind a name, and what is left is a literal or
a name. A line in which one of these is missing is declined by the construct, and goes on
to the ones behind it.
-/
namespace Stencil

open Text (isBlank)

namespace Form

variable {line token word rest a b : Text} {params : List Param} {p q : Param} {c : Char}

/-! ## Lines cut in two -/

/-- A keyword at the front of a line needs a space behind it. -/
theorem afterFront?_keyword_eq_some_iff :
    afterFront? (word ++ [' ']) line = some rest ↔
      ∃ k r, Text.trim line = k ++ ' ' :: r ∧ Text.sameLetters k word = true ∧
        Text.trim r = rest := by
  rw [afterFront?, Option.map_eq_some_iff]
  simp only [Text.dropFrontAnyCase?_keyword_eq_some_iff]
  constructor
  · rintro ⟨r, ⟨k, hk, h⟩, hr⟩
    exact ⟨k, r, hk, h, hr⟩
  · rintro ⟨k, r, hk, h, hr⟩
    exact ⟨r, ⟨k, hk, h⟩, hr⟩

theorem beforeBack?_symbols_eq_some_iff (ht : token.any Text.isLetter = false) :
    beforeBack? token line = some rest ↔ ∃ r, Text.trim line = r ++ token ∧ Text.trim r = rest := by
  rw [beforeBack?, Option.map_eq_some_iff]
  simp only [Text.dropBackAnyCase?_symbols_eq_some_iff ht]

/-- A line with the token in one place falls into the texts on its two sides. -/
theorem fragments_pair (ha : c ∉ a) (hb : c ∉ b) (hane : Text.trim a ≠ [])
    (hbne : Text.trim b ≠ []) : fragments [c] (a ++ c :: b) = [Text.trim a, Text.trim b] := by
  rw [fragments, Text.split_singleton_append ha, Text.split_singleton_of_not_mem hb]
  simp [hane, hbne]

/-- The first fragment starts as the line does, unless the line starts with the token. -/
theorem exists_fragments_cons {d : Char} (hblank : isBlank c = false)
    (h : (Text.trim line).head? = some d) (hd : d ≠ c) :
    ∃ part parts, fragments [c] line = part :: parts ∧ part.head? = some d := by
  by_cases hc : c ∈ line
  · obtain ⟨a, b, rfl, ha⟩ := List.eq_append_cons_of_mem hc
    have hhead : (Text.trim a).head? = some d := by
      rw [Text.head?_trim] at h ⊢
      rw [Text.trimStart, List.dropWhile_append] at h
      split at h
      · rw [List.dropWhile_cons_of_neg (by simp [hblank])] at h
        exact absurd (Option.some.inj h).symm hd
      · next hne =>
        rwa [List.head?_append_of_ne_nil _ (by simpa using hne)] at h
    have hne : Text.trim a ≠ [] := by rintro hnil; simp [hnil] at hhead
    refine ⟨Text.trim a, fragments [c] b, ?_, hhead⟩
    rw [fragments, Text.split_singleton_append ha]
    simp [hne, fragments]
  · have hne : Text.trim line ≠ [] := by rintro hnil; simp [hnil] at h
    refine ⟨Text.trim line, [], ?_, h⟩
    rw [fragments, Text.split_singleton_of_not_mem hc]
    simp [hne]

/-- Two values with a token between them are read one after the other. -/
theorem read?_pair (ha : c ∉ a) (hb : c ∉ b) (hp : values.read? (Text.trim a) = some [p])
    (hq : values.read? (Text.trim b) = some [q]) :
    (separated [c] values).read? (a ++ c :: b) = some [p, q] := by
  have hne : ∀ {t : Text} {r : Param}, values.read? (Text.trim t) = some [r] →
      Text.trim t ≠ [] := by
    intro t r hr hnil
    rw [hnil] at hr
    cases hr
  have hfragments : fragments [c] (a ++ c :: b) = [Text.trim a, Text.trim b] :=
    fragments_pair ha hb (hne hp) (hne hq)
  have haccepts : (separated [c] values).accepts (a ++ c :: b) = true := by
    have hoccurs : Text.occurs [c] (a ++ c :: b) = true := Text.occurs_singleton_iff.2 (by simp)
    rw [accepts, hfragments, hoccurs]
    simp [← isSome_read?, hp, hq]
  rw [read?_eq_some_iff, parse, if_pos haccepts, hfragments, parseAll, read?_eq_some_iff.1 hp,
    parseAll, read?_eq_some_iff.1 hq]
  rfl

theorem read?_separated_of_not_mem (h : c ∉ line) : (separated [c] values).read? line = none := by
  have hoccurs : Text.occurs [c] line = false := by
    rw [← Bool.not_eq_true, Text.occurs_singleton_iff]
    exact h
  refine read?_of_not_accepts ?_
  rw [accepts, hoccurs, Bool.and_false, Bool.false_and, Bool.false_and]

/-- A value is one parameter. -/
theorem exists_of_read?_values (h : values.read? line = some params) : ∃ p, params = [p] := by
  rw [read?_values, read?_literals, read?_integer, read?_double, read?_bool, read?_quoted,
    read?_identifier] at h
  simp only [Option.or_eq_some_iff, Option.map_eq_some_iff] at h
  grind

theorem forall₂_of_parseAll {parts : List Text}
    (h : parseAll (fun part => values.parse part) parts = .ok params) :
    List.Forall₂ (fun part p => values.read? part = some [p]) parts params := by
  induction parts generalizing params with
  | nil =>
    cases h
    exact .nil
  | cons part parts ih =>
    rw [parseAll] at h
    obtain ⟨first, hfirst, h⟩ := Steps.bind_eq_ok_iff.1 h
    obtain ⟨more, hmore, h⟩ := Steps.bind_eq_ok_iff.1 h
    cases h
    have hread : values.read? part = some first := read?_eq_some_iff.2 hfirst
    obtain ⟨p, rfl⟩ := exists_of_read?_values hread
    exact .cons hread (ih hmore)

/-- Several values are read from the fragments of the line, one from each. -/
theorem forall₂_of_read?_separated (h : (separated [c] values).read? line = some params) :
    List.Forall₂ (fun part p => values.read? part = some [p]) (fragments [c] line) params := by
  rw [read?_eq_some_iff, parse] at h
  split at h
  · exact forall₂_of_parseAll h
  · cases h

/-- The first of several values is a literal when the line starts with a quote. -/
theorem exists_literal_of_read?_separated
    (h : (separated ['='] values).read? line = some params)
    (hquote : (Text.trim line).head? = some '"') : ∃ v more, params = .literal v :: more := by
  obtain ⟨part, parts, hfragments, hpart⟩ :=
    exists_fragments_cons (c := '=') rfl hquote (by decide)
  have hvalues := forall₂_of_read?_separated h
  rw [hfragments] at hvalues
  cases hvalues with
  | @cons _ p _ more hfirst _ =>
    obtain ⟨v, hv⟩ := exists_literal_of_quote hfirst hpart
    obtain rfl : p = .literal v := (List.cons.inj hv).1
    exact ⟨v, more, rfl⟩

end Form

/-! ## What the constructs decline -/

namespace Construct

variable {α : Type} {c : Construct α} {line : Text} {params : List Param} {a : α}

/-- A construct takes a line when its rule makes a command of what the form reads. -/
theorem take?_eq_some_iff : c.take? line = .ok (some a) ↔
    ∃ params, c.form.read? line = some params ∧ c.build params = .ok (some a) := by
  constructor
  · intro h
    cases haccepts : c.accepts line with
    | false =>
      rw [take?_eq_none_of_not_accepts haccepts] at h
      cases h
    | true =>
      obtain ⟨params, hparams⟩ := c.form.parse_of_accepts haccepts
      rw [take?_eq_build haccepts hparams] at h
      exact ⟨params, Form.read?_eq_some_iff.2 hparams, h⟩
  · rintro ⟨params, hparams, hbuild⟩
    have haccepts : c.accepts line = true := by rw [accepts, ← Form.isSome_read?, hparams]; rfl
    rw [take?_eq_build haccepts (Form.read?_eq_some_iff.1 hparams), hbuild]

theorem take?_of_read? (h : c.form.read? line = some params)
    (hbuild : c.build params = .ok (some a)) : c.take? line = .ok (some a) :=
  take?_eq_some_iff.2 ⟨params, h, hbuild⟩

theorem Declines.of_read?
    (h : ∀ params, c.form.read? line = some params → c.build params = .ok none) :
    c.Declines line := by
  cases haccepts : c.accepts line with
  | false => exact .inl haccepts
  | true =>
    obtain ⟨params, hparams⟩ := c.form.parse_of_accepts haccepts
    exact .inr ⟨params, hparams, h params (Form.read?_eq_some_iff.2 hparams)⟩

theorem Declines.of_read?_eq_none (h : c.form.read? line = none) : c.Declines line :=
  .of_read? fun params hparams => by rw [h] at hparams; cases hparams

end Construct

namespace Expression

variable {kind : Kind} {delta : Int} {line token : Text} {c : Char}

theorem all_isLetter_of_kind {k : Text} (h : Text.sameLetters k kind.name = true) :
    k.all Text.isLetter = true :=
  Text.all_isLetter_of_sameLetters h (by cases kind <;> decide)

/-- A declaration starts with its keyword and a space. -/
theorem declaration_declines
    (h : ∀ k r, Text.trim line = k ++ ' ' :: r → Text.sameLetters k kind.name = false) :
    (declaration kind).Declines line := by
  refine .of_read?_eq_none (Form.read?_leading.trans (Option.bind_eq_none_iff.2 ?_))
  intro rest hrest
  obtain ⟨k, r, hline, hk, -⟩ := Form.afterFront?_keyword_eq_some_iff.1 hrest
  rw [h k r hline] at hk
  cases hk

theorem declaration_declines_of_not_mem (h : ' ' ∉ Text.trim line) :
    (declaration kind).Declines line := by
  refine declaration_declines fun k r hline => ?_
  simp [hline] at h

theorem leadingWord_keyword {k r : Text} (h : k.all Text.isLetter = true) :
    Text.leadingWord (k ++ ' ' :: r) = k := by
  refine Text.leadingWord_append (List.all_eq_true.2 fun c hc => ?_) fun c hc => ?_
  · exact Text.isIdentifierRest_of_isLetter (List.all_eq_true.1 h c hc)
  · obtain rfl : ' ' = c := by simpa using hc
    decide

/-- The keyword of a declaration is the word that the line starts with. -/
theorem declaration_declines_of_leadingWord
    (h : Text.sameLetters (Text.leadingWord (Text.trim line)) kind.name = false) :
    (declaration kind).Declines line := by
  refine declaration_declines fun k r hline => ?_
  rw [← Bool.not_eq_true]
  intro hk
  rw [hline, leadingWord_keyword (all_isLetter_of_kind hk), hk] at h
  cases h

theorem assignment_declines_of_not_mem (h : '=' ∉ line) : assignment.Declines line :=
  .of_read?_eq_none (Form.read?_separated_of_not_mem h)

/-- What is assigned to must be a name, and a text that starts with a quote is not. -/
theorem assignment_declines_of_quote (h : (Text.trim line).head? = some '"') :
    assignment.Declines line := by
  refine .of_read? fun params hparams => ?_
  obtain ⟨v, more, rfl⟩ := Form.exists_literal_of_read?_separated hparams h
  rfl

/-- A step has a name in front of its token. -/
theorem stepping_declines (ht : token.any Text.isLetter = false)
    (h : ∀ r, Text.trim line = r ++ token → isIdentifier (Text.trim r) = false) :
    (stepping token delta).Declines line := by
  refine .of_read?_eq_none (Form.read?_trailing.trans (Option.bind_eq_none_iff.2 ?_))
  intro rest hrest
  obtain ⟨r, hline, rfl⟩ := (Form.beforeBack?_symbols_eq_some_iff ht).1 hrest
  rw [Form.read?_identifier, Text.trim_trim, h r hline]
  rfl

/-- A step ends as its token does. -/
theorem stepping_declines_of_getLast? (ht : token.any Text.isLetter = false)
    (hc : token.getLast? = some c) (h : (Text.trim line).getLast? ≠ some c) :
    (stepping token delta).Declines line := by
  refine stepping_declines ht fun r hline => absurd ?_ h
  rw [hline, List.getLast?_append, hc]
  rfl

theorem stepping_declines_of_not_mem (ht : token.any Text.isLetter = false) (hc : c ∈ token)
    (h : c ∉ Text.trim line) : (stepping token delta).Declines line := by
  refine stepping_declines ht fun r hline => absurd ?_ h
  simp [hline, hc]

theorem literals_read? (line : Text) : literals.form.read? line =
    (Form.quoted.read? line).or ((Form.verbatim .literals).read? line) := by
  rw [show literals.form = .firstOf [.quoted, .verbatim .literals] from rfl,
    Form.read?_firstOf_cons, Form.read?_firstOf_cons, Form.read?_firstOf_nil, Option.or_none]

theorem literals_declines (h : Form.literals.read? line = none) : literals.Declines line := by
  have hquoted : Form.quoted? line = none := (Form.read?_literals_eq_none_iff.1 h).2.2.2
  refine .of_read?_eq_none ?_
  rw [literals_read?, Form.read?_verbatim, h, Form.read?_quoted, hquoted]
  rfl

theorem reading_declines (h : isIdentifier (Text.trim line) = false) : reading.Declines line := by
  refine .of_read?_eq_none ((Form.read?_identifier line).trans ?_)
  rw [h]
  rfl

end Expression

end Stencil
