import Stencil.Proofs.Naming
import Stencil.Proofs.Paths

/-!
# Quoted texts as values

A text in quotes stands for itself, whatever it holds, as long as it stands alone. As a value
that is declared or assigned it stands behind an equals sign, and the line is cut at its equals
signs before anything in it is taken for a quoted text. So a text with an equals sign in it is
cut in two there, the line has too many fragments, and no construct takes it.

## Main definitions

* `Expression.quoting`: a text in quotes.
-/
namespace Stencil

open Text (isBlank)

/-! ## Fragments -/

namespace Form

variable {line a b : Text} {c d : Char}

theorem fragments_append_cons (a b : Text) :
    fragments [c] (a ++ c :: b) = fragments [c] a ++ fragments [c] b := by
  simp [fragments, Text.split_append_cons]

/-- What is neither blank nor the token is in some fragment. -/
theorem fragments_ne_nil (hd : d ∈ line) (hblank : isBlank d = false) (hne : d ≠ c) :
    fragments [c] line ≠ [] := by
  induction line using Text.parts_induction (c := c) with
  | last t ht =>
    have htrim : Text.trim t ≠ [] := List.ne_nil_of_mem ((Text.mem_trim_iff hblank).2 hd)
    simp [fragments, Text.split_singleton_of_not_mem ht, htrim]
  | more t rest ht ih =>
    rw [fragments_append_cons]
    rw [List.mem_append, List.mem_cons] at hd
    rcases hd with hd | hd | hd
    · have htrim : Text.trim t ≠ [] := List.ne_nil_of_mem ((Text.mem_trim_iff hblank).2 hd)
      simp [fragments, Text.split_singleton_of_not_mem ht, htrim]
    · exact absurd hd hne
    · simp [ih hd]

end Form

namespace Store

variable {s t : Store} {i : Nat} {n : Text} {v : Variable}

/-- What is written where a name is found is found there again. -/
theorem Updates.get?_of_innermost (h : Updates i n v s t) (hinner : s.Innermost i n) :
    t.get? n = some v := by
  refine get?_eq_some_iff.2 ⟨i, ⟨?_, ?_⟩, h.slot⟩
  · rw [h.slot]
    rfl
  · intro j hj
    rw [h.other j n (.inl (by omega))]
    exact hinner.first j hj

end Store

namespace Expression

variable {n s line k r : Text} {kind : Kind} {params : List Param} {st st' : Store} {v : Variable}

theorem ofAssignment_eq_none (h : 3 ≤ params.length) : ofAssignment params = none := by
  unfold ofAssignment
  split
  · simp at h
  · rfl

theorem ofDeclaration_eq_none (h : 3 ≤ params.length) : ofDeclaration kind params = none := by
  unfold ofDeclaration
  split
  · simp at h
  · simp at h
  · rfl

/-! ## Lines with two equals signs -/

theorem assignment_declines_of_length (h : 3 ≤ (Form.fragments ['='] line).length) :
    assignment.Declines line := by
  refine .of_read? fun params hparams => ?_
  rw [(Form.forall₂_of_read?_separated hparams).length_eq] at h
  exact congrArg Except.ok (ofAssignment_eq_none h)

/-- A declaration declines a line whose rest behind the keyword has three fragments. -/
theorem declaration_declines_of_length (hline : Text.trim line = k ++ ' ' :: r)
    (hk : Text.sameLetters k kind.name = true) (hsign : '=' ∈ r)
    (h : 3 ≤ (Form.fragments ['='] (Text.trim r)).length) : (declaration kind).Declines line := by
  have hfront : Form.afterFront? (kind.name ++ [' ']) line = some (Text.trim r) :=
    Form.afterFront?_keyword_eq_some_iff.2 ⟨k, r, hline, hk, rfl⟩
  have hname : Form.identifier.read? (Text.trim r) = none := by
    have hmem : '=' ∈ Text.trim r := (Text.mem_trim_iff rfl).2 hsign
    rw [Form.read?_identifier, Text.trim_trim,
      Text.isIdentifier_eq_false_of_mem hmem (by decide)]
    rfl
  refine .of_read? fun params hparams => ?_
  have hread := Form.read?_leading.symm.trans hparams
  rw [hfront, Option.bind_some, Form.read?_firstOf_cons, hname, Option.none_or,
    Form.read?_firstOf_cons, Form.read?_firstOf_nil, Option.or_none] at hread
  rw [(Form.forall₂_of_read?_separated hread).length_eq] at h
  exact congrArg Except.ok (ofDeclaration_eq_none h)

/-- What no declaration takes, has three fragments and ends in a quote but does not start with
one is no expression. -/
theorem parse_of_length (hdeclaration : ∀ kind, (declaration kind).Declines line)
    (hlength : 3 ≤ (Form.fragments ['='] line).length)
    (hhead : (Text.trim line).head? ≠ some '"') (hlast : (Text.trim line).getLast? = some '"') :
    parse line = .error (.unknownCommand (Text.trim line)) := by
  have hquote : '"' ∈ Text.trim line := List.mem_of_getLast? hlast
  have hquoted : Form.quoted? line = none := by
    rw [Option.eq_none_iff_forall_ne_some]
    intro s hs
    rw [Form.quoted?_eq_some_iff.1 hs] at hhead
    exact hhead rfl
  have hliterals : Form.literals.read? line = none :=
    Form.read?_literals_eq_none_iff.2 ⟨Form.integer?_eq_none_of_mem hquote (by decide),
      Form.double?_eq_none_of_mem hquote (by decide), Form.bool?_eq_none_of_mem hquote (by decide),
      hquoted⟩
  rw [parse_of_undeclared hdeclaration]
  apply Language.parse_of_declines
  simp only [List.forall_mem_cons]
  refine ⟨assignment_declines_of_length hlength, ?_, ?_, literals_declines hliterals, ?_, by simp⟩
  · exact stepping_declines_of_getLast? (c := '+') (by decide) rfl (by simp [hlast])
  · exact stepping_declines_of_getLast? (c := '-') (by decide) rfl (by simp [hlast])
  · exact reading_declines (Text.isIdentifier_eq_false_of_mem hquote (by decide))

/-! ## Quoted texts -/

/-- A text in quotes. -/
def quoting (s : Text) : Text := '"' :: (s ++ ['"'])

theorem evaluate_quoting (s : Text) (st : Store) : evaluate (quoting s) st = .ok s st := by
  have hparse : parse (quoting s) = .ok (.literal s) := parse_quoted (solid_quoted s).2
  rw [evaluate_of_parse hparse]
  rfl

theorem getLast?_quoting (front s : Text) : (front ++ quoting s).getLast? = some '"' := by
  rw [quoting, ← List.cons_append, ← List.append_assoc, List.getLast?_append]
  rfl

theorem solid_assigning (hn : Plain n) (s : Text) : Text.Solid (assigning n (quoting s)) := by
  simpa [assigning, quoting] using hn.solid.append (solid_quoted s) " = ".toList

theorem solid_declaring (hn : Plain n) (s : Text) :
    Text.Solid (declaring kind (assigning n (quoting s))) := by
  have hkeyword : Text.sameLetters kind.name kind.name = true := Text.sameLetters_refl _
  simpa [declaring] using (solid_of_kind hkeyword).append (solid_assigning hn s) [' ']

/-- There is no quote in what stands in front of the equals sign. -/
theorem head?_ne_quote (hn : Plain n) (t : Text) : (assigning n t).head? ≠ some '"' := by
  obtain ⟨c, m, hm, hc⟩ := Text.exists_head_of_isIdentifier hn.identifier
  simp only [assigning, hm, List.cons_append, List.head?_cons, ne_eq, Option.some.injEq]
  rintro rfl
  exact absurd hc (by decide)

/-- The name, what is before the equals sign in the quotes, and what is behind it. -/
theorem three_le_length_fragments (hn : Plain n) (hs : '=' ∈ s) (front : Text) :
    3 ≤ (Form.fragments ['='] (front ++ assigning n (quoting s))).length := by
  obtain ⟨a, b, rfl, -⟩ := List.eq_append_cons_of_mem hs
  have hsplit : front ++ assigning n (quoting (a ++ '=' :: b)) =
      (front ++ n ++ [' ']) ++ '=' :: ((' ' :: '"' :: a) ++ '=' :: (b ++ ['"'])) := by
    simp [assigning, quoting]
  obtain ⟨c, m, hm, -⟩ := Text.exists_head_of_isIdentifier hn.identifier
  have hc : isIdentifierRest c = true :=
    List.all_eq_true.1 (Text.all_of_isIdentifier hn.identifier) c (by simp [hm])
  have hcsign : c ≠ '=' := by
    rintro rfl
    exact absurd hc (by decide)
  have hname : Form.fragments ['='] (front ++ n ++ [' ']) ≠ [] :=
    Form.fragments_ne_nil (d := c) (by simp [hm]) (Text.isBlank_of_isIdentifierRest hc) hcsign
  have hbefore : Form.fragments ['='] (' ' :: '"' :: a) ≠ [] :=
    Form.fragments_ne_nil (d := '"') (by simp) rfl (by decide)
  have hbehind : Form.fragments ['='] (b ++ ['"']) ≠ [] :=
    Form.fragments_ne_nil (d := '"') (by simp) rfl (by decide)
  rw [hsplit, Form.fragments_append_cons, Form.fragments_append_cons]
  have h₁ := List.length_pos_iff.2 hname
  have h₂ := List.length_pos_iff.2 hbefore
  have h₃ := List.length_pos_iff.2 hbehind
  simp only [List.length_append]
  omega

/-! ### With an equals sign in them -/

theorem parse_assigning_of_mem (hn : Plain n) (hs : '=' ∈ s) :
    parse (assigning n (quoting s)) = .error (.unknownCommand (assigning n (quoting s))) := by
  have htrim : Text.trim (assigning n (quoting s)) = assigning n (quoting s) :=
    (solid_assigning hn s).2
  have hsign : ∀ c, ("= ".toList ++ quoting s).head? = some c → isIdentifierRest c = false := by
    intro c hc
    obtain rfl : '=' = c := by simpa using hc
    decide
  have hline : Text.trim (assigning n (quoting s)) = n ++ [' '] ++ ("= ".toList ++ quoting s) := by
    rw [htrim]
    simp [assigning]
  have hparse := parse_of_length (declarations_decline_of_name hn rfl hsign hline)
    (three_le_length_fragments hn hs [])
  rw [htrim] at hparse
  exact hparse (head?_ne_quote hn _) (getLast?_quoting _ s)

theorem parse_declaring_of_mem (hn : Plain n) (hs : '=' ∈ s) :
    parse (declaring .string (assigning n (quoting s))) =
      .error (.unknownCommand (declaring .string (assigning n (quoting s)))) := by
  have htrim : Text.trim (declaring .string (assigning n (quoting s))) =
      declaring .string (assigning n (quoting s)) := (solid_declaring hn s).2
  have hkeyword : Text.sameLetters (Kind.name .string) (Kind.name .string) = true :=
    Text.sameLetters_refl _
  have hrest : 3 ≤ (Form.fragments ['='] (Text.trim (assigning n (quoting s)))).length := by
    rw [(solid_assigning hn s).2]
    exact three_le_length_fragments hn hs []
  have hsign : '=' ∈ assigning n (quoting s) := by simp [assigning]
  have hdeclaration : ∀ kind, (declaration kind).Declines
      (declaring .string (assigning n (quoting s))) := by
    intro kind
    by_cases hkind : kind = .string
    · subst hkind
      exact declaration_declines_of_length htrim hkeyword hsign hrest
    · apply declaration_declines_of_leadingWord
      rw [htrim, declaring, leadingWord_keyword (by decide), ← Bool.not_eq_true]
      intro hk
      exact hkind (kind_unique hk hkeyword)
  have hfront : declaring .string (assigning n (quoting s)) =
      "string ".toList ++ assigning n (quoting s) := rfl
  have hlast : (declaring .string (assigning n (quoting s))).getLast? = some '"' := by
    rw [hfront, assigning, ← List.append_assoc, getLast?_quoting]
  have hlength := three_le_length_fragments hn hs "string ".toList
  rw [← hfront] at hlength
  have hparse := parse_of_length hdeclaration hlength
  rw [htrim] at hparse
  exact hparse (by simp [hfront]) hlast

/-! ### Without one -/

theorem written_quoting (hs : '=' ∉ s) : Param.Written (.literal (.string s)) (quoting s) :=
  .quoted s hs

theorem parse_assigning_of_not_mem (hn : Plain n) (hs : '=' ∉ s) :
    parse (assigning n (quoting s)) = .ok (.assign n (.literal (.string s))) := by
  have hblank : ([' '] : Text).all isBlank = true := rfl
  have hnil : ([] : Text).all isBlank = true := rfl
  simpa [assigning] using parse_assign hn hblank hblank (written_quoting hs) hnil hnil

theorem parse_declaring_of_not_mem (hn : Plain n) (hs : '=' ∉ s) :
    parse (declaring .string (assigning n (quoting s))) =
      .ok (.declare .string n (some (.literal (.string s)))) := by
  have hblank : ([' '] : Text).all isBlank = true := rfl
  have hkeyword : Text.sameLetters (Kind.name .string) (Kind.name .string) = true :=
    Text.sameLetters_refl _
  refine parse_initialise (v := []) hkeyword rfl hn hblank hblank (written_quoting hs) ?_
  rw [(solid_declaring hn s).2]
  simp [declaring, assigning]

theorem evaluate_name (hn : Plain n) (hv : st.get? n = some v) :
    evaluate n st = .ok v.value.text st := by
  rw [evaluate_of_parse (parse_read hn hn.solid.2)]
  simp [eval, Store.value?, hv]

/-- A declaration of a new name, or of a string that is there, leaves the text to be read. -/
theorem evaluate_declaring (hn : Plain n) (hs : '=' ∉ s)
    (hkind : st.kindFor st.top n .string = .string) :
    ∃ st', evaluate (declaring .string (assigning n (quoting s))) st = .ok [] st' ∧
      evaluate n st' = .ok s st' := by
  have hfits : (Value.string s).kind? = some (st.kindFor st.top n .string) := by
    rw [hkind]
    rfl
  obtain ⟨st', hdeclared, hupdates⟩ :=
    evaluate_of_fitting (parse_declaring_of_not_mem hn hs) rfl hfits
  refine ⟨st', hdeclared, ?_⟩
  have htop : st'.top = st.top := Nat.succ.inj hupdates.depth
  exact evaluate_name hn (Store.get?_of_slot_top (htop ▸ hupdates.slot))

/-- An assignment to a string leaves the text to be read. -/
theorem evaluate_assigning (hn : Plain n) (hs : '=' ∉ s) (hv : st.get? n = some v)
    (hkind : v.kind = .string) :
    ∃ st', evaluate (assigning n (quoting s)) st = .ok [] st' ∧ evaluate n st' = .ok s st' := by
  obtain ⟨i, hinner, hslot⟩ := Store.get?_eq_some_iff.1 hv
  have hfits : (Value.string s).kind? = some v.kind := by
    rw [hkind]
    rfl
  obtain ⟨st', hassigned, hupdates⟩ := Store.assign_updates hinner hslot hfits
  refine ⟨st', ?_, ?_⟩
  · rw [evaluate_of_parse (parse_assigning_of_not_mem hn hs)]
    exact Steps.run_bind_of_ok hassigned
  · exact evaluate_name hn (hupdates.get?_of_innermost hinner)

/-- **A quoted text is a value unless it has an equals sign in it.** Alone it is evaluated to
itself, whatever it holds. Without an equals sign it is declared as a string, and assigned to
one, and can be read afterwards. With an equals sign in it neither the declaration nor the
assignment is an expression, for any name. -/
theorem quoted_texts_are_values (hn : Plain n) (s : Text) :
    (∀ st, evaluate (quoting s) st = .ok s st) ∧
    ('=' ∉ s →
      parse (declaring .string (assigning n (quoting s))) =
        .ok (.declare .string n (some (.literal (.string s)))) ∧
      parse (assigning n (quoting s)) = .ok (.assign n (.literal (.string s))) ∧
      (∀ st, st.kindFor st.top n .string = .string →
        ∃ st', evaluate (declaring .string (assigning n (quoting s))) st = .ok [] st' ∧
          evaluate n st' = .ok s st') ∧
      ∀ st v, st.get? n = some v → v.kind = .string →
        ∃ st', evaluate (assigning n (quoting s)) st = .ok [] st' ∧ evaluate n st' = .ok s st') ∧
    ('=' ∈ s →
      parse (declaring .string (assigning n (quoting s))) =
        .error (.unknownCommand (declaring .string (assigning n (quoting s)))) ∧
      parse (assigning n (quoting s)) = .error (.unknownCommand (assigning n (quoting s)))) := by
  refine ⟨evaluate_quoting s, ?_, ?_⟩
  · intro hs
    refine ⟨parse_declaring_of_not_mem hn hs, parse_assigning_of_not_mem hn hs, ?_, ?_⟩
    · intro st hkind
      exact evaluate_declaring hn hs hkind
    · intro st v hv hkind
      exact evaluate_assigning hn hs hv hkind
  · intro hs
    exact ⟨parse_declaring_of_mem hn hs, parse_assigning_of_mem hn hs⟩

/-- A text that looks like an assignment is evaluated to itself, but is not assigned. -/
theorem quoted_assignment_is_no_value :
    Plain ['n'] ∧ (∀ st, evaluate (quoting "a=b".toList) st = .ok "a=b".toList st) ∧
      parse (assigning ['n'] (quoting "a=b".toList)) =
        .error (.unknownCommand "n = \"a=b\"".toList) := by
  have hn : Plain ['n'] := ⟨rfl, by decide⟩
  have hvalues := quoted_texts_are_values hn "a=b".toList
  exact ⟨hn, hvalues.1, (hvalues.2.2 (by decide)).2⟩

/-- Not every quoted text can be declared or assigned. -/
theorem not_all_quoted_texts_are_values :
    ¬ ∀ n s : Text, Plain n →
      parse (declaring .string (assigning n (quoting s))) =
          .ok (.declare .string n (some (.literal (.string s)))) ∧
        parse (assigning n (quoting s)) = .ok (.assign n (.literal (.string s))) := by
  intro h
  have hn : Plain ['n'] := ⟨rfl, by decide⟩
  have hassigned := (h ['n'] "a=b".toList hn).2
  rw [parse_assigning_of_mem hn (by decide)] at hassigned
  cases hassigned

end Expression
end Stencil
