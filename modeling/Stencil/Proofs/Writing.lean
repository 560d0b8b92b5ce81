import Stencil.Proofs.Declining

/-!
# Written expressions

An expression can be written in more than one way: keywords and truth values in either
case, with blanks around the whole and around the sign in the middle. The constructs of
the language are asked in order, and several of them may accept one text. A written
expression is read back all the same, because every construct before the right one
declines it: no name is a keyword or a truth value, and no value holds an equals sign.

## Main definitions

* `Legible`, `Plain`: the names that are no literals, and those that are no words of the
  language at all.
* `Param.Written`, `Expression.Written`: the texts that write a value and an expression.
-/
namespace Stencil

open Text (isBlank Solid)

/-! ## Names and values -/

section

variable {n t w w' line : Text} {p : Param} {kind : Kind}

/-- The words that are no names: the truth values and the keywords of declarations. -/
def reserved : List Text :=
  [Value.text (.bool true), Value.text (.bool false), Kind.name .int, Kind.name .bool,
    Kind.name .string]

/-- An identifier that is no truth value, in whatever case. -/
structure Legible (name : Text) : Prop where
  identifier : isIdentifier name = true
  not_truth : ∀ b, Text.sameLetters name (Value.text (.bool b)) = false

/-- An identifier that is no word of the language, in whatever case. -/
structure Plain (name : Text) : Prop where
  identifier : isIdentifier name = true
  not_reserved : ∀ word ∈ reserved, Text.sameLetters name word = false

/-- The texts that write a value. A quoted text with an equals sign in it is not among
them, since it would be cut there. -/
inductive Param.Written : Param → Text → Prop
  | integer {i : Int} {t : Text} : Number.integer? t = some i → Written (.literal (.int i)) t
  | bool {b : Bool} {t : Text} :
      Text.sameLetters t (Value.text (.bool b)) = true → Written (.literal (.bool b)) t
  | quoted (s : Text) : '=' ∉ s → Written (.literal (.string s)) ('"' :: (s ++ ['"']))
  | name {m : Text} : Plain m → Written (.variable m) m

namespace Legible

theorem solid (hn : Legible n) : Solid n := Text.solid_of_isIdentifier hn.identifier

theorem not_mem (hn : Legible n) {c : Char} (hc : isIdentifierRest c = false) : c ∉ n :=
  Text.not_mem_of_all (Text.all_of_isIdentifier hn.identifier) hc

/-- A name starts with a character that no integer has, and has no point and no quote. -/
theorem read?_literals (hn : Legible n) (h : Text.trim line = n) :
    Form.literals.read? line = none := by
  subst h
  obtain ⟨c, t, ht, hstart⟩ := Text.exists_head_of_isIdentifier hn.identifier
  have hbool : Form.bool? line = none := by
    rw [Option.eq_none_iff_forall_ne_some]
    intro b hb
    have htruth := hn.not_truth b
    rw [Form.bool?_eq_some_iff.1 hb] at htruth
    cases htruth
  refine Form.read?_literals_eq_none_iff.2 ⟨?_, ?_, hbool, ?_⟩
  · exact Form.integer?_eq_none_of_mem (c := c) (by simp [ht])
      (Number.isSigned_of_isIdentifierStart hstart)
  · exact Form.double?_eq_none_of_not_mem (hn.not_mem (by decide))
  · exact Form.quoted?_eq_none_of_not_mem (hn.not_mem (by decide))

theorem read?_identifier (hn : Legible n) (h : Text.trim line = n) :
    Form.identifier.read? line = some [.variable n] := by
  rw [Form.read?_identifier, h, if_pos hn.identifier]

theorem read?_values (hn : Legible n) (h : Text.trim line = n) :
    Form.values.read? line = some [.variable n] := by
  rw [Form.read?_values, hn.read?_literals h, hn.read?_identifier h]
  rfl

end Legible

namespace Plain

theorem legible (hn : Plain n) : Legible n := by
  refine ⟨hn.identifier, fun b => hn.not_reserved _ ?_⟩
  cases b <;> simp [reserved]

theorem solid (hn : Plain n) : Solid n := hn.legible.solid

theorem not_mem (hn : Plain n) {c : Char} (hc : isIdentifierRest c = false) : c ∉ n :=
  hn.legible.not_mem hc

theorem not_kind (hn : Plain n) (kind : Kind) : Text.sameLetters n kind.name = false :=
  hn.not_reserved _ (by cases kind <;> simp [reserved])

end Plain

theorem isIdentifier_of_word {k word : Text} (h : Text.sameLetters k word = true)
    (hword : word.all Text.isLetter = true) (hne : word ≠ []) : isIdentifier k = true := by
  refine Text.isIdentifier_of_letters ?_ (Text.all_isLetter_of_sameLetters h hword)
  rintro rfl
  exact hne (List.length_eq_zero_iff.1 (Text.length_eq_of_sameLetters h).symm)

/-- A word in either case is solid. -/
theorem solid_of_word {k word : Text} (h : Text.sameLetters k word = true)
    (hword : word.all Text.isLetter = true) (hne : word ≠ []) : Solid k :=
  Text.solid_of_isIdentifier (isIdentifier_of_word h hword hne)

theorem solid_quoted (s : Text) : Solid ('"' :: (s ++ ['"'])) := by
  have hquote : Solid ['"'] := ⟨by simp, by decide⟩
  exact hquote.append hquote s

theorem all_isLetter_of_truth {b : Bool} (h : Text.sameLetters t (Value.text (.bool b)) = true) :
    t.all Text.isLetter = true :=
  Text.all_isLetter_of_sameLetters h (by cases b <;> decide)

theorem solid_of_truth {b : Bool} (h : Text.sameLetters t (Value.text (.bool b)) = true) :
    Solid t := by
  cases b with
  | true => exact solid_of_word h (by decide) (by decide)
  | false => exact solid_of_word h (by decide) (by decide)

theorem solid_of_integer {i : Int} (h : Number.integer? t = some i) : Solid t := by
  refine Text.solid_of_all (fun _ => Number.isBlank_of_isNumeral) ?_
    (Number.all_isNumeral_of_signed (Number.all_of_integer? h))
  rintro rfl
  cases h

theorem solid_of_double {x : Double} (h : Number.double? t = some x) (hpoint : '.' ∈ t) :
    Solid t :=
  Text.solid_of_all (fun _ => Number.isBlank_of_isNumeral) (List.ne_nil_of_mem hpoint)
    (Number.all_of_double? h hpoint)

/-- There is no point in an integer, for which it would be left to the doubles. -/
theorem Form.integer?_eq_some {i : Int} (h : Number.integer? (Text.trim line) = some i) :
    Form.integer? line = some i := by
  have hpoint : '.' ∉ line := by
    rw [← Text.mem_trim_iff rfl]
    exact Text.not_mem_of_all (Number.all_of_integer? h) (by decide)
  rw [Form.integer?, if_neg hpoint, h]

theorem read?_literals_of_integer {i : Int} (h : Number.integer? (Text.trim line) = some i) :
    Form.literals.read? line = some [.literal (.int i)] := by
  rw [Form.read?_literals, Form.read?_integer, Form.integer?_eq_some h]
  rfl

theorem read?_literals_of_double {x : Double} (h : Number.double? (Text.trim line) = some x)
    (hpoint : '.' ∈ Text.trim line) :
    Form.literals.read? line = some [.literal (.double x)] := by
  have hinteger : Form.integer? line = none :=
    Form.integer?_eq_none_of_mem hpoint (by decide)
  have hdouble : Form.double? line = some x := (if_pos hpoint).trans h
  rw [Form.read?_literals, Form.read?_integer, hinteger, Form.read?_double, hdouble]
  rfl

/-- The letters of a truth value make no number. -/
theorem read?_literals_of_truth {b : Bool}
    (h : Text.sameLetters (Text.trim line) (Value.text (.bool b)) = true) :
    Form.literals.read? line = some [.literal (.bool b)] := by
  have hletters := all_isLetter_of_truth h
  obtain ⟨c, r, hr⟩ := List.exists_cons_of_ne_nil (solid_of_truth h).1
  have hc : Text.isLetter c = true := List.all_eq_true.1 hletters c (by simp [hr])
  have hinteger : Form.integer? line = none :=
    Form.integer?_eq_none_of_mem (c := c) (by simp [hr]) (Number.isSigned_of_isLetter hc)
  have hdouble : Form.double? line = none :=
    Form.double?_eq_none_of_not_mem (Text.not_mem_of_all hletters (by decide))
  rw [Form.read?_literals, Form.read?_integer, hinteger, Form.read?_double, hdouble,
    Form.read?_bool, Form.bool?_eq_some_iff.2 h]
  rfl

theorem read?_literals_of_quoted {s : Text} (h : Text.trim line = '"' :: (s ++ ['"'])) :
    Form.literals.read? line = some [.literal (.string s)] := by
  have hquote : '"' ∈ Text.trim line := by simp [h]
  rw [Form.read?_literals, Form.read?_integer, Form.integer?_eq_none_of_mem hquote (by decide),
    Form.read?_double, Form.double?_eq_none_of_mem hquote (by decide), Form.read?_bool,
    Form.bool?_eq_none_of_mem hquote (by decide), Form.read?_quoted, Form.quoted?_eq_some_iff.2 h]
  rfl

namespace Param.Written

theorem solid (h : Param.Written p t) : Solid t := by
  cases h with
  | integer h => exact solid_of_integer h
  | bool h => exact solid_of_truth h
  | quoted s => exact solid_quoted s
  | name hn => exact hn.solid

theorem not_mem (h : Param.Written p t) : '=' ∉ t := by
  cases h with
  | integer h => exact Text.not_mem_of_all (Number.all_of_integer? h) (by decide)
  | bool h => exact Text.not_mem_of_all (all_isLetter_of_truth h) (by decide)
  | quoted s hs => simpa using hs
  | name hn => exact hn.not_mem (by decide)

/-- A written value is read as the value. -/
theorem read?_values (h : Param.Written p t) (ht : Text.trim line = t) :
    Form.values.read? line = some [p] := by
  have hliteral : ∀ {q : Param}, Form.literals.read? line = some [q] →
      Form.values.read? line = some [q] := fun hq => by rw [Form.read?_values, hq]; rfl
  cases h with
  | integer h => exact hliteral (read?_literals_of_integer (ht ▸ h))
  | bool h => exact hliteral (read?_literals_of_truth (ht ▸ h))
  | quoted s => exact hliteral (read?_literals_of_quoted ht)
  | name hn => exact hn.legible.read?_values ht

end Param.Written

/-- A text is read as a value, with any blanks around it, and an equals sign next to it can
be told from it. -/
structure Param.Side (p : Param) (t : Text) : Prop where
  solid : Solid t
  not_mem : '=' ∉ t
  read?_values : ∀ line, Text.trim line = t → Form.values.read? line = some [p]

theorem Param.Written.side (h : Param.Written p t) : Param.Side p t :=
  ⟨h.solid, h.not_mem, fun _ => h.read?_values⟩

theorem Legible.side (hn : Legible n) : Param.Side (.variable n) n :=
  ⟨hn.solid, hn.not_mem (by decide), fun _ => hn.read?_values⟩

end

/-! ## Expressions -/

namespace Expression

variable {n t u u' w w' k r line : Text} {p : Param} {kind : Kind} {delta : Int} {e : Expression}

/-- The texts that write an expression, without the blanks around it. -/
inductive Written : Expression → Text → Prop
  /-- `int x` -/
  | declare {kind : Kind} {k u n : Text} :
      Text.sameLetters k kind.name = true → u.all isBlank = true → Plain n →
        Written (.declare kind n none) (k ++ ' ' :: (u ++ n))
  /-- `int x = 5` -/
  | initialise {kind : Kind} {k v n u u' t : Text} {p : Param} :
      Text.sameLetters k kind.name = true → v.all isBlank = true → Plain n →
        u.all isBlank = true → u'.all isBlank = true → Param.Written p t →
          Written (.declare kind n (some p)) (k ++ ' ' :: (v ++ (n ++ u ++ '=' :: (u' ++ t))))
  /-- `x = 5` -/
  | assign {n u u' t : Text} {p : Param} :
      Plain n → u.all isBlank = true → u'.all isBlank = true → Param.Written p t →
        Written (.assign n p) (n ++ u ++ '=' :: (u' ++ t))
  /-- `x++` -/
  | up {n u : Text} : Plain n → u.all isBlank = true → Written (.step n 1) (n ++ u ++ "++".toList)
  /-- `x--` -/
  | down {n u : Text} :
      Plain n → u.all isBlank = true → Written (.step n (-1)) (n ++ u ++ "--".toList)
  /-- A text in quotes, whatever it holds. -/
  | quoted (s : Text) : Written (.literal s) ('"' :: (s ++ ['"']))
  | integer {i : Int} {t : Text} : Number.integer? t = some i → Written (.literal t) t
  | double {x : Double} {t : Text} :
      Number.double? t = some x → '.' ∈ t → Written (.literal t) t
  | bool {b : Bool} {t : Text} :
      Text.sameLetters t (Value.text (.bool b)) = true → Written (.literal t) t
  | read {n : Text} : Plain n → Written (.read n) n

theorem solid_of_kind (h : Text.sameLetters k kind.name = true) : Solid k :=
  solid_of_word h (by cases kind <;> decide) (by cases kind <;> decide)

theorem Written.solid (h : Written e t) : Solid t := by
  cases h with
  | @declare kind k u n hk hu hn =>
    simpa using (solid_of_kind hk).append hn.solid (' ' :: u)
  | @initialise kind k v n u u' t p hk hv hn hu hu' ht =>
    simpa using (solid_of_kind hk).append ht.solid (' ' :: (v ++ (n ++ u ++ '=' :: u')))
  | @assign n u u' t p hn hu hu' ht =>
    simpa using hn.solid.append ht.solid (u ++ '=' :: u')
  | up hn => exact hn.solid.append ⟨by simp, by decide⟩ _
  | down hn => exact hn.solid.append ⟨by simp, by decide⟩ _
  | quoted s => exact solid_quoted s
  | integer h => exact solid_of_integer h
  | double h hpoint => exact solid_of_double h hpoint
  | bool h => exact solid_of_truth h
  | read hn => exact hn.solid

/-! ### Declarations -/

/-- A word is the keyword of one kind at most. -/
theorem kind_unique {kind' : Kind} (h : Text.sameLetters k kind.name = true)
    (h' : Text.sameLetters k kind'.name = true) : kind = kind' := by
  have hnames : Text.sameLetters kind.name kind'.name = true :=
    Text.sameLetters_trans (Text.sameLetters_symm h) h'
  revert hnames
  cases kind <;> cases kind' <;> decide

/-- What the declaration of a kind takes is an expression, since those of the other kinds
decline its keyword. -/
theorem parse_of_declaration (hk : Text.sameLetters k kind.name = true)
    (hline : Text.trim line = k ++ ' ' :: r) (h : (declaration kind).take? line = .ok (some e)) :
    parse line = .ok e := by
  have hother : ∀ kind', kind' ≠ kind → (declaration kind').Declines line := by
    intro kind' hne
    refine declaration_declines_of_leadingWord ?_
    rw [hline, leadingWord_keyword (all_isLetter_of_kind hk), ← Bool.not_eq_true]
    intro hk'
    exact hne (kind_unique hk' hk)
  rw [parse, language]
  cases kind with
  | int => exact Language.parse_cons_of_taken h
  | bool =>
    rw [Language.parse_cons_of_declines (hother .int (by decide))]
    exact Language.parse_cons_of_taken h
  | string =>
    rw [Language.parse_cons_of_declines (hother .int (by decide)),
      Language.parse_cons_of_declines (hother .bool (by decide))]
    exact Language.parse_cons_of_taken h

/-- A declaration takes what its form reads behind the keyword. -/
theorem declaration_take? {params : List Param} (hk : Text.sameLetters k kind.name = true)
    (hline : Text.trim line = k ++ ' ' :: r) (hbuild : ofDeclaration kind params = some e)
    (hparams : (Form.identifier.read? (Text.trim r)).or
      ((Form.separated ['='] .values).read? (Text.trim r)) = some params) :
    (declaration kind).take? line = .ok (some e) := by
  have hfront : Form.afterFront? (kind.name ++ [' ']) line = some (Text.trim r) :=
    Form.afterFront?_keyword_eq_some_iff.2 ⟨k, r, hline, hk, rfl⟩
  refine Construct.take?_of_read? (Form.read?_leading.trans ?_) (congrArg _ hbuild)
  rw [hfront, Option.bind_some, Form.read?_firstOf_cons, Form.read?_firstOf_cons,
    Form.read?_firstOf_nil, Option.or_none, hparams]

/-- A name, an equals sign and a value are read as the two parameters of an assignment. -/
theorem read?_sides (hn : Plain n) (hu : u.all isBlank = true) (hu' : u'.all isBlank = true)
    (ht : Param.Side p t) (hw : w.all isBlank = true) (hw' : w'.all isBlank = true) :
    (Form.separated ['='] .values).read? (w ++ (n ++ u ++ '=' :: (u' ++ t)) ++ w') =
      some [.variable n, p] := by
  have hsplit : w ++ (n ++ u ++ '=' :: (u' ++ t)) ++ w' =
      (w ++ n ++ u) ++ '=' :: (u' ++ t ++ w') := by simp
  have hblank : ∀ {v : Text}, v.all isBlank = true → '=' ∉ v := fun hv =>
    Text.not_mem_of_all hv (by decide)
  rw [hsplit]
  refine Form.read?_pair ?_ ?_ ?_ ?_
  · simp [hblank hw, hblank hu, hn.not_mem (show isIdentifierRest '=' = false by decide)]
  · simp [hblank hu', hblank hw', ht.not_mem]
  · rw [hn.solid.trim_pad hw hu]
    exact hn.legible.read?_values hn.solid.2
  · rw [ht.solid.trim_pad hu' hw']
    exact ht.read?_values _ ht.solid.2

/-- Behind a keyword any identifier is a name. -/
theorem parse_declaration (hk : Text.sameLetters k kind.name = true) (hu : u.all isBlank = true)
    (hn : isIdentifier n = true) (h : Text.trim line = k ++ ' ' :: (u ++ n)) :
    parse line = .ok (.declare kind n none) := by
  have htrim : Text.trim (Text.trim (u ++ n)) = n :=
    (Text.trim_trim _).trans ((Text.solid_of_isIdentifier hn).trim_pad_front hu)
  have hname : Form.identifier.read? (Text.trim (u ++ n)) = some [.variable n] := by
    rw [Form.read?_identifier, htrim, if_pos hn]
  exact parse_of_declaration hk h (declaration_take? hk h rfl (by rw [hname]; rfl))

theorem parse_declare (hk : Text.sameLetters k kind.name = true) (hu : u.all isBlank = true)
    (hn : Plain n) (h : Text.trim line = k ++ ' ' :: (u ++ n)) :
    parse line = .ok (.declare kind n none) :=
  parse_declaration hk hu hn.identifier h

theorem parse_initialise {v : Text} (hk : Text.sameLetters k kind.name = true)
    (hv : v.all isBlank = true) (hn : Plain n) (hu : u.all isBlank = true)
    (hu' : u'.all isBlank = true) (ht : Param.Written p t)
    (h : Text.trim line = k ++ ' ' :: (v ++ (n ++ u ++ '=' :: (u' ++ t)))) :
    parse line = .ok (.declare kind n (some p)) := by
  have hsolid : Solid (n ++ u ++ '=' :: (u' ++ t)) := (Written.assign hn hu hu' ht).solid
  have hnil : ([] : Text).all isBlank = true := rfl
  have hsides := read?_sides hn hu hu' ht.side hnil hnil
  rw [List.nil_append, List.append_nil] at hsides
  -- an equals sign is in the text, so it is no name
  have hname : Form.identifier.read? (n ++ u ++ '=' :: (u' ++ t)) = none := by
    rw [Form.read?_identifier, hsolid.2,
      Text.isIdentifier_eq_false_of_mem (c := '=') (by simp) (by decide)]
    rfl
  have hread : (Form.identifier.read? (Text.trim (v ++ (n ++ u ++ '=' :: (u' ++ t))))).or
      ((Form.separated ['='] .values).read? (Text.trim (v ++ (n ++ u ++ '=' :: (u' ++ t))))) =
        some [.variable n, p] := by
    rw [hsolid.trim_pad_front hv, hname, hsides]
    rfl
  exact parse_of_declaration hk h (declaration_take? hk h rfl hread)

/-! ### The other constructs -/

/-- Behind a line that no declaration takes, the other constructs are left. -/
theorem parse_of_undeclared (h : ∀ kind, (declaration kind).Declines line) :
    parse line = Language.parse
      [assignment, stepping "++".toList 1, stepping "--".toList (-1), literals, reading]
      line := by
  rw [parse, language, Language.parse_cons_of_declines (h .int),
    Language.parse_cons_of_declines (h .bool), Language.parse_cons_of_declines (h .string)]

/-- A name in front of a blank or a sign is the word that the line starts with. -/
theorem declarations_decline_of_name {m : Text} (hn : Plain n) (hu : u.all isBlank = true)
    (hm : ∀ c, m.head? = some c → isIdentifierRest c = false)
    (h : Text.trim line = n ++ u ++ m) (kind : Kind) : (declaration kind).Declines line := by
  refine declaration_declines_of_leadingWord ?_
  have hword : Text.leadingWord (n ++ (u ++ m)) = n := by
    refine Text.leadingWord_append (Text.all_of_isIdentifier hn.identifier) fun c hc => ?_
    cases u with
    | nil => exact hm c hc
    | cons d u =>
      obtain rfl : d = c := by simpa using hc
      have hblank : isBlank d = true := List.all_eq_true.1 hu d (by simp)
      rw [← Bool.not_eq_true]
      intro hrest
      rw [Text.isBlank_of_isIdentifierRest hrest] at hblank
      cases hblank
  rw [h, List.append_assoc, hword]
  exact hn.not_kind kind

/-- An assignment takes a name that is no word of the language, and any value. -/
theorem parse_assignment (hn : Plain n) (hu : u.all isBlank = true) (hu' : u'.all isBlank = true)
    (ht : Param.Side p t) (hw : w.all isBlank = true) (hw' : w'.all isBlank = true) :
    parse (w ++ (n ++ u ++ '=' :: (u' ++ t)) ++ w') = .ok (.assign n p) := by
  have hsolid : Solid (n ++ u ++ '=' :: (u' ++ t)) := by
    simpa using hn.solid.append ht.solid (u ++ '=' :: u')
  have htrim := hsolid.trim_pad hw hw'
  have hsign : ∀ c, ('=' :: (u' ++ t)).head? = some c → isIdentifierRest c = false := by
    intro c hc
    obtain rfl : '=' = c := by simpa using hc
    decide
  rw [parse_of_undeclared (declarations_decline_of_name hn hu hsign htrim)]
  exact Language.parse_cons_of_taken
    (Construct.take?_of_read? (read?_sides hn hu hu' ht hw hw') rfl)

theorem parse_assign (hn : Plain n) (hu : u.all isBlank = true) (hu' : u'.all isBlank = true)
    (ht : Param.Written p t) (hw : w.all isBlank = true) (hw' : w'.all isBlank = true) :
    parse (w ++ (n ++ u ++ '=' :: (u' ++ t)) ++ w') = .ok (.assign n p) :=
  parse_assignment hn hu hu' ht.side hw hw'

/-- A step takes any identifier in front of its sign. -/
theorem stepping_take? {token : Text} (ht : token.any Text.isLetter = false)
    (hn : isIdentifier n = true) (hu : u.all isBlank = true)
    (h : Text.trim line = n ++ u ++ token) :
    (stepping token delta).take? line = .ok (some (.step n delta)) := by
  have hsolid : Solid n := Text.solid_of_isIdentifier hn
  have hback : Form.beforeBack? token line = some n :=
    (Form.beforeBack?_symbols_eq_some_iff ht).2 ⟨n ++ u, h, hsolid.trim_pad_back hu⟩
  have hread : (stepping token delta).form.read? line = some [.variable n] := by
    refine Form.read?_trailing.trans ?_
    rw [hback, Option.bind_some, Form.read?_identifier, hsolid.2, if_pos hn]
  exact Construct.take?_of_read? hread rfl

/-- A line with a name and a sign behind it is left to the steps. -/
theorem parse_of_name_and_sign {token : Text} (hn : Plain n) (hu : u.all isBlank = true)
    (hsign : token.any isIdentifierRest = false) (hequals : '=' ∉ token)
    (h : Text.trim line = n ++ u ++ token) :
    parse line = Language.parse
      [stepping "++".toList 1, stepping "--".toList (-1), literals, reading] line := by
  have hnot : '=' ∉ line := by
    rw [← Text.mem_trim_iff rfl, h]
    simp [hequals, hn.not_mem (show isIdentifierRest '=' = false by decide),
      Text.not_mem_of_all hu (show isBlank '=' = false by decide)]
  have hhead : ∀ c, token.head? = some c → isIdentifierRest c = false :=
    fun c hc => Bool.eq_false_iff.2 (List.any_eq_false.1 hsign c (List.mem_of_head? hc))
  rw [parse_of_undeclared (declarations_decline_of_name hn hu hhead h),
    Language.parse_cons_of_declines (assignment_declines_of_not_mem hnot)]

theorem parse_up (hn : Plain n) (hu : u.all isBlank = true)
    (h : Text.trim line = n ++ u ++ "++".toList) : parse line = .ok (.step n 1) := by
  rw [parse_of_name_and_sign hn hu (by decide) (by decide) h]
  exact Language.parse_cons_of_taken (stepping_take? (by decide) hn.identifier hu h)

theorem parse_down (hn : Plain n) (hu : u.all isBlank = true)
    (h : Text.trim line = n ++ u ++ "--".toList) : parse line = .ok (.step n (-1)) := by
  have hup : (stepping "++".toList 1).Declines line := by
    refine stepping_declines_of_getLast? (c := '+') (by decide) rfl ?_
    rw [h, List.getLast?_append]
    exact (by decide : some '-' ≠ some '+')
  rw [parse_of_name_and_sign hn hu (by decide) (by decide) h, Language.parse_cons_of_declines hup]
  exact Language.parse_cons_of_taken (stepping_take? (by decide) hn.identifier hu h)

/-- A quoted text is taken without its quotes, whatever it holds. -/
theorem parse_quoted {s : Text} (h : Text.trim line = '"' :: (s ++ ['"'])) :
    parse line = .ok (.literal s) := by
  have hdeclaration : ∀ kind, (declaration kind).Declines line := by
    intro kind
    refine declaration_declines_of_leadingWord ?_
    rw [h, show Text.leadingWord ('"' :: (s ++ ['"'])) = [] from rfl]
    cases kind <;> decide
  have hlast : ∀ c : Char, c ≠ '"' → (Text.trim line).getLast? ≠ some c := by
    intro c hc hlast
    rw [h, ← List.cons_append, List.getLast?_append] at hlast
    exact hc (Option.some.inj hlast).symm
  have hquoted : Form.quoted? line = some s := Form.quoted?_eq_some_iff.2 h
  have hread : literals.form.read? line = some [.literal (.string s)] := by
    rw [literals_read?, Form.read?_quoted, hquoted]
    rfl
  rw [parse_of_undeclared hdeclaration,
    Language.parse_cons_of_declines (assignment_declines_of_quote (by rw [h]; rfl)),
    Language.parse_cons_of_declines
      (stepping_declines_of_getLast? (c := '+') (by decide) rfl (hlast _ (by decide))),
    Language.parse_cons_of_declines
      (stepping_declines_of_getLast? (c := '-') (by decide) rfl (hlast _ (by decide)))]
  exact Language.parse_cons_of_taken (Construct.take?_of_read? hread rfl)

/-- A literal without spaces, equals signs and quotes is taken as it is written, unless
it is a name with a sign of steps behind it. -/
theorem parse_of_literal {params : List Param} {q : Char → Bool}
    (hread : Form.literals.read? line = some params) (hchars : (Text.trim line).all q = true)
    (hq : [' ', '=', '"'].any q = false)
    (hstep : ∀ r token, Text.trim line = r ++ token → token = "++".toList ∨ token = "--".toList →
      isIdentifier (Text.trim r) = false) :
    parse line = .ok (.literal (Text.trim line)) := by
  obtain ⟨hspace, hequals, hquote⟩ : q ' ' = false ∧ q '=' = false ∧ q '"' = false := by
    simpa using hq
  have hnot : ∀ {c : Char}, q c = false → c ∉ Text.trim line := Text.not_mem_of_all hchars
  have hliteral : literals.form.read? line = some [.literal (.string (Text.trim line))] := by
    rw [literals_read?, Form.read?_quoted, Form.quoted?_eq_none_of_not_mem (hnot hquote),
      Form.read?_verbatim, hread]
    rfl
  rw [parse_of_undeclared fun _ => declaration_declines_of_not_mem (hnot hspace),
    Language.parse_cons_of_declines
      (assignment_declines_of_not_mem fun h => hnot hequals ((Text.mem_trim_iff rfl).2 h)),
    Language.parse_cons_of_declines
      (stepping_declines (by decide) fun r h => hstep r _ h (.inl rfl)),
    Language.parse_cons_of_declines
      (stepping_declines (by decide) fun r h => hstep r _ h (.inr rfl))]
  exact Language.parse_cons_of_taken (Construct.take?_of_read? hliteral rfl)

theorem parse_integer {i : Int} (h : Number.integer? (Text.trim line) = some i) :
    parse line = .ok (.literal (Text.trim line)) := by
  have hsigned := Number.all_of_integer? h
  refine parse_of_literal (read?_literals_of_integer h) hsigned (by decide) ?_
  intro r token hline _
  -- the name in front of the sign would put a letter or an underscore into the integer
  rw [← Bool.not_eq_true]
  intro hname
  obtain ⟨c, m, hm, hc⟩ := Text.exists_head_of_isIdentifier hname
  have hmem : c ∈ Text.trim r := by simp [hm]
  have hrest : isIdentifierRest c = true := by rw [isIdentifierRest, hc, Bool.true_or]
  rw [Text.mem_trim_iff (Text.isBlank_of_isIdentifierRest hrest)] at hmem
  refine Text.not_mem_of_all hsigned (Number.isSigned_of_isIdentifierStart hc) ?_
  simp [hline, hmem]

theorem parse_double {x : Double} (h : Number.double? (Text.trim line) = some x)
    (hpoint : '.' ∈ Text.trim line) : parse line = .ok (.literal (Text.trim line)) := by
  have hnumeral := Number.all_of_double? h hpoint
  refine parse_of_literal (read?_literals_of_double h hpoint) hnumeral (by decide) ?_
  intro r token hline htoken
  -- the point would stand in the name
  have hmem : '.' ∈ r := by
    rw [hline] at hpoint
    rcases htoken with rfl | rfl <;> simpa using hpoint
  exact Text.isIdentifier_eq_false_of_mem ((Text.mem_trim_iff rfl).2 hmem) (by decide)

theorem parse_truth {b : Bool}
    (h : Text.sameLetters (Text.trim line) (Value.text (.bool b)) = true) :
    parse line = .ok (.literal (Text.trim line)) := by
  have hletters := all_isLetter_of_truth h
  refine parse_of_literal (read?_literals_of_truth h) hletters (by decide) ?_
  intro r token hline htoken
  rw [hline] at hletters
  rcases htoken with rfl | rfl <;> simp [Text.isLetter] at hletters

/-- A name that is no literal is read, be it the keyword of a kind. -/
theorem parse_name (hn : Legible n) (h : Text.trim line = n) : parse line = .ok (.read n) := by
  have hnot : ∀ {c : Char}, isIdentifierRest c = false → c ∉ Text.trim line := fun hc =>
    h ▸ hn.not_mem hc
  rw [parse_of_undeclared fun _ => declaration_declines_of_not_mem (hnot (by decide)),
    Language.parse_cons_of_declines (assignment_declines_of_not_mem fun hmem =>
      hnot (c := '=') (by decide) ((Text.mem_trim_iff rfl).2 hmem)),
    Language.parse_cons_of_declines
      (stepping_declines_of_not_mem (c := '+') (by decide) (by decide) (hnot (by decide))),
    Language.parse_cons_of_declines
      (stepping_declines_of_not_mem (c := '-') (by decide) (by decide) (hnot (by decide))),
    Language.parse_cons_of_declines (literals_declines (hn.read?_literals h))]
  exact Language.parse_cons_of_taken (Construct.take?_of_read? (hn.read?_identifier h) rfl)

theorem parse_read (hn : Plain n) (h : Text.trim line = n) : parse line = .ok (.read n) :=
  parse_name hn.legible h

/-- Two words are no expression: a declaration would need its keyword in front, and an
assignment or a step its sign. -/
theorem parse_of_words {v : Text} (ht : Text.trim line = k ++ ' ' :: v)
    (hk : k.all Text.isLetter = true) (hne : k ≠ [])
    (hkinds : ∀ kind : Kind, Text.sameLetters k kind.name = false)
    (hnone : ∀ c ∈ ['=', '+', '-', '.', '"'], c ∉ Text.trim line) :
    parse line = .error (.unknownCommand (Text.trim line)) := by
  have hspace : ' ' ∈ Text.trim line := by simp [ht]
  obtain ⟨c, r, rfl⟩ := List.exists_cons_of_ne_nil hne
  have hc : Text.isLetter c = true := List.all_eq_true.1 hk c (by simp)
  have hliterals : Form.literals.read? line = none := by
    refine Form.read?_literals_eq_none_iff.2 ⟨?_, ?_, ?_, ?_⟩
    · exact Form.integer?_eq_none_of_mem (c := c) (by simp [ht]) (Number.isSigned_of_isLetter hc)
    · exact Form.double?_eq_none_of_not_mem (hnone _ (by simp))
    · exact Form.bool?_eq_none_of_mem hspace (by decide)
    · exact Form.quoted?_eq_none_of_not_mem (hnone _ (by simp))
  have hdeclaration : ∀ kind, (declaration kind).Declines line := fun kind =>
    declaration_declines_of_leadingWord (by rw [ht, leadingWord_keyword hk, hkinds])
  rw [parse_of_undeclared hdeclaration]
  refine Language.parse_of_declines ?_
  simp only [List.forall_mem_cons]
  refine ⟨?_, ?_, ?_, literals_declines hliterals, ?_, by simp⟩
  · exact assignment_declines_of_not_mem fun h =>
      hnone '=' (by simp) ((Text.mem_trim_iff rfl).2 h)
  · exact stepping_declines_of_not_mem (by decide) (by decide) (hnone '+' (by simp))
  · exact stepping_declines_of_not_mem (by decide) (by decide) (hnone '-' (by simp))
  · exact reading_declines (Text.isIdentifier_eq_false_of_mem hspace (by decide))

/-- **Reading an expression inverts writing it.** Every text that writes an expression is
read as that expression, with any blanks around it. Among the texts that write an integer
is the one that it is printed as. -/
theorem parse_of_written :
    (∀ {e : Expression} {t w w' : Text}, Written e t → w.all isBlank = true →
      w'.all isBlank = true → parse (w ++ t ++ w') = .ok e) ∧
    (∀ {i : Int}, Number.InRange i →
      Param.Written (.literal (.int i)) (Number.integerText i)) := by
  refine ⟨fun {e t w w'} h hw hw' => ?_, fun h => .integer (Number.integer?_integerText h)⟩
  have htrim : Text.trim (w ++ t ++ w') = t := h.solid.trim_pad hw hw'
  cases h with
  | declare hk hu hn => exact parse_declare hk hu hn htrim
  | initialise hk hv hn hu hu' ht => exact parse_initialise hk hv hn hu hu' ht htrim
  | assign hn hu hu' ht => exact parse_assign hn hu hu' ht hw hw'
  | up hn hu => exact parse_up hn hu htrim
  | down hn hu => exact parse_down hn hu htrim
  | quoted s => exact parse_quoted htrim
  | integer h => rw [parse_integer (htrim.symm ▸ h), htrim]
  | double h hpoint => rw [parse_double (htrim.symm ▸ h) (htrim.symm ▸ hpoint), htrim]
  | bool h => rw [parse_truth (htrim.symm ▸ h), htrim]
  | read hn => exact parse_read hn htrim

/-- A declaration with its keyword in capitals, and the value that it starts from. -/
theorem parse_of_written_count :
    parse " INT count = -7 ".toList =
        .ok (.declare .int "count".toList (some (.literal (.int (-7))))) ∧
      Param.Written (.literal (.int (-7))) "-7".toList := by
  have hvalue : Param.Written (.literal (.int (-7))) "-7".toList := parse_of_written.2 (by decide)
  have hname : Plain "count".toList := ⟨by decide, by decide⟩
  have hblank : ([' '] : Text).all isBlank = true := rfl
  have hkeyword : Text.sameLetters "INT".toList (Kind.name .int) = true := by decide
  refine ⟨?_, hvalue⟩
  exact parse_of_written.1
    (.initialise (v := []) hkeyword rfl hname hblank hblank hvalue) hblank hblank

end Expression
end Stencil
