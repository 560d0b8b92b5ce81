import Mathlib.Data.List.Forall2
import Stencil.Proofs.Writing

/-!
# The shapes of template lines

A template line opens or closes a block when it is one pair of markers around a keyword
and a text that the keyword understands; it is a blank line when nothing is on it. Any
other line is compiled. A line of a block shape would not compile: between its markers
stand two words, and no expression of the language is written like that. So the order in
which the constructs are asked decides nothing.

## Main definitions

* `Statement.Bracketed`: a keyword and a text behind it, between markers.
* `Statement.Says`: what a keyword and the text behind it say.
* `Statement.Shaped`: the lines of blank and of block shape, with what they say.
* `Line.FirstUnknown`: the first of the expressions on a line that is not known.
-/
namespace Stencil

open Text (isBlank Solid)

/-! ## Compiled lines -/

section

variable {part : Marker.Part} {parts : List Marker.Part} {pieces : List Piece} {raw text : Text}
  {line : Line} {e : Error}

/-- Fixed text is always read, and an expression when the language knows it. -/
theorem Piece.exists_ofPart_iff : (∃ piece, Piece.ofPart part = .ok piece) ↔
    ∀ t, part = .dynamic t → ∃ x, Expression.parse t = .ok x := by
  cases part with
  | fixed t => simp [Piece.ofPart]
  | dynamic t => simp [Piece.ofPart, Steps.map_eq_ok_iff]

/-- An expression that is not known is named as it stands. -/
theorem Piece.ofPart_eq_error_iff (htrim : ∀ t, part = .dynamic t → Text.trim t = t) :
    Piece.ofPart part = .error e ↔ ∃ text, part = .dynamic text ∧
      (∀ x, Expression.parse text ≠ .ok x) ∧ e = .unknownCommand text := by
  cases part with
  | fixed t => simp [Piece.ofPart]
  | dynamic t =>
    rw [Piece.ofPart, Steps.map_eq_error_iff]
    constructor
    · intro h
      have he := Expression.parse_error h
      rw [htrim t rfl] at he
      refine ⟨t, rfl, fun x hx => ?_, he⟩
      rw [h] at hx
      cases hx
    · rintro ⟨text, ht, hunknown, rfl⟩
      cases ht
      cases h : Expression.parse t with
      | ok x => exact absurd h (hunknown x)
      | error e => rw [Expression.parse_error h, htrim t rfl]

namespace Line

/-- The first expression on a line that is none of the language. -/
def FirstUnknown (parts : List Marker.Part) (text : Text) : Prop :=
  ∃ before behind, parts = before ++ .dynamic text :: behind ∧
    (∀ t, .dynamic t ∈ before → ∃ x, Expression.parse t = .ok x) ∧
      ∀ x, Expression.parse text ≠ .ok x

/-- The first part is the first unknown expression, or it is read and another one is. -/
theorem firstUnknown_cons_iff : FirstUnknown (part :: parts) text ↔
    (part = .dynamic text ∧ ∀ x, Expression.parse text ≠ .ok x) ∨
      (∀ t, part = .dynamic t → ∃ x, Expression.parse t = .ok x) ∧ FirstUnknown parts text := by
  constructor
  · rintro ⟨before, behind, h, hbefore, hunknown⟩
    cases before with
    | nil => exact .inl ⟨(List.cons.inj h).1, hunknown⟩
    | cons p before =>
      obtain ⟨rfl, rfl⟩ := List.cons.inj h
      refine .inr ⟨fun t ht => hbefore t (by simp [ht]), before, behind, rfl, ?_, hunknown⟩
      exact fun t ht => hbefore t (List.mem_cons_of_mem _ ht)
  · rintro (⟨rfl, hunknown⟩ | ⟨hpart, before, behind, rfl, hbefore, hunknown⟩)
    · exact ⟨[], parts, rfl, by simp, hunknown⟩
    · refine ⟨part :: before, behind, rfl, fun t ht => ?_, hunknown⟩
      rcases List.mem_cons.1 ht with h | h
      · exact hpart t h.symm
      · exact hbefore t h

theorem piecesOf_eq_ok_iff : piecesOf parts = .ok pieces ↔
    List.Forall₂ (fun part piece => Piece.ofPart part = .ok piece) parts pieces := by
  induction parts generalizing pieces with
  | nil => rw [piecesOf, List.forall₂_nil_left_iff, Except.ok.injEq, eq_comm]
  | cons part parts ih =>
    rw [piecesOf, Steps.bind_eq_ok_iff, List.forall₂_cons_left_iff]
    constructor
    · rintro ⟨piece, hpiece, h⟩
      obtain ⟨more, hmore, h⟩ := Steps.bind_eq_ok_iff.1 h
      cases h
      exact ⟨piece, more, hpiece, ih.1 hmore, rfl⟩
    · rintro ⟨piece, more, hpiece, hmore, rfl⟩
      exact ⟨piece, hpiece, Steps.bind_eq_ok_iff.2 ⟨more, ih.2 hmore, rfl⟩⟩

/-- Compiling fails at the first expression that is not known, and names it. -/
theorem piecesOf_eq_error_iff (htrim : ∀ t, .dynamic t ∈ parts → Text.trim t = t) :
    piecesOf parts = .error e ↔ ∃ text, FirstUnknown parts text ∧ e = .unknownCommand text := by
  induction parts with
  | nil =>
    simp only [piecesOf, reduceCtorEq, false_iff]
    rintro ⟨text, ⟨before, behind, h, -⟩, -⟩
    simp at h
  | cons part parts ih =>
    have hhead : ∀ t, part = .dynamic t → Text.trim t = t := fun t ht => htrim t (by simp [ht])
    have hrest : ∀ piece, ((do let pieces ← piecesOf parts; return piece :: pieces) =
        (.error e : Except Error (List Piece))) ↔ piecesOf parts = .error e := by
      intro piece
      rw [Steps.bind_eq_error_iff]
      simp [pure, Except.pure]
    rw [piecesOf, Steps.bind_eq_error_iff, Piece.ofPart_eq_error_iff hhead]
    simp only [hrest, exists_and_right, Piece.exists_ofPart_iff,
      ih fun t ht => htrim t (List.mem_cons_of_mem _ ht), firstUnknown_cons_iff]
    grind

theorem compile_eq_ok_iff : compile raw = .ok line ↔ line.raw = raw ∧
    ∃ parts, Marker.parts raw = .ok parts ∧
      List.Forall₂ (fun part piece => Piece.ofPart part = .ok piece) parts line.pieces := by
  rw [compile, Steps.bind_eq_ok_iff]
  constructor
  · rintro ⟨parts, hparts, h⟩
    obtain ⟨pieces, hpieces, h⟩ := Steps.bind_eq_ok_iff.1 h
    cases h
    exact ⟨rfl, parts, hparts, piecesOf_eq_ok_iff.1 hpieces⟩
  · rintro ⟨rfl, parts, hparts, hpieces⟩
    exact ⟨parts, hparts, Steps.bind_eq_ok_iff.2 ⟨_, piecesOf_eq_ok_iff.2 hpieces, rfl⟩⟩

/-- A line is not compiled when its markers do not pair up, or for its first unknown
expression. -/
theorem compile_eq_error_iff : compile raw = .error e ↔ Marker.parts raw = .error e ∨
    ∃ parts text, Marker.parts raw = .ok parts ∧ FirstUnknown parts text ∧
      e = .unknownCommand text := by
  rw [compile, Steps.bind_eq_error_iff]
  refine or_congr_right ?_
  have hpieces : ∀ {parts}, Marker.parts raw = .ok parts →
      ((do let pieces ← piecesOf parts; return (⟨raw, pieces⟩ : Line)) =
        (.error e : Except Error Line) ↔
          ∃ text, FirstUnknown parts text ∧ e = .unknownCommand text) := by
    intro parts hparts
    have hsound := (Marker.canonical_and_printing_of_parts hparts).1.sound
    rw [Steps.bind_eq_error_iff, piecesOf_eq_error_iff fun t ht => (hsound _ ht).1]
    simp [pure, Except.pure]
  constructor
  · rintro ⟨parts, hparts, h⟩
    obtain ⟨text, hunknown, he⟩ := (hpieces hparts).1 h
    exact ⟨parts, text, hparts, hunknown, he⟩
  · rintro ⟨parts, text, hparts, hunknown, he⟩
    exact ⟨parts, hparts, (hpieces hparts).2 ⟨text, hunknown, he⟩⟩

end Line

end

/-! ## Lines between markers -/

namespace Marker

theorem markerFree_of_not_mem {t : Text} (h : '@' ∉ t) : MarkerFree t := by
  constructor
  · exact Text.occurs_eq_false_iff.2 fun hin => h (hin.subset (by decide))
  · exact Text.occurs_eq_false_iff.2 fun hin => h (hin.subset (by decide))

/-- One expression between markers is all that is read from them. -/
theorem parts_of_span {t w w' : Text} (ht : Solid t) (hfree : '@' ∉ t)
    (hw : w.all isBlank = true) (hw' : w'.all isBlank = true) :
    parts (opening ++ (w ++ t ++ w') ++ closing) = .ok [.dynamic t] := by
  have hdynamic : (Part.dynamic t).Sound := ⟨ht.2, markerFree_of_not_mem hfree⟩
  have hregular : Regular [.dynamic t] :=
    regular_nil.fixedPart_dynamic (t := t) hdynamic (markerFree_of_blank (w := []) rfl) (by simp)
  refine parts_of_printing ⟨hregular, by simp⟩ ⟨[], _, [], rfl, rfl, .dynamic t hw hw' .nil, ?_⟩
  simp

end Marker

namespace Statement

variable {keyword keyword' t content content' line : Text} {st a b : Statement}

/-- A keyword, in either case, and a text behind it, between markers. -/
def Bracketed (keyword t content : Text) : Prop :=
  ∃ k w, t = Marker.opening ++ (k ++ ' ' :: w) ++ Marker.closing ∧
    Text.sameLetters k keyword = true ∧ Text.trim w = content

/-- What a keyword and the text behind it say. -/
inductive Says : Text → Text → Statement → Prop
  | forEach {name : Text} :
      Text.sameLetters name "column".toList = true ∨
        Text.sameLetters name "columns".toList = true →
      Says "foreach".toList name (.opening .forEach)
  | cond {name : Text} :
      isIdentifier name = true → Says "if".toList name (.opening (.cond name false))
  | notCond {w : Text} :
      isIdentifier (Text.trim w) = true →
        Says "if".toList ('!' :: w) (.opening (.cond (Text.trim w) true))
  | closing {name : Text} {kind : BlockKind} :
      Text.sameLetters name kind.keyword = true → Says "end".toList name (.closing kind)

/-- The lines of blank and of block shape, without the blanks around them. -/
inductive Shaped : Text → Statement → Prop
  | blank : Shaped [] .blank
  | block {keyword t content : Text} {st : Statement} :
      Bracketed keyword t content → Says keyword content st → Shaped t st

/-! ### Shapes exclude each other -/

theorem Says.all_isLetter (h : Says keyword content st) : keyword.all Text.isLetter = true := by
  cases h <;> decide

theorem Says.keyword_ne_nil (h : Says keyword content st) : keyword ≠ [] := by
  cases h <;> decide

/-- What stands between markers is read in one way only. -/
theorem Bracketed.unique (h : Bracketed keyword t content) (h' : Bracketed keyword' t content')
    (hk : keyword.all Text.isLetter = true) (hk' : keyword'.all Text.isLetter = true) :
    Text.sameLetters keyword keyword' = true ∧ content = content' := by
  obtain ⟨k, w, rfl, hword, rfl⟩ := h
  obtain ⟨k', w', he, hword', rfl⟩ := h'
  have hinner : k ++ ' ' :: w = k' ++ ' ' :: w' :=
    List.append_cancel_left (List.append_cancel_right he)
  have hkk : k = k' := by
    rw [← Expression.leadingWord_keyword (Text.all_isLetter_of_sameLetters hword hk), hinner,
      Expression.leadingWord_keyword (Text.all_isLetter_of_sameLetters hword' hk')]
  subst hkk
  obtain rfl : w = w' := by simpa using hinner
  exact ⟨Text.sameLetters_trans (Text.sameLetters_symm hword) hword', rfl⟩

theorem kind_of_keyword {name : Text} {kind kind' : BlockKind}
    (h : Text.sameLetters name kind.keyword = true)
    (h' : Text.sameLetters name kind'.keyword = true) : kind = kind' := by
  have hwords : Text.sameLetters kind.keyword kind'.keyword = true :=
    Text.sameLetters_trans (Text.sameLetters_symm h) h'
  revert hwords
  cases kind <;> cases kind' <;> decide

theorem Says.unique (h : Says keyword content a) (h' : Says keyword' content b)
    (hk : Text.sameLetters keyword keyword' = true) : a = b := by
  cases h with
  | forEach =>
    cases h' with
    | forEach => rfl
    | _ => exact absurd hk (by decide)
  | cond hname =>
    cases h' with
    | cond => rfl
    | notCond => cases hname
    | _ => exact absurd hk (by decide)
  | notCond =>
    cases h' with
    | cond hname => cases hname
    | notCond => rfl
    | _ => exact absurd hk (by decide)
  | closing hkind =>
    cases h' with
    | closing hkind' => rw [kind_of_keyword hkind hkind']
    | _ => exact absurd hk (by decide)

theorem not_bracketed_nil : ¬ Bracketed keyword [] content := by
  rintro ⟨k, w, h, -⟩
  cases h

/-- A line has one shape at most, and its shape says one thing. -/
theorem Shaped.unique (h : Shaped t a) (h' : Shaped t b) : a = b := by
  cases h with
  | blank =>
    cases h' with
    | blank => rfl
    | block hline => exact absurd hline not_bracketed_nil
  | block hline hmeaning =>
    cases h' with
    | blank => exact absurd hline not_bracketed_nil
    | block hline' hmeaning' =>
      obtain ⟨hk, rfl⟩ := hline.unique hline' hmeaning.all_isLetter hmeaning'.all_isLetter
      exact hmeaning.unique hmeaning' hk

/-! ### Block lines do not compile -/

/-- The characters of the texts behind keywords. -/
def isBlockChar (c : Char) : Bool := isIdentifierRest c || isBlank c || c == '!'

theorem all_isBlockChar_of_isIdentifier (h : isIdentifier t = true) :
    t.all isBlockChar = true := by
  refine List.all_eq_true.2 fun c hc => ?_
  rw [isBlockChar, List.all_eq_true.1 (Text.all_of_isIdentifier h) c hc]
  rfl

theorem all_isBlockChar_of_blank (h : t.all isBlank = true) : t.all isBlockChar = true := by
  refine List.all_eq_true.2 fun c hc => ?_
  rw [isBlockChar, List.all_eq_true.1 h c hc, Bool.or_true, Bool.true_or]

theorem isIdentifier_of_target {name : Text} (h : Text.sameLetters name "column".toList = true ∨
    Text.sameLetters name "columns".toList = true) : isIdentifier name = true := by
  rcases h with h | h
  · exact isIdentifier_of_word h (by decide) (by decide)
  · exact isIdentifier_of_word h (by decide) (by decide)

theorem isIdentifier_of_kind {name : Text} {kind : BlockKind}
    (h : Text.sameLetters name kind.keyword = true) : isIdentifier name = true :=
  isIdentifier_of_word h (by cases kind <;> decide) (by cases kind <;> decide)

/-- A keyword understands a name, or a name behind an exclamation mark. -/
theorem Says.name_or_negated (h : Says keyword content st) :
    isIdentifier content = true ∨ ∃ w, content = '!' :: w ∧ isIdentifier (Text.trim w) = true := by
  cases h with
  | forEach h => exact .inl (isIdentifier_of_target h)
  | cond hname => exact .inl hname
  | notCond hname => exact .inr ⟨_, rfl, hname⟩
  | closing h => exact .inl (isIdentifier_of_kind h)

theorem Says.content_ne_nil (h : Says keyword content st) : content ≠ [] := by
  rintro rfl
  rcases h.name_or_negated with h | ⟨w, h, -⟩ <;> cases h

theorem Says.all_isBlockChar (h : Says keyword content st) : content.all isBlockChar = true := by
  rcases h.name_or_negated with hname | ⟨w, rfl, hname⟩
  · exact all_isBlockChar_of_isIdentifier hname
  · obtain ⟨u, u', hu, hu', hw⟩ := Text.exists_append_trim_append w
    rw [hw, List.all_cons, List.all_append, List.all_append, all_isBlockChar_of_blank hu,
      all_isBlockChar_of_blank hu', all_isBlockChar_of_isIdentifier hname]
    rfl

/-- No keyword of a block is one of a declaration. -/
theorem Says.keyword_ne_kind (h : Says keyword content st) (kind : Kind) :
    Text.sameLetters keyword kind.name = false := by
  cases h <;> cases kind <;> decide

section

variable {k u : Text}

theorem Says.isIdentifier_word (h : Says keyword content st)
    (hk : Text.sameLetters k keyword = true) : isIdentifier k = true :=
  isIdentifier_of_word hk h.all_isLetter h.keyword_ne_nil

theorem Says.solid_words (h : Says keyword content st) (hk : Text.sameLetters k keyword = true)
    (htrim : Text.trim content = content) : Solid (k ++ (' ' :: u) ++ content) :=
  (Text.solid_of_isIdentifier (h.isIdentifier_word hk)).append ⟨h.content_ne_nil, htrim⟩ _

theorem Says.all_isBlockChar_words (h : Says keyword content st)
    (hk : Text.sameLetters k keyword = true) (hu : u.all isBlank = true) :
    (k ++ (' ' :: u) ++ content).all isBlockChar = true := by
  rw [List.all_append, List.all_append, all_isBlockChar_of_isIdentifier (h.isIdentifier_word hk),
    List.all_cons, all_isBlockChar_of_blank hu, h.all_isBlockChar]
  rfl

/-- A keyword and the text behind it are no expression. -/
theorem Says.parse_words (h : Says keyword content st) (hk : Text.sameLetters k keyword = true)
    (hu : u.all isBlank = true) (htrim : Text.trim content = content) (x : Expression) :
    Expression.parse (k ++ (' ' :: u) ++ content) ≠ .ok x := by
  have hsolid : Text.trim (k ++ (' ' :: u) ++ content) = k ++ (' ' :: u) ++ content :=
    (h.solid_words hk htrim).2
  have hline : Text.trim (k ++ (' ' :: u) ++ content) = k ++ ' ' :: (u ++ content) := by
    rw [hsolid, List.append_assoc, List.cons_append]
  have hkinds : ∀ kind : Kind, Text.sameLetters k kind.name = false := by
    intro kind
    rw [← Bool.not_eq_true]
    intro hkind
    have hsame := Text.sameLetters_trans (Text.sameLetters_symm hk) hkind
    rw [h.keyword_ne_kind kind] at hsame
    cases hsame
  have hnone : ∀ c ∈ ['=', '+', '-', '.', '"'], c ∉ Text.trim (k ++ (' ' :: u) ++ content) := by
    have hsigns : ['=', '+', '-', '.', '"'].any isBlockChar = false := by decide
    intro c hc
    rw [hsolid]
    exact Text.not_mem_of_all (h.all_isBlockChar_words hk hu)
      (Bool.eq_false_iff.2 (List.any_eq_false.1 hsigns c hc))
  have hletters : k.all Text.isLetter = true := Text.all_isLetter_of_sameLetters hk h.all_isLetter
  have hne : k ≠ [] := (Text.solid_of_isIdentifier (h.isIdentifier_word hk)).1
  rw [Expression.parse_of_words hline hletters hne hkinds hnone]
  simp

/-- Between the markers of a block line the tokenizer finds its two words. -/
theorem Says.parts_of_bracketed (h : Says keyword content st)
    (hline : Bracketed keyword t content) :
    ∃ k u, Text.sameLetters k keyword = true ∧ u.all isBlank = true ∧
      Marker.parts t = .ok [.dynamic (k ++ (' ' :: u) ++ content)] := by
  obtain ⟨k, w, rfl, hk, rfl⟩ := hline
  obtain ⟨u, u', hu, hu', hw⟩ := Text.exists_append_trim_append w
  refine ⟨k, u, hk, hu, ?_⟩
  have hparts := Marker.parts_of_span (h.solid_words hk (Text.trim_trim w))
    (Text.not_mem_of_all (h.all_isBlockChar_words hk hu) (by decide))
    (show ([] : Text).all isBlank = true from rfl) hu'
  have hinner : [] ++ (k ++ (' ' :: u) ++ Text.trim w) ++ u' = k ++ ' ' :: w := by
    conv => rhs; rw [hw]
    simp
  rwa [hinner] at hparts

/-- A line of a block shape does not compile. -/
theorem compile_of_bracketed (hline : Bracketed keyword t content)
    (h : Says keyword content st) : ∃ e, Line.compile t = .error e := by
  obtain ⟨k, u, hk, hu, hparts⟩ := h.parts_of_bracketed hline
  have htrim : Text.trim content = content := by
    obtain ⟨_, w, -, -, rfl⟩ := hline
    exact Text.trim_trim w
  refine ⟨_, Line.compile_eq_error_iff.2 (.inr ⟨_, _, hparts, ⟨[], [], rfl, ?_, ?_⟩, rfl⟩)⟩
  · simp
  · exact h.parse_words hk hu htrim

end

/-! ### What the constructs take -/

theorem between?_eq_some_iff {front back : Text} :
    Form.between? front back line = some content ↔
      ∃ w, (Text.dropFrontAnyCase? front (Text.trim line)).bind (Text.dropBackAnyCase? back) =
        some w ∧ Text.trim w = content ∧ content ≠ [] := by
  rw [Form.between?]
  cases (Text.dropFrontAnyCase? front (Text.trim line)).bind (Text.dropBackAnyCase? back) with
  | none => simp
  | some w =>
    simp only [Option.some.injEq, exists_eq_left', Option.ite_none_left_eq_some,
      List.isEmpty_iff]
    constructor
    · rintro ⟨hne, rfl⟩
      exact ⟨rfl, hne⟩
    · rintro ⟨rfl, hne⟩
      exact ⟨hne, rfl⟩

/-- Cutting the opening marker, a keyword and a space off a line leaves the rest of it. -/
theorem dropFrontAnyCase?_opening_eq_some_iff {r : Text} :
    Text.dropFrontAnyCase? (Marker.opening ++ keyword ++ [' ']) t = some r ↔
      ∃ k, t = Marker.opening ++ (k ++ ' ' :: r) ∧ Text.sameLetters k keyword = true := by
  rw [Text.dropFrontAnyCase?_keyword_eq_some_iff]
  constructor
  · rintro ⟨k', ht, h⟩
    obtain ⟨m, k, rfl, hm, hk⟩ := Text.exists_of_sameLetters_append h
    obtain rfl : m = Marker.opening := Text.eq_of_sameLetters (by decide) hm
    exact ⟨k, by simpa using ht, hk⟩
  · rintro ⟨k, ht, hk⟩
    exact ⟨Marker.opening ++ k, by simpa using ht,
      Text.sameLetters_append (Text.sameLetters_refl _) hk⟩

/-- The form of a block is a keyword and a text behind it. -/
theorem between?_markers_eq_some_iff :
    Form.between? (Marker.opening ++ keyword ++ [' ']) Marker.closing line = some content ↔
      Bracketed keyword (Text.trim line) content ∧ content ≠ [] := by
  have hback : ∀ r w, Text.dropBackAnyCase? Marker.closing r = some w ↔ r = w ++ Marker.closing :=
    fun r w => Text.dropBackAnyCase?_symbols_eq_some_iff (by decide)
  simp only [between?_eq_some_iff, Option.bind_eq_some_iff,
    dropFrontAnyCase?_opening_eq_some_iff, hback]
  constructor
  · rintro ⟨w, ⟨r, ⟨k, hline, hk⟩, rfl⟩, hw, hne⟩
    exact ⟨⟨k, w, by simpa using hline, hk, hw⟩, hne⟩
  · rintro ⟨⟨k, w, hline, hk, hw⟩, hne⟩
    exact ⟨w, ⟨_, ⟨k, by simpa using hline, hk⟩, rfl⟩, hw, hne⟩

section

variable {c : Construct Statement} {inner : Form} {s : Text}

/-- A construct of blocks takes the lines with its keyword on which its rule says something. -/
theorem take?_of_enclosed
    (hform : c.form = .enclosed (Marker.opening ++ keyword ++ [' ']) Marker.closing inner)
    (hmeaning : ∀ content st, Text.trim content = content →
      ((∃ params, inner.read? content = some params ∧ c.build params = .ok (some st)) ↔
        Says keyword content st)) :
    c.take? s = .ok (some st) ↔
      ∃ content, Bracketed keyword (Text.trim s) content ∧ Says keyword content st := by
  have htrim : ∀ {content}, Bracketed keyword (Text.trim s) content →
      Text.trim content = content := by
    rintro _ ⟨_, w, -, -, rfl⟩
    exact Text.trim_trim w
  simp only [Construct.take?_eq_some_iff, hform, Form.read?_enclosed, Option.bind_eq_some_iff,
    between?_markers_eq_some_iff]
  constructor
  · rintro ⟨params, ⟨content, ⟨hline, -⟩, hread⟩, hbuild⟩
    exact ⟨content, hline, (hmeaning content st (htrim hline)).1 ⟨params, hread, hbuild⟩⟩
  · rintro ⟨content, hline, h⟩
    obtain ⟨params, hread, hbuild⟩ := (hmeaning content st (htrim hline)).2 h
    exact ⟨params, ⟨content, ⟨hline, h.content_ne_nil⟩, hread⟩, hbuild⟩

/-- The rule of repetitions understands the word for a column. -/
theorem forEach_meaning (htrim : Text.trim content = content) :
    (∃ params, Form.identifier.read? content = some params ∧
      (.ok (ofTarget params) : Except Error _) = .ok (some st)) ↔
        Says "foreach".toList content st := by
  rw [Form.read?_identifier, htrim]
  constructor
  · rintro ⟨params, hread, hbuild⟩
    split at hread
    · cases hread
      obtain ⟨hname, hst⟩ := Option.ite_none_right_eq_some.1 (Except.ok.inj hbuild)
      cases hst
      exact .forEach (by simpa using hname)
    · cases hread
  · intro h
    cases h with
    | forEach hname =>
      rw [if_pos (isIdentifier_of_target hname)]
      refine ⟨_, rfl, ?_⟩
      rw [ofTarget, if_pos (by simpa using hname)]

/-- The exclamation mark of a condition stands first. -/
theorem ofCondition_plain (h : content.head? ≠ some '!') :
    ofCondition [.literal (.string content)] =
      if isIdentifier content then some (.opening (.cond content false)) else none := by
  cases content with
  | nil => rfl
  | cons c w =>
    have hne : c ≠ '!' := by simpa using h
    simp only [ofCondition]
    split
    · next heq => exact absurd (List.cons.inj heq).1 hne
    · rfl

/-- The rule of conditions understands a name, and a name behind an exclamation mark. -/
theorem cond_meaning :
    (∃ params, Form.text.read? content = some params ∧
      (.ok (ofCondition params) : Except Error _) = .ok (some st)) ↔
        Says "if".toList content st := by
  have hread : (∃ params, Form.text.read? content = some params ∧
      (.ok (ofCondition params) : Except Error _) = .ok (some st)) ↔
        ofCondition [.literal (.string content)] = some st := by
    simp [Form.read?_text]
  rw [hread]
  constructor
  · intro h
    by_cases hmark : content.head? = some '!'
    · obtain ⟨w, rfl⟩ := List.head?_eq_some_iff.1 hmark
      obtain ⟨hname, hst⟩ := Option.ite_none_right_eq_some.1 h
      cases hst
      exact .notCond hname
    · rw [ofCondition_plain hmark] at h
      obtain ⟨hname, hst⟩ := Option.ite_none_right_eq_some.1 h
      cases hst
      exact .cond hname
  · intro h
    cases h with
    | cond hname =>
      have hmark : content.head? ≠ some '!' := by
        intro hmark
        obtain ⟨w, rfl⟩ := List.head?_eq_some_iff.1 hmark
        cases hname
      rw [ofCondition_plain hmark, if_pos hname]
    | notCond hname => exact if_pos hname

theorem blockKind?_eq_some_iff {name : Text} {kind : BlockKind} :
    blockKind? name = some kind ↔ Text.sameLetters name kind.keyword = true := by
  rw [blockKind?]
  constructor
  · intro h
    exact List.find?_some (p := fun k : BlockKind => Text.sameLetters name k.keyword) h
  · intro h
    cases hfound : [BlockKind.forEach, .cond].find? fun k => Text.sameLetters name k.keyword with
    | some kind' =>
      have h' := List.find?_some (p := fun k : BlockKind => Text.sameLetters name k.keyword) hfound
      rw [kind_of_keyword h h']
    | none =>
      rw [List.find?_eq_none] at hfound
      exact absurd h (hfound kind (by cases kind <;> simp))

/-- The rule of ends understands the keyword of a block. -/
theorem closing_meaning (htrim : Text.trim content = content) :
    (∃ params, Form.identifier.read? content = some params ∧
      (.ok (ofEnd params) : Except Error _) = .ok (some st)) ↔
        Says "end".toList content st := by
  rw [Form.read?_identifier, htrim]
  constructor
  · rintro ⟨params, hread, hbuild⟩
    split at hread
    · cases hread
      obtain ⟨kind, hkind, rfl⟩ := Option.map_eq_some_iff.1 (Except.ok.inj hbuild)
      exact .closing (blockKind?_eq_some_iff.1 hkind)
    · cases hread
  · intro h
    cases h with
    | closing hkind =>
      rw [if_pos (isIdentifier_of_kind hkind)]
      refine ⟨_, rfl, ?_⟩
      rw [ofEnd, blockKind?_eq_some_iff.2 hkind]
      rfl

theorem take?_blank_eq_some_iff :
    language[0].take? s = .ok (some st) ↔ Text.trim s = [] ∧ st = .blank := by
  have hread : ∀ params, language[0].form.read? s = some params → Text.trim s = [] := by
    intro params h
    have haccepts : Text.isBlankText s = true := by
      rw [← show language[0].form.accepts s = Text.isBlankText s by rfl, ← Form.isSome_read?, h]
      rfl
    exact List.isEmpty_iff.1 haccepts
  rw [Construct.take?_eq_some_iff]
  constructor
  · rintro ⟨params, hparams, hbuild⟩
    cases hbuild
    exact ⟨hread params hparams, rfl⟩
  · rintro ⟨hblank, rfl⟩
    have haccepts : language[0].form.accepts s = true := List.isEmpty_iff.2 hblank
    obtain ⟨params, hparams⟩ := Form.parse_of_accepts _ haccepts
    exact ⟨params, Form.read?_eq_some_iff.2 hparams, rfl⟩

/-- The constructs in front of the one for lines take what has a shape, and nothing else. -/
theorem exists_take?_iff :
    (∃ c ∈ language.take 4, c.take? s = .ok (some st)) ↔ Shaped (Text.trim s) st := by
  have hforEach : language[1].take? s = .ok (some st) ↔ ∃ content,
      Bracketed "foreach".toList (Text.trim s) content ∧ Says "foreach".toList content st :=
    take?_of_enclosed rfl fun _ _ => forEach_meaning
  have hcond : language[2].take? s = .ok (some st) ↔ ∃ content,
      Bracketed "if".toList (Text.trim s) content ∧ Says "if".toList content st :=
    take?_of_enclosed rfl fun _ _ _ => cond_meaning
  have hclosing : language[3].take? s = .ok (some st) ↔ ∃ content,
      Bracketed "end".toList (Text.trim s) content ∧ Says "end".toList content st :=
    take?_of_enclosed rfl fun _ _ => closing_meaning
  rw [show language.take 4 = [language[0], language[1], language[2], language[3]] from rfl]
  simp only [List.mem_cons, List.not_mem_nil, or_false, exists_eq_or_imp, exists_eq_left,
    take?_blank_eq_some_iff, hforEach, hcond, hclosing]
  constructor
  · rintro (⟨ht, rfl⟩ | ⟨content, hline, h⟩ | ⟨content, hline, h⟩ | ⟨content, hline, h⟩)
    · rw [ht]
      exact .blank
    · exact .block hline h
    · exact .block hline h
    · exact .block hline h
  · intro h
    generalize Text.trim s = t at h
    cases h with
    | blank => exact .inl ⟨rfl, rfl⟩
    | block hline h =>
      cases h with
      | forEach h => exact .inr (.inl ⟨_, hline, .forEach h⟩)
      | cond h => exact .inr (.inr (.inl ⟨_, hline, .cond h⟩))
      | notCond h => exact .inr (.inr (.inl ⟨_, hline, .notCond h⟩))
      | closing h => exact .inr (.inr (.inr ⟨_, hline, .closing h⟩))

/-- The constructs in front of the one for lines never fail. -/
theorem take?_ne_error {e : Error} : ∀ c ∈ language.take 4, c.take? s ≠ .error e := by
  intro c hc h
  obtain ⟨params, hparams⟩ := Construct.take?_error h
  rw [show language.take 4 = [language[0], language[1], language[2], language[3]] from rfl] at hc
  simp only [List.mem_cons, List.not_mem_nil, or_false] at hc
  rcases hc with rfl | rfl | rfl | rfl <;> cases hparams

/-- Such a construct declines a line, or takes it for what its shape says. -/
theorem declines_or_shaped {c : Construct Statement} (hc : c ∈ language.take 4) :
    c.Declines s ∨ ∃ st, c.take? s = .ok (some st) ∧ Shaped (Text.trim s) st := by
  cases h : c.take? s with
  | error e => exact absurd h (take?_ne_error c hc)
  | ok taken =>
    cases taken with
    | none => exact .inl (Construct.take?_eq_none_iff.1 h)
    | some st => exact .inr ⟨st, rfl, exists_take?_iff.1 ⟨c, hc, h⟩⟩

theorem parse_of_shaped (h : Shaped (Text.trim s) st) : parse s = .ok st := by
  rw [parse, ← List.take_append_drop 4 language]
  refine Language.parse_append_of_agreed (exists_take?_iff.2 h) fun c hc => ?_
  rcases declines_or_shaped hc with hdeclines | ⟨st', htaken, h'⟩
  · exact .inl hdeclines
  · rw [h'.unique h] at htaken
    exact .inr htaken

/-- A line without a shape is compiled. -/
theorem parse_of_not_shaped (h : ∀ st, ¬ Shaped (Text.trim s) st) :
    parse s = (Line.compile (Text.trim s)).map .line := by
  have hdeclines : ∀ c ∈ language.take 4, c.Declines s := by
    intro c hc
    rcases declines_or_shaped hc with hdeclines | ⟨st, -, hst⟩
    · exact hdeclines
    · exact absurd hst (h st)
  have hne : Text.isBlankText s = false := by
    rw [← Bool.not_eq_true]
    intro hblank
    rw [List.isEmpty_iff.1 hblank] at h
    exact h _ .blank
  have hread : language[4].form.read? s = some [.literal (.string (Text.trim s))] :=
    (Form.read?_fallback hne).trans (Form.read?_text _)
  have haccepts : language[4].accepts s = true := by
    rw [Construct.accepts, ← Form.isSome_read?, hread]
    rfl
  have htake : language[4].take? s =
      (Line.compile (Text.trim s)).map fun line => some (.line line) :=
    Construct.take?_eq_build haccepts (Form.read?_eq_some_iff.1 hread)
  rw [parse, ← List.take_append_drop 4 language, Language.parse_append_of_declines hdeclines,
    show language.drop 4 = [language[4]] from rfl]
  cases hcompile : Line.compile (Text.trim s) with
  | ok line => exact Language.parse_cons_of_taken (by rw [htake, hcompile]; rfl)
  | error e => exact Language.parse_cons_of_failed (by rw [htake, hcompile]; rfl)

end

/-- **The statements are exactly those that the grammar of lines gives.** A line is a blank
line, or opens or closes a block, iff it has the shape of one. A line without a shape is
emitted iff its markers pair up and each of its expressions is known; otherwise it fails
as the markers do, or names the first expression that is not known. No line has two
shapes, and no line of a block shape would compile. -/
theorem parse_recognises (s : Text) :
    (∀ st, (∀ line, st ≠ .line line) → (parse s = .ok st ↔ Shaped (Text.trim s) st)) ∧
    ((∀ st, ¬ Shaped (Text.trim s) st) →
      (∀ line, parse s = .ok (.line line) ↔ line.raw = Text.trim s ∧
        ∃ parts, Marker.parts (Text.trim s) = .ok parts ∧
          List.Forall₂ (fun part piece => Piece.ofPart part = .ok piece) parts line.pieces) ∧
      ∀ e, parse s = .error e ↔ Marker.parts (Text.trim s) = .error e ∨
        ∃ parts text, Marker.parts (Text.trim s) = .ok parts ∧ Line.FirstUnknown parts text ∧
          e = .unknownCommand text) ∧
    (∀ a b, Shaped (Text.trim s) a → Shaped (Text.trim s) b → a = b) ∧
    ∀ st, Shaped (Text.trim s) st → Text.trim s ≠ [] →
      ∃ e, Line.compile (Text.trim s) = .error e := by
  refine ⟨fun st hst => ⟨fun h => ?_, parse_of_shaped⟩, fun h => ?_,
    fun a b ha hb => ha.unique hb, fun st h hne => ?_⟩
  · by_cases hshaped : ∃ st', Shaped (Text.trim s) st'
    · obtain ⟨st', h'⟩ := hshaped
      rw [parse_of_shaped h', Except.ok.injEq] at h
      exact h ▸ h'
    · rw [parse_of_not_shaped (not_exists.1 hshaped)] at h
      obtain ⟨line, -, hline⟩ := Steps.map_eq_ok_iff.1 h
      exact absurd hline.symm (hst line)
  · rw [parse_of_not_shaped h]
    constructor
    · intro line
      rw [Steps.map_eq_ok_iff, ← Line.compile_eq_ok_iff]
      simp
    · intro e
      rw [Steps.map_eq_error_iff, Line.compile_eq_error_iff]
  · generalize Text.trim s = t at h hne
    cases h with
    | blank => exact absurd rfl hne
    | block hline hmeaning => exact compile_of_bracketed hline hmeaning

/-- Blocks repeat for columns, and no block is opened for a table. -/
theorem not_shaped_table (st : Statement) : ¬ Shaped (Text.trim "!@foreach table@!".toList) st := by
  have htable : Bracketed "foreach".toList (Text.trim "!@foreach table@!".toList) "table".toList :=
    ⟨"foreach".toList, "table".toList, by decide, by decide, by decide⟩
  intro h
  generalize ht : Text.trim "!@foreach table@!".toList = t at h htable
  cases h with
  | blank => exact not_bracketed_nil htable
  | block hline hmeaning =>
    obtain ⟨hk, rfl⟩ := hline.unique htable hmeaning.all_isLetter (by decide)
    cases hmeaning with
    | forEach hname => exact absurd hname (by decide)
    | cond => exact absurd hk (by decide)
    | closing => exact absurd hk (by decide)

/-- A block line in capitals, and a line that only looks like one. -/
theorem recognises_repetition :
    parse " !@FOREACH columns @! ".toList = .ok (.opening .forEach) ∧
      (∃ e, Line.compile "!@FOREACH columns @!".toList = .error e) ∧
      parse "!@foreach table@!".toList = .error (.unknownCommand "foreach table".toList) := by
  have hshaped : Shaped (Text.trim " !@FOREACH columns @! ".toList) (.opening .forEach) :=
    .block ⟨"FOREACH".toList, "columns ".toList, by decide, by decide, rfl⟩
      (.forEach (.inr (by decide)))
  have hparts : Marker.parts (Text.trim "!@foreach table@!".toList) =
      .ok [.dynamic "foreach table".toList] := by
    have hsolid : Solid "foreach table".toList := ⟨by decide, by decide⟩
    have hnil : ([] : Text).all isBlank = true := rfl
    exact Marker.parts_of_span hsolid (by decide) hnil hnil
  have hparse : Expression.parse "foreach table".toList =
      .error (.unknownCommand "foreach table".toList) := rfl
  have hunknown : Line.FirstUnknown [.dynamic "foreach table".toList] "foreach table".toList := by
    refine ⟨[], [], rfl, by simp, fun x hx => ?_⟩
    rw [hparse] at hx
    cases hx
  refine ⟨((parse_recognises _).1 _ (by simp)).2 hshaped,
    (parse_recognises " !@FOREACH columns @! ".toList).2.2.2 _ hshaped (by decide), ?_⟩
  exact (((parse_recognises _).2.1 not_shaped_table).2 _).2 (.inr ⟨_, _, hparts, hunknown, rfl⟩)

end Statement
end Stencil
