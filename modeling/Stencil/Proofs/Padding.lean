import Stencil.Command
import Stencil.Proofs.Choosing
import Stencil.Proofs.Detecting

/-!
# Blanks around lines

A form trims a line before it cuts a token off, and trims what is left before the inner form
gets it. Only the separated form looks for its token in the whole line, and there it finds the
same occurrences as in the trimmed one, when neither end of the token is blank. So blanks
around a line decide nothing, unless the form keeps the line as it is. The languages of
expressions and statements are made of such forms.

## Main definitions

* `Form.separators`: the tokens that are looked for in whole lines.
* `Form.keepsBlanks`: whether a line is kept as it is.
* `Form.IgnoresPadding`: the forms that blanks around a line make no difference to.
-/
namespace Stencil

/-! ## Tokens in padded texts -/

namespace Text

variable {token t w w' : Text}

theorem isBlank_of_head?_eq (h : trim token = token) {c : Char} (hc : token.head? = some c) :
    isBlank c = false := isBlank_of_head?_trim (h.symm ▸ hc)

theorem isBlank_of_getLast?_eq (h : trim token = token) {c : Char}
    (hc : token.getLast? = some c) : isBlank c = false := by
  refine isBlank_of_getLast?_trimEnd (t := trimStart token) ?_
  rwa [← trim, h]

/-- A token does not reach into the blanks behind a text. -/
theorem dropFront?_append_of_blank (htoken : Solid token) (hw : w.all isBlank = true) (t : Text) :
    dropFront? token (t ++ w) = (dropFront? token t).map (· ++ w) := by
  cases h : dropFront? token t with
  | some rest =>
    obtain rfl := dropFront?_eq_some_iff.1 h
    exact dropFront?_eq_some_iff.2 (List.append_assoc ..)
  | none =>
    rw [Option.map_none, Option.eq_none_iff_forall_ne_some]
    intro rest hrest
    rcases List.append_eq_append_iff.1 (dropFront?_eq_some_iff.1 hrest) with
      ⟨blank, hblank, hw'⟩ | ⟨rest', ht, -⟩
    · -- the token ends behind the text, in a blank
      have hne : blank ≠ [] := by
        rintro rfl
        rw [dropFront?_eq_some_iff.2 (show t = token ++ [] by simpa using hblank.symm)] at h
        cases h
      have hlast : token.getLast? = some (blank.getLast hne) := by
        rw [hblank, List.getLast?_append, List.getLast?_eq_some_getLast hne, Option.some_or]
      have hmem : blank.getLast hne ∈ w := by
        rw [hw']
        exact List.mem_append_left _ (List.getLast_mem hne)
      have hsolid := isBlank_of_getLast?_eq htoken.2 hlast
      rw [List.all_eq_true.1 hw _ hmem] at hsolid
      cases hsolid
    · rw [dropFront?_eq_some_iff.2 ht] at h
      cases h

theorem cut?_append_of_blank (htoken : Solid token) (hw : w.all isBlank = true) (t : Text) :
    cut? token (t ++ w) = (cut? token t).map fun (before, rest) => (before, rest ++ w) := by
  induction t with
  | nil =>
    have hnil : dropFront? token [] = none := by
      obtain ⟨a, token, rfl⟩ := List.exists_cons_of_ne_nil htoken.1
      rfl
    rw [List.nil_append, cut?_nil, hnil, Option.map_none, Option.map_none, cut?_eq_none_iff,
      occurs_eq_false_iff]
    intro h
    obtain ⟨c, hc⟩ := Option.isSome_iff_exists.1 (List.isSome_head?.2 htoken.1)
    have hsolid := isBlank_of_head?_eq htoken.2 hc
    rw [List.all_eq_true.1 hw c (h.subset (List.mem_of_head? hc))] at hsolid
    cases hsolid
  | cons c t ih =>
    have hfront := dropFront?_append_of_blank htoken hw (c :: t)
    rw [List.cons_append] at hfront ⊢
    rw [cut?_cons, cut?_cons, hfront]
    cases dropFront? token (c :: t) with
    | some rest => rfl
    | none => simp [ih, Function.comp_def]

/-- A token does not begin in the blanks in front of a text. -/
theorem cut?_of_blank_append (htoken : Solid token) (hw : w.all isBlank = true) (t : Text) :
    cut? token (w ++ t) = (cut? token t).map fun (before, rest) => (w ++ before, rest) := by
  induction w with
  | nil => simp
  | cons c w ih =>
    obtain ⟨hc, hw⟩ : isBlank c = true ∧ w.all isBlank = true := by simpa using hw
    have hnone : dropFront? token (c :: (w ++ t)) = none := by
      rw [Option.eq_none_iff_forall_ne_some]
      intro rest hrest
      obtain ⟨a, token, rfl⟩ := List.exists_cons_of_ne_nil htoken.1
      obtain ⟨rfl, -⟩ := List.cons.inj (dropFront?_eq_some_iff.1 hrest)
      rw [isBlank_of_head?_eq htoken.2 rfl] at hc
      cases hc
    rw [List.cons_append, cut?_cons, hnone, ih hw]
    simp [Function.comp_def]

theorem split_eq (hne : token ≠ []) (t : Text) :
    split token t =
      match cut? token t with
      | none => [t]
      | some (before, rest) => before :: split token rest := by
  rw [split, dif_neg hne]
  split
  · next h => rw [h]
  · next h => rw [h]

/-- The blanks behind a text join its last fragment. -/
theorem split_append_of_blank (htoken : Solid token) (hw : w.all isBlank = true) (t : Text) :
    (split token (t ++ w)).map trim = (split token t).map trim := by
  induction hn : t.length using Nat.strongRecOn generalizing t with
  | ind n ih =>
    rw [split_eq htoken.1, split_eq htoken.1 t, cut?_append_of_blank htoken hw]
    cases hcut : cut? token t with
    | none => simpa using trim_append_append (w := []) rfl hw t
    | some cut =>
      have hlength := length_of_cut? hcut
      have hpos := List.length_pos_iff.2 htoken.1
      simpa using ih cut.2.length (by omega) cut.2 rfl

/-- The blanks in front of a text join its first fragment. -/
theorem split_of_blank_append (htoken : Solid token) (hw : w.all isBlank = true) (t : Text) :
    (split token (w ++ t)).map trim = (split token t).map trim := by
  have hnil : ([] : Text).all isBlank = true := rfl
  rw [split_eq htoken.1, split_eq htoken.1 t, cut?_of_blank_append htoken hw]
  cases cut? token t with
  | none => simpa using trim_append_append hw hnil t
  | some cut => simpa using trim_append_append hw hnil cut.1

/-- The fragments of a text and of what trimming leaves of it are the same but for blanks. -/
theorem split_trim (htoken : trim token = token) (t : Text) :
    (split token (trim t)).map trim = (split token t).map trim := by
  by_cases hne : token = []
  · simp [split, hne]
  · obtain ⟨w, w', hw, hw', ht⟩ := exists_append_trim_append t
    conv_rhs => rw [ht]
    rw [split_append_of_blank ⟨hne, htoken⟩ hw', split_of_blank_append ⟨hne, htoken⟩ hw]

/-- A token occurs in a text iff it occurs in what trimming leaves of it. -/
theorem occurs_trim (htoken : Solid token) (t : Text) : occurs token (trim t) = occurs token t := by
  obtain ⟨w, w', hw, hw', ht⟩ := exists_append_trim_append t
  conv_rhs => rw [ht]
  rw [occurs, occurs, cut?_append_of_blank htoken hw', cut?_of_blank_append htoken hw,
    Option.isSome_map, Option.isSome_map]

@[simp] theorem isBlankText_trim (t : Text) : isBlankText (trim t) = isBlankText t := by
  rw [isBlankText, trim_trim, isBlankText]

end Text

/-! ## Forms -/

namespace Form

mutual

/-- The tokens of the separated forms in a form, at any depth. -/
def separators : Form → List Text
  | .separated token inner => token :: separators inner
  | .leading _ inner => separators inner
  | .trailing _ inner => separators inner
  | .enclosed _ _ inner => separators inner
  | .fallback inner => separators inner
  | .verbatim inner => separators inner
  | .firstOf alternatives => separatorsOf alternatives
  | .blank | .integer | .double | .bool | .quoted | .identifier | .text => []

/-- The tokens of the separated forms in alternatives. -/
def separatorsOf : List Form → List Text
  | [] => []
  | f :: fs => separators f ++ separatorsOf fs

end

mutual

/-- Whether a form keeps a line as it is, by itself or in an alternative. -/
def keepsBlanks : Form → Bool
  | .text => true
  | .firstOf alternatives => anyKeepsBlanks alternatives
  | _ => false

/-- Whether one of the alternatives keeps a line as it is. -/
def anyKeepsBlanks : List Form → Bool
  | [] => false
  | f :: fs => keepsBlanks f || anyKeepsBlanks fs

end

/-- No separator begins or ends with a blank, and the line is not kept as it is. -/
structure IgnoresPadding (f : Form) : Prop where
  trim_separator : ∀ token ∈ f.separators, Text.trim token = token
  not_keepsBlanks : f.keepsBlanks = false

variable {line token front back : Text} {f : Form} {fs : List Form} {params : List Param}

theorem fragments_trim (htoken : Text.trim token = token) (line : Text) :
    fragments token (Text.trim line) = fragments token line := by
  rw [fragments, fragments, Text.split_trim htoken]

@[simp] theorem afterFront?_trim (token line : Text) :
    afterFront? token (Text.trim line) = afterFront? token line := by
  rw [afterFront?, Text.trim_trim, afterFront?]

@[simp] theorem beforeBack?_trim (token line : Text) :
    beforeBack? token (Text.trim line) = beforeBack? token line := by
  rw [beforeBack?, Text.trim_trim, beforeBack?]

@[simp] theorem between?_trim (front back line : Text) :
    between? front back (Text.trim line) = between? front back line := by
  rw [between?, Text.trim_trim, between?]

@[simp] theorem integer?_trim (line : Text) : integer? (Text.trim line) = integer? line := by
  simp only [integer?, Text.trim_trim, Text.mem_trim_iff (rfl : Text.isBlank '.' = false)]

@[simp] theorem double?_trim (line : Text) : double? (Text.trim line) = double? line := by
  rw [double?, Text.trim_trim, double?]

@[simp] theorem bool?_trim (line : Text) : bool? (Text.trim line) = bool? line := by
  rw [bool?, Text.trim_trim, bool?]

@[simp] theorem quoted?_trim (line : Text) : quoted? (Text.trim line) = quoted? line := by
  rw [quoted?, Text.trim_trim, quoted?]

mutual

/-- A form accepts a line iff it accepts what trimming leaves of it. -/
theorem accepts_trim : ∀ (f : Form), (∀ token ∈ f.separators, Text.trim token = token) →
    ∀ line, f.accepts (Text.trim line) = f.accepts line
  | .blank, _, line => by rw [accepts, Text.isBlankText_trim, accepts]
  | .integer, _, line => by rw [accepts_integer, integer?_trim, accepts_integer]
  | .double, _, line => by rw [accepts, double?_trim, accepts]
  | .bool, _, line => by rw [accepts, bool?_trim, accepts]
  | .quoted, _, line => by rw [accepts, quoted?_trim, accepts]
  | .identifier, _, line => by rw [accepts, Text.trim_trim, accepts]
  | .text, _, _ => rfl
  | .leading token inner, _, line => by rw [accepts, afterFront?_trim, accepts]
  | .trailing token inner, _, line => by rw [accepts, beforeBack?_trim, accepts]
  | .separated token inner, h, line => by
    rw [separators, List.forall_mem_cons] at h
    rw [accepts, accepts, fragments_trim h.1]
    by_cases hne : token = []
    · simp [hne]
    · rw [Text.occurs_trim ⟨hne, h.1⟩]
  | .enclosed front back inner, _, line => by rw [accepts, between?_trim, accepts]
  | .fallback inner, _, line => by rw [accepts, Text.isBlankText_trim, Text.trim_trim, accepts]
  | .verbatim inner, h, line => by
    rw [accepts, accepts]
    exact accepts_trim inner h line
  | .firstOf alternatives, h, line => by
    rw [accepts, accepts]
    exact anyAccepts_trim alternatives h line

theorem anyAccepts_trim : ∀ (fs : List Form), (∀ token ∈ separatorsOf fs, Text.trim token = token) →
    ∀ line, anyAccepts fs (Text.trim line) = anyAccepts fs line
  | [], _, _ => rfl
  | f :: fs, h, line => by
    rw [separatorsOf, List.forall_mem_append] at h
    rw [anyAccepts, anyAccepts, accepts_trim f h.1 line, anyAccepts_trim fs h.2 line]

end

/-- A form that cuts something off a line, or splits it, reads the trimmed line alike. -/
theorem read?_eq_of_parse (haccepts : f.accepts (Text.trim line) = f.accepts line)
    (hparse : f.accepts line = true → f.parse (Text.trim line) = f.parse line) :
    f.read? (Text.trim line) = f.read? line := by
  cases h : f.accepts line with
  | false => rw [read?_of_not_accepts h, read?_of_not_accepts (haccepts.trans h)]
  | true => exact read?_of_parse (hparse h)

mutual

/-- A form that does not keep a line as it is reads it as it reads what trimming leaves of it. -/
theorem read?_trim : ∀ (f : Form), f.IgnoresPadding →
    ∀ line, f.read? (Text.trim line) = f.read? line
  | .blank, h, line => by
    refine read?_eq_of_parse (accepts_trim _ h.trim_separator line) fun haccepts => ?_
    rw [accepts] at haccepts
    rw [parse, parse, Text.isBlankText_trim, if_pos haccepts, if_pos haccepts]
  | .integer, _, line => by rw [read?_integer, integer?_trim, read?_integer]
  | .double, _, line => by rw [read?_double, double?_trim, read?_double]
  | .bool, _, line => by rw [read?_bool, bool?_trim, read?_bool]
  | .quoted, _, line => by rw [read?_quoted, quoted?_trim, read?_quoted]
  | .identifier, _, line => by rw [read?_identifier, Text.trim_trim, read?_identifier]
  | .text, h, _ => by cases h.not_keepsBlanks
  | .leading token inner, _, line => by rw [read?_leading, afterFront?_trim, read?_leading]
  | .trailing token inner, _, line => by rw [read?_trailing, beforeBack?_trim, read?_trailing]
  | .separated token inner, h, line => by
    have htrim := accepts_trim _ h.trim_separator line
    refine read?_eq_of_parse htrim fun haccepts => ?_
    have htoken := h.trim_separator token List.mem_cons_self
    rw [parse, parse, if_pos haccepts, if_pos (htrim.trans haccepts), fragments_trim htoken]
  | .enclosed front back inner, _, line => by rw [read?_enclosed, between?_trim, read?_enclosed]
  | .fallback inner, h, line => by
    have htrim := accepts_trim _ h.trim_separator line
    refine read?_eq_of_parse htrim fun haccepts => ?_
    rw [parse, parse, if_pos haccepts, if_pos (htrim.trans haccepts), Text.trim_trim]
  | .verbatim inner, h, line => by
    have htrim : inner.accepts (Text.trim line) = inner.accepts line :=
      accepts_trim inner h.trim_separator line
    refine read?_eq_of_parse htrim fun haccepts => ?_
    rw [accepts] at haccepts
    rw [parse, parse, if_pos haccepts, if_pos (htrim.trans haccepts), Text.trim_trim]
  | .firstOf alternatives, h, line =>
    read?_firstOf_trim alternatives h.trim_separator h.not_keepsBlanks line

theorem read?_firstOf_trim : ∀ (fs : List Form),
    (∀ token ∈ separatorsOf fs, Text.trim token = token) → anyKeepsBlanks fs = false →
    ∀ line, (firstOf fs).read? (Text.trim line) = (firstOf fs).read? line
  | [], _, _, _ => rfl
  | f :: fs, hseparators, hkeeps, line => by
    rw [separatorsOf, List.forall_mem_append] at hseparators
    rw [anyKeepsBlanks, Bool.or_eq_false_iff] at hkeeps
    rw [read?_firstOf_cons, read?_firstOf_cons, read?_trim f ⟨hseparators.1, hkeeps.1⟩ line,
      read?_firstOf_trim fs hseparators.2 hkeeps.2 line]

end

end Form

/-! ## Languages -/

section

variable {α : Type}

/-- A construct takes a line as it takes what trimming leaves of it. -/
theorem Construct.take?_trim {c : Construct α} (h : c.form.IgnoresPadding) (line : Text) :
    c.take? (Text.trim line) = c.take? line := by
  have htrim : c.accepts (Text.trim line) = c.accepts line :=
    c.form.accepts_trim h.trim_separator line
  by_cases haccepts : c.accepts line = true
  · obtain ⟨params, hparams⟩ := c.form.parse_of_accepts haccepts
    have hread : c.form.parse (Text.trim line) = .ok params := by
      rw [← Form.read?_eq_some_iff, Form.read?_trim _ h, Form.read?_eq_some_iff, hparams]
    rw [take?_eq_build haccepts hparams, take?_eq_build (htrim.trans haccepts) hread]
  · rw [Bool.not_eq_true] at haccepts
    rw [take?_eq_none_of_not_accepts haccepts,
      take?_eq_none_of_not_accepts (htrim.trans haccepts)]

theorem Language.take?_trim {l : Language α} (h : ∀ c ∈ l, c.form.IgnoresPadding) (line : Text) :
    l.take? (Text.trim line) = l.take? line := by
  induction l with
  | nil => rfl
  | cons c l ih =>
    obtain ⟨hc, hl⟩ := List.forall_mem_cons.1 h
    rw [take?, take?, Construct.take?_trim hc, ih hl]

/-- A language reads a line as it reads what trimming leaves of it, and fails on it alike. -/
theorem Language.parse_trim {l : Language α} (h : ∀ c ∈ l, c.form.IgnoresPadding) (line : Text) :
    l.parse (Text.trim line) = l.parse line := by
  rw [parse, parse, Language.take?_trim h, Text.trim_trim]

end

theorem Expression.parse_trim (text : Text) :
    Expression.parse (Text.trim text) = Expression.parse text := by
  refine Language.parse_trim (fun c hc => ?_) text
  simp only [Expression.language, List.mem_cons, List.not_mem_nil, or_false] at hc
  rcases hc with rfl | rfl | rfl | rfl | rfl | rfl | rfl | rfl
  all_goals exact ⟨by decide, rfl⟩

theorem Statement.parse_trim (line : Text) :
    Statement.parse (Text.trim line) = Statement.parse line := by
  refine Language.parse_trim (fun c hc => ?_) line
  simp only [Statement.language, List.mem_cons, List.not_mem_nil, or_false] at hc
  rcases hc with rfl | rfl | rfl | rfl | rfl
  all_goals exact ⟨by decide, rfl⟩

namespace Command

variable {template : Text} {lines lines' : List Text}

/-- Lines that trimming leaves the same of are folded alike. -/
theorem Fold.lines_congr (h : lines.map Text.trim = lines'.map Text.trim) (f : Fold)
    (number : Nat) : Fold.lines template f number lines = Fold.lines template f number lines' := by
  induction lines generalizing f number lines' with
  | nil => rw [List.map_eq_nil_iff.1 h.symm]
  | cons line lines ih =>
    cases lines' with
    | nil => cases h
    | cons line' lines' =>
      obtain ⟨hline, hlines⟩ := List.cons.inj h
      rw [Fold.lines, Fold.lines, ← Statement.parse_trim line, hline, Statement.parse_trim]
      simp only [ih hlines]

theorem compile_congr (h : lines.map Text.trim = lines'.map Text.trim) :
    compile template lines = compile template lines' := by
  rw [compile, compile, Fold.lines_congr h]

end Command

/-- **Blanks around a line decide nothing.** Take a form in which no separator begins or ends
with a blank, and which does not keep its line as it is. It accepts a line between any blanks
iff it accepts the trimmed line, and then carries the same parameters. So an expression between
blanks is the same expression, a template line between blanks the same statement, and a template
with that line the same commands; what is not read fails in the same way. -/
theorem Form.padding_decides_nothing {f : Form}
    (hseparators : ∀ token ∈ f.separators, Text.trim token = token)
    (hkeeps : f.keepsBlanks = false) {w w' : Text} (hw : w.all Text.isBlank = true)
    (hw' : w'.all Text.isBlank = true) (line : Text) :
    f.accepts (w ++ line ++ w') = f.accepts (Text.trim line) ∧
    (∀ params, f.parse (w ++ line ++ w') = .ok params ↔ f.parse (Text.trim line) = .ok params) ∧
    Expression.parse (w ++ line ++ w') = Expression.parse line ∧
    Statement.parse (w ++ line ++ w') = Statement.parse line ∧
    ∀ template before behind, Command.compile template (before ++ (w ++ line ++ w') :: behind) =
      Command.compile template (before ++ line :: behind) := by
  have htrim : Text.trim (w ++ line ++ w') = Text.trim line := Text.trim_append_append hw hw' line
  refine ⟨?_, fun params => ?_, ?_, ?_, fun template before behind => ?_⟩
  · rw [← f.accepts_trim hseparators, htrim]
  · rw [← read?_eq_some_iff, ← f.read?_trim ⟨hseparators, hkeeps⟩, htrim, read?_eq_some_iff]
  · rw [← Expression.parse_trim, htrim, Expression.parse_trim]
  · rw [← Statement.parse_trim, htrim, Statement.parse_trim]
  · refine Command.compile_congr ?_
    rw [List.map_append, List.map_append, List.map_cons, List.map_cons, htrim]

/-- A declaration between blanks is still one. -/
theorem Expression.padded_declaration :
    (∀ token ∈ (Expression.declaration .int).form.separators, Text.trim token = token) ∧
    (Expression.declaration .int).form.keepsBlanks = false ∧
    (Expression.declaration .int).form.accepts "\u00a0 int n\t".toList = true := by
  have hseparators : ∀ token ∈ (Expression.declaration .int).form.separators,
      Text.trim token = token := by decide
  have hw : "\u00a0 ".toList.all Text.isBlank = true := by decide
  have hw' : ['\t'].all Text.isBlank = true := by decide
  have hpadded := Form.padding_decides_nothing hseparators rfl hw hw' "int n".toList
  exact ⟨hseparators, rfl, hpadded.1.trans (by decide)⟩

end Stencil
