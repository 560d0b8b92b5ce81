import Mathlib.Data.List.TakeWhile
import Stencil.Render
import Stencil.Proofs.Contents
import Stencil.Proofs.Paths

/-!
# Copies of static templates

A text without carriage returns is its lines written one under the other, but for the line feed
that its last line may lack. A template without markers is copied line by line, so its copy is
the text it was read from. Only a first line that declares the file type is left out.

## Main definitions

* `Text.firstLine`, `Text.behindFirstLine`: a text at its first line feed.
* `Text.terminated`: a text with a line feed behind its last line.
* `Template.DeclaresType`: sources whose first line declares a file type.
-/
namespace Stencil

/-! ## Texts and their lines -/

namespace Text

variable {l t : Text}

/-- The text up to its first line feed. -/
def firstLine (t : Text) : Text := t.takeWhile (· ≠ '\n')

/-- The text behind its first line feed. -/
def behindFirstLine (t : Text) : Text := (t.dropWhile (· ≠ '\n')).drop 1

/-- The text with a line feed behind its last line, if that lacks one. -/
def terminated (t : Text) : Text :=
  t ++ if t ≠ [] ∧ t.getLast? ≠ some '\n' then ['\n'] else []

@[simp] theorem terminated_nil : terminated [] = [] := rfl

theorem ne_feed_of_mem (h : '\n' ∉ l) : ∀ c ∈ l, decide (c ≠ '\n') = true := by
  intro c hc
  have hne : c ≠ '\n' := by
    rintro rfl
    exact h hc
  exact decide_eq_true hne

theorem firstLine_append_feed (h : '\n' ∉ l) (t : Text) : firstLine (l ++ '\n' :: t) = l := by
  rw [firstLine, List.takeWhile_append_of_pos (ne_feed_of_mem h)]
  simp

theorem behindFirstLine_append_feed (h : '\n' ∉ l) (t : Text) :
    behindFirstLine (l ++ '\n' :: t) = t := by
  rw [behindFirstLine, List.dropWhile_append_of_pos (ne_feed_of_mem h)]
  simp

theorem firstLine_of_not_mem (h : '\n' ∉ t) : firstLine t = t := by
  rw [firstLine, List.takeWhile_eq_self_iff]
  exact ne_feed_of_mem h

theorem behindFirstLine_of_not_mem (h : '\n' ∉ t) : behindFirstLine t = [] := by
  rw [behindFirstLine, List.dropWhile_eq_nil_iff.2 (ne_feed_of_mem h), List.drop_nil]

/-- A text without line feeds is one piece. -/
theorem pieces_of_not_mem (h : '\n' ∉ t) (hne : t ≠ []) : pieces t = [t] := by
  induction t with
  | nil => exact absurd rfl hne
  | cons c t ih =>
    rw [List.mem_cons, not_or] at h
    have hc : ¬ c = '\n' := Ne.symm h.1
    by_cases ht : t = []
    · simp [ht, putInFront, hc]
    · rw [pieces_cons, ih h.2 ht, putInFront, if_neg hc]

theorem lines_of_not_mem (h : '\n' ∉ t) (hne : t ≠ []) : lines t = [t] := by
  have hlast : t.getLast? ≠ some '\n' := fun he => h (List.mem_of_getLast? he)
  simp [lines, pieces_of_not_mem h hne, lineOfPiece, completed?, hlast]

/-- Without a carriage return in it, what stands before a line feed is a line. -/
theorem lines_append_feed (h : '\n' ∉ l) (hcr : '\r' ∉ l) (t : Text) :
    lines (l ++ '\n' :: t) = l :: lines t := by
  have hlast : l.getLast? ≠ some '\r' := fun he => hcr (List.mem_of_getLast? he)
  simp [lines, pieces_append_feed h, lineOfPiece, completed?, hlast]

theorem lines_eq_cons (hcr : '\r' ∉ t) (hne : t ≠ []) :
    lines t = firstLine t :: lines (behindFirstLine t) := by
  induction t using parts_induction (c := '\n') with
  | last t ht =>
    rw [lines_of_not_mem ht hne, firstLine_of_not_mem ht, behindFirstLine_of_not_mem ht]
    rfl
  | more l rest hl _ =>
    have hl' : '\r' ∉ l := fun h => hcr (List.mem_append_left _ h)
    rw [lines_append_feed hl hl', firstLine_append_feed hl, behindFirstLine_append_feed hl]

theorem terminated_append_feed (l t : Text) :
    terminated (l ++ '\n' :: t) = l ++ '\n' :: terminated t := by
  by_cases ht : t = []
  · simp [ht, terminated]
  · have hlast : (l ++ '\n' :: t).getLast? = t.getLast? := by
      rw [List.append_cons, List.getLast?_append,
        Option.or_of_isSome (List.getLast?_isSome.2 ht)]
    simp [terminated, hlast, ht]

/-- A text without carriage returns is regained from its lines. -/
theorem unlines_lines (hcr : '\r' ∉ t) : unlines (lines t) = terminated t := by
  -- Along the line feeds: each line is written with its own, and the last one gets one.
  induction t using parts_induction (c := '\n') with
  | last t ht =>
    by_cases hne : t = []
    · simp [hne, lines, unlines]
    · have hlast : t.getLast? ≠ some '\n' := fun he => ht (List.mem_of_getLast? he)
      simp [lines_of_not_mem ht hne, unlines, terminated, hne, hlast]
  | more l rest hl ih =>
    rw [List.mem_append, not_or] at hcr
    have hrest : '\r' ∉ rest := fun h => hcr.2 (List.mem_cons_of_mem _ h)
    have ih := ih hrest
    rw [lines_append_feed hl hcr.1, terminated_append_feed, ← ih]
    simp [unlines]

/-- A line of a text stands in the text. -/
theorem isInfix_of_mem_lines (h : l ∈ lines t) : l <:+: t := by
  obtain ⟨piece, hpiece, rfl⟩ := List.mem_map.1 h
  have hline : lineOfPiece piece <+: piece := by
    unfold lineOfPiece completed?
    by_cases hfeed : piece.getLast? = some '\n'
    · by_cases hreturn : piece.dropLast.getLast? = some '\r'
      · simpa [hfeed, hreturn] using (List.dropLast_prefix _).trans (List.dropLast_prefix piece)
      · simpa [hfeed, hreturn] using List.dropLast_prefix piece
    · simp [hfeed]
  have htext : piece <:+: (pieces t).flatten := List.infix_of_mem_flatten hpiece
  rw [flatten_pieces] at htext
  exact hline.isInfix.trans htext

end Text

/-! ## Static templates -/

namespace Template

variable {name source type : Text} {fileType? : Option Text} {t : Template}

/-- The first line of a source is, trimmed, `#filetype` and then the type, which is not blank. -/
def DeclaresType (source type : Text) : Prop :=
  ∃ rest, Text.trim (Text.firstLine source) = "#filetype".toList ++ rest ∧
    Text.isBlankText rest = false ∧ Text.trim rest = type

theorem declared?_eq_some_iff {line : Text} :
    declared? line = some type ↔ ∃ rest, Text.trim line = "#filetype".toList ++ rest ∧
      Text.isBlankText rest = false ∧ Text.trim rest = type := by
  constructor
  · intro h
    unfold declared? at h
    split at h
    · cases h
    · next rest hrest =>
      refine ⟨rest, Text.dropFront?_eq_some_iff.1 hrest, ?_⟩
      by_cases hblank : (Text.trim rest).isEmpty = true
      · simp [hblank] at h
      · simpa [Text.isBlankText, hblank] using h
  · rintro ⟨rest, hline, hblank, rfl⟩
    have hdrop := Text.dropFront?_eq_some_iff.2 hline
    rw [Text.isBlankText] at hblank
    rw [declared?, hdrop]
    simp only [hblank, Bool.false_eq_true, if_false]

/-- The type that a source declares is read from the first of its lines. -/
theorem declaresType_iff (hcr : '\r' ∉ source) :
    DeclaresType source type ↔ (Text.lines source).head?.bind declared? = some type := by
  by_cases hne : source = []
  · subst hne
    constructor
    · rintro ⟨rest, hline, -⟩
      cases hline
    · intro h
      cases h
  · rw [Text.lines_eq_cons hcr hne, List.head?_cons, Option.bind_some, declared?_eq_some_iff,
      DeclaresType]

/-- A source that declares its type is a template without its first line. -/
theorem ofSource_of_declaresType (hcr : '\r' ∉ source) (h : DeclaresType source type) :
    ofSource name source fileType? =
      .ok ⟨name, type, Text.lines (Text.behindFirstLine source)⟩ := by
  have hhead := (declaresType_iff hcr).1 h
  have hne : source ≠ [] := by
    rintro rfl
    cases hhead
  have htail : (Text.lines source).tail = Text.lines (Text.behindFirstLine source) := by
    rw [Text.lines_eq_cons hcr hne, List.tail_cons]
  simp only [ofSource, hhead, htail]

/-- Any other source is a template of the given type, with all its lines. -/
theorem ofSource_of_not_declaresType (hcr : '\r' ∉ source) (h : ¬ ∃ type, DeclaresType source type)
    (hsource : ofSource name source fileType? = .ok t) :
    ∃ type, fileType? = some type ∧ t = ⟨name, type, Text.lines source⟩ := by
  have hhead : (Text.lines source).head?.bind declared? = none := by
    rw [Option.eq_none_iff_forall_ne_some]
    intro type htype
    exact h ⟨type, (declaresType_iff hcr).2 htype⟩
  cases fileType? with
  | none => simp [ofSource, hhead] at hsource
  | some type =>
    refine ⟨type, rfl, ?_⟩
    simpa [ofSource, hhead, eq_comm] using hsource

/-- A template without markers is copied: nothing is evaluated and no file is opened. -/
theorem render_of_static (h : ∀ line ∈ t.lines, Marker.occursIn line = false) (tables : List Table)
    (newFile : Text → Except Error CodeFile) (s : Store) :
    t.render tables newFile s = .ok [t.copy] s := by
  have hstatic : t.isDynamic = false := by simpa [isDynamic] using h
  simp [render, compile, hstatic]

/-- No line of a text has a marker that the text does not have. -/
theorem not_occursIn_of_mem_lines (h : Text.occurs Marker.opening source = false) {line : Text}
    (hline : line ∈ Text.lines source) : Marker.occursIn line = false := by
  rw [Text.occurs_eq_false_iff] at h
  rw [Marker.occursIn, Text.occurs_eq_false_iff]
  intro hopen
  exact h (hopen.trans (Text.isInfix_of_mem_lines hline))

/-- **A static template is copied verbatim.** Take a source with neither markers nor carriage
returns from which a template is made. Whatever the tables, the indentation rules and the store,
it renders as one file, for no table, and leaves the store as it was. If the first line declares
a file type, the file is of that type and holds the text behind that line. Otherwise it is of
the type that was given, and holds the whole text. In both cases a line feed is added if the
text is not empty and does not end in one, and nothing else is changed. -/
theorem static_copied_verbatim (hmarker : Text.occurs Marker.opening source = false)
    (hcr : '\r' ∉ source) (hsource : ofSource name source fileType? = .ok t)
    (tables : List Table) (newFile : Text → Except Error CodeFile) (s : Store) :
    (∀ type, DeclaresType source type →
      t.render tables newFile s =
        .ok [⟨name, none, type, Text.terminated (Text.behindFirstLine source)⟩] s) ∧
    ((¬ ∃ type, DeclaresType source type) → ∃ type, fileType? = some type ∧
      t.render tables newFile s = .ok [⟨name, none, type, Text.terminated source⟩] s) := by
  have hstatic : ∀ line ∈ Text.lines source, Marker.occursIn line = false :=
    fun line => not_occursIn_of_mem_lines hmarker
  constructor
  · intro type hdeclares
    have hsuffix : Text.behindFirstLine source <:+ source :=
      (List.drop_suffix _ _).trans (List.dropWhile_suffix _)
    have hcr' : '\r' ∉ Text.behindFirstLine source := fun h => hcr (hsuffix.subset h)
    have hlines : ∀ line ∈ Text.lines (Text.behindFirstLine source),
        Marker.occursIn line = false := by
      intro line hline
      refine not_occursIn_of_mem_lines ?_ hline
      rw [Text.occurs_eq_false_iff] at hmarker ⊢
      intro hopen
      exact hmarker (hopen.trans hsuffix.isInfix)
    rw [ofSource_of_declaresType hcr hdeclares] at hsource
    cases hsource
    rw [render_of_static hlines, copy, Text.unlines_lines hcr']
  · intro hnone
    obtain ⟨type, hgiven, rfl⟩ := ofSource_of_not_declaresType hcr hnone hsource
    refine ⟨type, hgiven, ?_⟩
    rw [render_of_static hstatic, copy, Text.unlines_lines hcr]

/-- A source that declares its type, and has blank lines and blanks around a line. -/
def declaringSource : Text := "#filetype cs\n\n  class A \n\tb".toList

/-- Below its declaration a source keeps its blank lines and the blanks around its lines. Its
last line gets the line feed that it lacks. -/
theorem static_copied_verbatim_declaring :
    Text.occurs Marker.opening declaringSource = false ∧ '\r' ∉ declaringSource ∧
    ofSource ['A'] declaringSource none =
      .ok ⟨['A'], ['c', 's'], [[], "  class A ".toList, "\tb".toList]⟩ ∧
    DeclaresType declaringSource ['c', 's'] ∧
    (⟨['A'], ['c', 's'], [[], "  class A ".toList, "\tb".toList]⟩ : Template).render
        [⟨['t'], []⟩] (fun _ => .error .io) Store.empty =
      .ok [⟨['A'], none, ['c', 's'], "\n  class A \n\tb\n".toList⟩] Store.empty := by
  have hmarker : Text.occurs Marker.opening declaringSource = false := by decide +kernel
  have hcr : '\r' ∉ declaringSource := by decide +kernel
  have hsource : ofSource ['A'] declaringSource none =
      .ok ⟨['A'], ['c', 's'], [[], "  class A ".toList, "\tb".toList]⟩ := by decide +kernel
  have hdeclares : DeclaresType declaringSource ['c', 's'] :=
    ⟨" cs".toList, by decide +kernel, by decide +kernel, by decide +kernel⟩
  have hrest : Text.terminated (Text.behindFirstLine declaringSource) =
      "\n  class A \n\tb\n".toList := by decide +kernel
  have hrender := (static_copied_verbatim hmarker hcr hsource [⟨['t'], []⟩]
    (fun _ => .error .io) Store.empty).1 ['c', 's'] hdeclares
  rw [hrest] at hrender
  exact ⟨hmarker, hcr, hsource, hdeclares, hrender⟩

end Template

end Stencil
