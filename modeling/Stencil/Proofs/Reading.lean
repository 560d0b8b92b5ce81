import Stencil.Proofs.Marker
import Stencil.Proofs.Steps
import Stencil.Statement

/-!
# How reading fails

A form reads exactly the lines that it accepts; on any other line it fails with a
mismatch in its own name. So a language fails only by a rule of one of its
constructs, or because it does not know the line. A template line then fails in
one of three ways: its markers do not pair up, they nest, or an expression is
unknown. None of these failures has a location yet.
-/
namespace Stencil

namespace Form

theorem parseAll_isOk {parse : Text → Except Error (List Param)} {parts : List Text}
    (h : ∀ part ∈ parts, ∃ params, parse part = .ok params) :
    ∃ params, parseAll parse parts = .ok params := by
  induction parts with
  | nil => exact ⟨[], rfl⟩
  | cons part parts ih =>
    obtain ⟨params, hpart⟩ := h part (by simp)
    obtain ⟨more, hparts⟩ := ih fun p hp => h p (by simp [hp])
    refine ⟨params ++ more, ?_⟩
    rw [parseAll, hpart, hparts]
    rfl

/-- The test of integers looks for a point in the trimmed line, and reading one in the whole
line, which comes to the same. -/
theorem accepts_integer (line : Text) : accepts .integer line = (integer? line).isSome := by
  rw [accepts, integer?]
  by_cases h : '.' ∈ line
  · have htrim : '.' ∈ Text.trim line := (Text.mem_trim_iff rfl).2 h
    simp [h, htrim]
  · have htrim : '.' ∉ Text.trim line := fun hmem => h ((Text.mem_trim_iff rfl).1 hmem)
    simp [h, htrim]

mutual

/-- A form reads every line that it accepts. -/
theorem parse_of_accepts : ∀ (f : Form) {line : Text}, f.accepts line = true →
    ∃ params, f.parse line = .ok params
  | .blank, _, h => ⟨[], by simp_all [accepts, parse]⟩
  | .integer, _, h => by
    rw [accepts_integer] at h
    obtain ⟨n, hn⟩ := Option.isSome_iff_exists.1 h
    exact ⟨_, by rw [parse, hn]⟩
  | .double, _, h => by
    obtain ⟨x, hx⟩ := Option.isSome_iff_exists.1 h
    exact ⟨_, by rw [parse, hx]⟩
  | .bool, _, h => by
    obtain ⟨b, hb⟩ := Option.isSome_iff_exists.1 h
    exact ⟨_, by rw [parse, hb]⟩
  | .quoted, _, h => by
    obtain ⟨t, ht⟩ := Option.isSome_iff_exists.1 h
    exact ⟨_, by rw [parse, ht]⟩
  | .identifier, line, h => by
    rw [accepts] at h
    exact ⟨_, by rw [parse, if_pos h]⟩
  | .text, _, _ => ⟨_, rfl⟩
  | .leading token inner, line, h => by
    rw [accepts] at h
    rw [parse]
    split at h
    · rw [if_pos h]
      exact parse_of_accepts inner h
    · cases h
  | .trailing token inner, line, h => by
    rw [accepts] at h
    rw [parse]
    split at h
    · rw [if_pos h]
      exact parse_of_accepts inner h
    · cases h
  | .separated token inner, line, h => by
    rw [parse, if_pos h]
    rw [accepts] at h
    have hall : ∀ part ∈ fragments token line, inner.accepts part = true := by simp_all
    exact parseAll_isOk fun part hpart => parse_of_accepts inner (hall part hpart)
  | .enclosed front back inner, line, h => by
    rw [accepts] at h
    rw [parse]
    split at h
    · rw [if_pos h]
      exact parse_of_accepts inner h
    · cases h
  | .fallback inner, line, h => by
    rw [parse, if_pos h]
    rw [accepts] at h
    exact parse_of_accepts inner (by simp_all)
  | .verbatim inner, line, h => by
    rw [accepts] at h
    exact ⟨_, by rw [parse, if_pos h]⟩
  | .firstOf alternatives, line, h => by
    obtain ⟨params, hparams⟩ := parseFirst?_of_anyAccepts alternatives h
    exact ⟨params, by rw [parse, hparams]⟩

/-- Some alternative reads a line that one of them accepts. -/
theorem parseFirst?_of_anyAccepts : ∀ (fs : List Form) {line : Text}, anyAccepts fs line = true →
    ∃ params, parseFirst? fs line = some (.ok params)
  | [], _, h => by cases h
  | f :: fs, line, h => by
    by_cases hf : f.accepts line = true
    · obtain ⟨params, hparams⟩ := parse_of_accepts f hf
      exact ⟨params, by rw [parseFirst?, if_pos hf, hparams]⟩
    · rw [parseFirst?, if_neg hf]
      exact parseFirst?_of_anyAccepts fs (by simp_all [anyAccepts])

end

theorem parseFirst?_eq_none {fs : List Form} {line : Text} (h : anyAccepts fs line = false) :
    parseFirst? fs line = none := by
  induction fs with
  | nil => rfl
  | cons f fs ih => simp_all [anyAccepts, parseFirst?]

/-- A line that a form does not accept is a mismatch in the form's own name. -/
theorem parse_of_not_accepts (f : Form) {line : Text} (h : f.accepts line = false) :
    f.parse line = .error (.mismatch f.name line) := by
  cases f with
  | firstOf alternatives => simp_all [accepts, parse, parseFirst?_eq_none]
  | integer =>
    rw [accepts_integer, Option.isSome_eq_false_iff, Option.isNone_iff_eq_none] at h
    rw [parse, h]
  | _ =>
    simp only [accepts] at h
    simp only [parse]
    grind [accepts]

end Form

/-! ## Languages -/

/-- A construct fails only by its rule, since its form reads what it accepts. -/
theorem Construct.take?_error {α : Type} {c : Construct α} {line : Text} {e : Error}
    (h : c.take? line = .error e) : ∃ params, c.build params = .error e := by
  rw [take?] at h
  split at h
  · next haccepts =>
    obtain ⟨params, hparams⟩ := c.form.parse_of_accepts haccepts
    exact ⟨params, by simpa [hparams] using h⟩
  · cases h

theorem Language.take?_error {α : Type} {l : Language α} {line : Text} {e : Error}
    (h : l.take? line = .error e) : ∃ c ∈ l, ∃ params, c.build params = .error e := by
  induction l with
  | nil => cases h
  | cons c l ih =>
    rw [take?] at h
    split at h
    · obtain ⟨c', hc', params, hparams⟩ := ih h
      exact ⟨c', by simp [hc'], params, hparams⟩
    · obtain ⟨params, hparams⟩ := Construct.take?_error h
      exact ⟨c, by simp, params, hparams⟩

/-- A language fails on a line that it does not know, or by the rule of a construct. -/
theorem Language.parse_error {α : Type} {l : Language α} {line : Text} {e : Error}
    (h : l.parse line = .error e) :
    e = .unknownCommand (Text.trim line) ∨ ∃ c ∈ l, ∃ params, c.build params = .error e := by
  rw [parse] at h
  split at h
  · cases h
  · exact .inl (Except.error.inj h).symm
  · next he =>
    cases h
    exact .inr (Language.take?_error he)

/-! ## Expressions and lines -/

theorem Expression.parse_error {text : Text} {e : Error} (h : Expression.parse text = .error e) :
    e = .unknownCommand (Text.trim text) := by
  rcases Language.parse_error h with he | ⟨c, hc, params, hparams⟩
  · exact he
  · simp only [Expression.language, List.mem_cons, List.not_mem_nil, or_false] at hc
    rcases hc with rfl | rfl | rfl | rfl | rfl | rfl | rfl | rfl <;> cases hparams

/-- The ways in which a template line is not read. -/
inductive Unread : Error → Prop
  | unterminated (line : Text) : Unread (.unterminatedMarker line)
  | nested (line : Text) : Unread (.nestedMarker line)
  | unknown (text : Text) : Unread (.unknownCommand text)

/-- A failure without a location gets the one it is given. -/
theorem Unread.locate {e : Error} (h : Unread e) (template : Text) (line : Nat) :
    e.locate template line = .located template line e := by
  cases h <;> rfl

theorem Piece.ofPart_error {part : Marker.Part} {e : Error} (h : Piece.ofPart part = .error e) :
    Unread e := by
  cases part with
  | fixed => cases h
  | dynamic text =>
    rw [Expression.parse_error (Steps.map_eq_error_iff.1 h)]
    exact .unknown _

theorem Line.piecesOf_error {parts : List Marker.Part} {e : Error}
    (h : Line.piecesOf parts = .error e) : Unread e := by
  induction parts with
  | nil => cases h
  | cons part parts ih =>
    rw [piecesOf, Steps.bind_eq_error_iff] at h
    rcases h with h | ⟨piece, -, h⟩
    · exact Piece.ofPart_error h
    · rw [Steps.bind_eq_error_iff] at h
      rcases h with h | ⟨pieces, -, h⟩
      · exact ih h
      · cases h

theorem Line.compile_error {raw : Text} {e : Error} (h : Line.compile raw = .error e) :
    Unread e := by
  rw [compile, Steps.bind_eq_error_iff] at h
  rcases h with h | ⟨parts, -, h⟩
  · rcases Marker.partsOf_error h with rfl | rfl
    · exact .unterminated _
    · exact .nested _
  · rw [Steps.bind_eq_error_iff] at h
    rcases h with h | ⟨pieces, -, h⟩
    · exact piecesOf_error h
    · cases h

/-- A template line is not read for one of three reasons. -/
theorem Statement.parse_error {line : Text} {e : Error} (h : Statement.parse line = .error e) :
    Unread e := by
  rcases Language.parse_error h with rfl | ⟨c, hc, params, hparams⟩
  · exact .unknown _
  · simp only [Statement.language, List.mem_cons, List.not_mem_nil, or_false] at hc
    rcases hc with rfl | rfl | rfl | rfl | rfl
    · cases hparams
    · cases hparams
    · cases hparams
    · cases hparams
    · simp only [Statement.ofText] at hparams
      split at hparams
      · exact Line.compile_error (Steps.map_eq_error_iff.1 hparams)
      · cases hparams

end Stencil
