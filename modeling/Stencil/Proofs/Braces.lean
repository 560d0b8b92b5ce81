import Stencil.Proofs.Levels
import Stencil.Proofs.Lowering

/-!
# Levels under the brace rules

A line in a brace language opens a block, closes one, closes one and opens the next, or does
neither. The first rule that accepts it decides, so a line that continues behind a block is left
at its depth by the rule of `else`, and is taken for an opening line by the next rule otherwise.
The level is therefore the number of blocks that are open, and in addition the number of blocks
that were continued in another way than by `else`.

## Main definitions

* `Braces.Shape`, `Braces.shape`: what a line does to the blocks.
* `Braces.blocks`, `Braces.reopened`: the blocks that are open behind some lines, and the
  continuing lines among them that are taken for opening ones.
* `Braces.WellBraced`: trimmed lines that close no block but an open one.
* `Braces.indentation`: the depth of a line.
-/
namespace Stencil.Braces

open Indenter (action? depth levelBehind after)
open IndentRule (braces)

variable {line : Text} {lines : List Text} {level unit i : Nat}

/-! ## Lines and blocks -/

/-- What a line does to the blocks around it. -/
inductive Shape where
  | opening | closing | continuing | plain
  deriving DecidableEq, Repr

/-- The shape of a line, by the braces at its two ends. -/
def shape (line : Text) : Shape :=
  if line.head? = some '\x7d' then
    if line.getLast? = some '\x7b' then .continuing else .closing
  else if line.getLast? = some '\x7b' then .opening else .plain

/-- Whether a line starts with a closing brace and `else`, in either case. -/
def isElse (line : Text) : Bool := (Text.dropFrontAnyCase? "\x7d else".toList line).isSome

/-- The number of open blocks behind a line, from the number of those before it. -/
def blocksBehind (count : Nat) (line : Text) : Nat :=
  match shape line with
  | .opening => count + 1
  | .closing => count - 1
  | .continuing | .plain => count

/-- The number of blocks that are open behind some lines. -/
def blocks (lines : List Text) : Nat := lines.foldl blocksBehind 0

/-- Whether a line continues behind a block in another way than by `else`. -/
def reopens (line : Text) : Bool := shape line = .continuing && !isElse line

/-- How many lines continue behind a block in another way than by `else`. -/
def reopened (lines : List Text) : Nat := lines.countP reopens

/-- Trimmed lines that are not blank, of which none closes a block or continues behind one
where none is open. No line that only closes a block is written as one of `else`. -/
structure WellBraced (lines : List Text) : Prop where
  solid : ∀ line ∈ lines, Text.Solid line
  closing : ∀ line ∈ lines, shape line = .closing → isElse line = false
  inside : ∀ i (h : i < lines.length),
    shape lines[i] = .closing ∨ shape lines[i] = .continuing → 0 < blocks (lines.take i)

/-- The depth at which a line is written, from the level before it. -/
def indentation (level : Nat) (line : Text) : Nat :=
  match shape line with
  | .opening | .plain => level
  | .closing => level - 1
  | .continuing => if isElse line then level - 1 else level

theorem blocks_take_succ (h : i < lines.length) :
    blocks (lines.take (i + 1)) = blocksBehind (blocks (lines.take i)) lines[i] := by
  rw [List.take_succ_eq_append_getElem h, blocks, List.foldl_append]
  rfl

theorem reopened_take_succ (h : i < lines.length) :
    reopened (lines.take (i + 1)) =
      reopened (lines.take i) + if reopens lines[i] = true then 1 else 0 := by
  rw [List.take_succ_eq_append_getElem h, reopened, List.countP_append, reopened]
  simp [List.countP_cons]

/-- Blocks further out stay open. -/
theorem blocksBehind_add {count : Nat} (h : shape line = .closing → 0 < count) (more : Nat) :
    blocksBehind (count + more) line = blocksBehind count line + more := by
  unfold blocksBehind
  cases hshape : shape line with
  | opening => exact Nat.add_right_comm count more 1
  | closing =>
    have hpos := h hshape
    simp only
    omega
  | continuing | plain => rfl

/-! ## What the rules accept -/

theorem accepts_front {text : Text} (hsteady : text.all (decide <| Text.Steady ·) = true)
    (hlower : Text.lower text = text) (hascii : text.map Text.lowerAscii = text) (line : Text) :
    (Matcher.mk .front text false).accepts line = (Text.dropFrontAnyCase? text line).isSome := by
  have hsteady : ∀ c ∈ text, Text.Steady c := by simpa using hsteady
  have hfold : (Matcher.mk .front text false).fold text = text := hlower
  rw [Bool.eq_iff_iff, ← Text.isPrefix_lower_iff hsteady hascii, Matcher.accepts, hfold]
  change (Text.dropFront? text (Text.lower line)).isSome = true ↔ _
  rw [Option.isSome_iff_exists]
  constructor
  · rintro ⟨rest, hrest⟩
    exact ⟨rest, (Text.dropFront?_eq_some_iff.1 hrest).symm⟩
  · rintro ⟨rest, hrest⟩
    exact ⟨rest, Text.dropFront?_eq_some_iff.2 hrest.symm⟩

theorem accepts_else (line : Text) :
    (Matcher.mk .front "\x7d else".toList false).accepts line = isElse line :=
  accepts_front rfl rfl rfl line

theorem accepts_opening (line : Text) :
    (Matcher.mk .back ['\x7b'] false).accepts line = true ↔ line.getLast? = some '\x7b' := by
  have hfold : (Matcher.mk .back ['\x7b'] false).fold ['\x7b'] = ['\x7b'] := rfl
  have hsteady : Text.Steady '\x7b' := by decide
  rw [← Text.getLast?_lower_iff hsteady (by decide), Matcher.accepts, hfold]
  change (Text.dropBack? ['\x7b'] (Text.lower line)).isSome = true ↔ _
  rw [Option.isSome_iff_exists, List.getLast?_eq_some_iff]
  simp only [Text.dropBack?_eq_some_iff]

/-- A text that starts with a closing brace is only found in front of a line that does. -/
theorem head?_of_dropFrontAnyCase? {token : Text}
    (h : (Text.dropFrontAnyCase? ('\x7d' :: token) line).isSome = true) :
    line.head? = some '\x7d' := by
  rw [Option.isSome_iff_exists] at h
  obtain ⟨rest, hrest⟩ := h
  obtain ⟨k, rfl, hk⟩ := Text.dropFrontAnyCase?_eq_some_iff.1 hrest
  rw [Text.sameLetters_iff, List.map_cons] at hk
  obtain ⟨b, k, rfl, hb, -⟩ := List.map_eq_cons_iff.1 hk
  have hbrace : b = '\x7d' := Text.eq_of_lowerAscii_eq (by decide) hb
  simp [hbrace]

theorem head?_of_isElse (h : isElse line = true) : line.head? = some '\x7d' :=
  head?_of_dropFrontAnyCase? h

/-- A closing brace in front is found, be it alone or with a semicolon behind it. -/
theorem accepts_closing (line : Text) :
    ((Matcher.mk .front "\x7d;".toList false).accepts line = true ∨
      (Matcher.mk .front ['\x7d'] false).accepts line = true) ↔ line.head? = some '\x7d' := by
  rw [accepts_front rfl rfl rfl, accepts_front rfl rfl rfl]
  constructor
  · rintro (h | h)
    · exact head?_of_dropFrontAnyCase? h
    · exact head?_of_dropFrontAnyCase? h
  · intro h
    obtain ⟨rest, rfl⟩ := List.head?_eq_some_iff.1 h
    exact .inr rfl

/-- The first rule that accepts a line, by the braces at the two ends of the line. -/
theorem actionOf?_braces (line : Text) :
    Indenter.actionOf? braces line =
      if isElse line then some .temporaryDeIndent
      else if line.getLast? = some '\x7b' then some .postIndent
      else if line.head? = some '\x7d' then some .preDeIndent
      else none := by
  have hopening := accepts_opening line
  have hclosing := accepts_closing line
  simp only [Indenter.actionOf?, braces, IndentRule.ofText, List.find?_cons, List.find?_nil,
    accepts_else line]
  cases helse : isElse line with
  | true => rfl
  | false =>
    by_cases hlast : line.getLast? = some '\x7b'
    · simp [hopening.2 hlast, hlast]
    · have hrejects := Bool.eq_false_iff.2 (mt hopening.1 hlast)
      rw [hrejects, if_neg (by simp), if_neg hlast]
      by_cases hhead : line.head? = some '\x7d'
      · rw [if_pos hhead]
        rcases hclosing.2 hhead with h | h
        · rw [h]
          rfl
        · rw [h]
          cases (Matcher.mk .front "\x7d;".toList false).accepts line <;> rfl
      · obtain ⟨hsemicolon, hbrace⟩ := not_or.1 (mt hclosing.1 hhead)
        rw [Bool.not_eq_true] at hsemicolon hbrace
        rw [if_neg hhead, hsemicolon, hbrace]
        rfl

/-- What a line calls for, from its shape. -/
theorem action?_braces (h : Text.Solid line) :
    action? braces line =
      match shape line with
      | .opening => some .postIndent
      | .closing => some (if isElse line then .temporaryDeIndent else .preDeIndent)
      | .continuing => some (if isElse line then .temporaryDeIndent else .postIndent)
      | .plain => none := by
  rw [action?, h.isBlankText_eq_false, if_neg (by simp), h.2, actionOf?_braces]
  unfold shape
  by_cases hhead : line.head? = some '\x7d'
  · by_cases hlast : line.getLast? = some '\x7b'
    · cases isElse line <;> simp [hhead, hlast]
    · cases isElse line <;> simp [hhead, hlast]
  · -- A line that does not start with a closing brace is none of `else`.
    have helse : isElse line = false := Bool.eq_false_iff.2 (mt head?_of_isElse hhead)
    by_cases hlast : line.getLast? = some '\x7b'
    · simp [hhead, hlast, helse]
    · simp [hhead, hlast, helse]

/-! ## Many lines -/

/-- A line of a well-braced text is accepted, behind its indentation, and the level goes on
counting the open blocks and the reopened ones. -/
theorem indent_braces (hsolid : Text.Solid line)
    (hclosing : shape line = .closing → isElse line = false)
    (hinside : shape line = .closing ∨ shape line = .continuing → 0 < level) (unit : Nat) :
    Indenter.indent braces line ⟨level, unit⟩ =
      .ok (List.replicate (indentation level line * unit) ' ' ++ line)
        ⟨blocksBehind level line + if reopens line = true then 1 else 0, unit⟩ := by
  have haction := action?_braces hsolid
  have hrefuses : ¬ Indenter.Refuses braces ⟨level, unit⟩ line := by
    rintro ⟨hzero, hdown⟩
    have hlevel : level = 0 := hzero
    rw [haction] at hdown
    cases hshape : shape line with
    | opening | plain => simp [hshape, IndentAction.goesDown] at hdown
    | closing =>
      have hpos := hinside (.inl hshape)
      omega
    | continuing =>
      have hpos := hinside (.inr hshape)
      omega
  rw [Indenter.indent_eq, if_neg hrefuses, Indenter.written, hsolid.isBlankText_eq_false,
    if_neg (by simp), depth, levelBehind, haction]
  unfold indentation blocksBehind reopens
  cases hshape : shape line with
  | opening | plain => simp [IndentAction.depth, IndentAction.levelBehind]
  | closing => simp [hclosing hshape, IndentAction.depth, IndentAction.levelBehind]
  | continuing =>
    cases helse : isElse line with
    | true => simp [IndentAction.depth, IndentAction.levelBehind]
    | false => simp [IndentAction.depth, IndentAction.levelBehind]

/-- From the level that counts the open blocks and the reopened ones, a line of a well-braced
text is written behind its indentation, and the level goes on counting them. -/
theorem indent_line (h : WellBraced lines) (unit : Nat) (hi : i < lines.length) :
    Indenter.indent braces lines[i] ⟨blocks (lines.take i) + reopened (lines.take i), unit⟩ =
      .ok (List.replicate
          (indentation (blocks (lines.take i) + reopened (lines.take i)) lines[i] * unit) ' ' ++
            lines[i])
        ⟨blocks (lines.take (i + 1)) + reopened (lines.take (i + 1)), unit⟩ := by
  have hmem : lines[i] ∈ lines := List.getElem_mem hi
  have hinside := h.inside i hi
  have hpos : shape lines[i] = .closing ∨ shape lines[i] = .continuing →
      0 < blocks (lines.take i) + reopened (lines.take i) := by
    intro hshape
    have hblock := hinside hshape
    omega
  rw [indent_braces (h.solid _ hmem) (h.closing _ hmem) hpos unit,
    blocksBehind_add (fun hshape => hinside (.inl hshape)), blocks_take_succ hi,
    reopened_take_succ hi, Nat.add_assoc]

/-- By induction along the lines, the level counts the open blocks and the reopened ones. -/
theorem after_take (h : WellBraced lines) (unit : Nat) (hi : i ≤ lines.length) :
    after braces (.new unit) (lines.take i) =
      ⟨blocks (lines.take i) + reopened (lines.take i), unit⟩ := by
  induction i with
  | zero => rfl
  | succ i ih =>
    have hlt : i < lines.length := hi
    have hstep : after braces (.new unit) (lines.take (i + 1)) =
        Steps.after (Indenter.indent braces lines[i]) (after braces (.new unit) (lines.take i)) := by
      rw [List.take_succ_eq_append_getElem hlt, after, List.foldl_append]
      rfl
    rw [hstep, ih (Nat.le_of_lt hlt), Steps.after_of_ok (indent_line h unit hlt)]

/-- A block with a branch of `else`, in capitals, that is continued once more. -/
def branches : List Text :=
  ["if (a) \x7b".toList, "b();".toList, "\x7d ELSE \x7b".toList, "c();".toList,
    "\x7d finally \x7b".toList, "\x7d".toList]

theorem wellBraced_branches : WellBraced branches :=
  ⟨by decide +kernel, by decide +kernel, by decide +kernel⟩

end Stencil.Braces
