import Mathlib.Algebra.Group.Nat.Defs
import Stencil.Disk
import Stencil.Indent
import Stencil.Proofs.Cutting
import Stencil.Proofs.Steps

/-!
# Levels of indentation

A line calls for at most one action. It fails when its action goes down from level zero,
and then nothing has happened; otherwise it is written at the depth that its action says,
and its action says the level behind it. So the level counts: behind any lines it is the
number of those that went up minus the number of those that went down, whatever lines
failed in between.

Before a line is written, room is made for it: one byte for each space in front, and the bytes
of the line. A machine counts them in a word of 64 bits, and no text takes more than
`roomLimit` of them. Where that is too little, the machine stops or the word wraps, and no
line comes out as it should.

## Main definitions

* `Indenter.action?`: the action that a line calls for.
* `Indenter.depth`, `Indenter.levelBehind`: where a line is written, and the level behind it.
* `Indenter.room`, `Indenter.roomWord`: the room for a line, and the word that counts it.
* `Indenter.Fits`: the word does not wrap, and a text can take as many bytes.
* `Indenter.after`, `Indenter.accepted`: an indenter behind some lines, and those of them that
  did not fail.
-/
namespace Stencil

namespace IndentAction

/-- The actions for which the level must not be zero. -/
def goesDown : IndentAction → Bool
  | .preDeIndent | .postDeIndent | .temporaryDeIndent => true
  | .preIndent | .postIndent | .temporaryIndent => false

/-- The actions that leave the level one higher. -/
def raisesLevel : IndentAction → Bool
  | .preIndent | .postIndent => true
  | .preDeIndent | .postDeIndent | .temporaryIndent | .temporaryDeIndent => false

/-- The actions that leave the level one lower. -/
def lowersLevel : IndentAction → Bool
  | .preDeIndent | .postDeIndent => true
  | .preIndent | .postIndent | .temporaryIndent | .temporaryDeIndent => false

/-- The depth at which a line is written, from the level before it. -/
def depth (level : Nat) : IndentAction → Nat
  | .preIndent | .temporaryIndent => level + 1
  | .preDeIndent | .temporaryDeIndent => level - 1
  | .postIndent | .postDeIndent => level

/-- The level behind a line, from the level before it. -/
def levelBehind (level : Nat) : IndentAction → Nat
  | .preIndent | .postIndent => level + 1
  | .preDeIndent | .postDeIndent => level - 1
  | .temporaryIndent | .temporaryDeIndent => level

theorem depth_le (level : Nat) (action : IndentAction) : action.depth level ≤ level + 1 := by
  cases action <;> simp only [depth] <;> omega

theorem levelBehind_le (level : Nat) (action : IndentAction) :
    action.levelBehind level ≤ level + 1 := by
  cases action <;> simp only [levelBehind] <;> omega

end IndentAction

namespace Indenter

variable {rules : List IndentRule} {line : Text} {lines : List Text} {i j : Indenter} {e : Error}
  {out : Text} {action : IndentAction}

/-! ## One line -/

/-- The action that a line calls for: that of the first rule that accepts it without the
blanks around it. A blank line calls for none. -/
def action? (rules : List IndentRule) (line : Text) : Option IndentAction :=
  if Text.isBlankText line then none else actionOf? rules (Text.trim line)

/-- The depth at which a line is written, from the level before it. -/
def depth (rules : List IndentRule) (level : Nat) (line : Text) : Nat :=
  (action? rules line).elim level (IndentAction.depth level)

/-- The level behind a line, from the level before it. -/
def levelBehind (rules : List IndentRule) (level : Nat) (line : Text) : Nat :=
  (action? rules line).elim level (IndentAction.levelBehind level)

/-- A line as it is written from a level on. A blank line stays as it is. -/
def written (rules : List IndentRule) (i : Indenter) (line : Text) : Text :=
  if Text.isBlankText line then line
  else List.replicate (depth rules i.level line * i.unit) ' ' ++ line

/-- Whether a line goes down from level zero. -/
def Refuses (rules : List IndentRule) (i : Indenter) (line : Text) : Prop :=
  i.level = 0 ∧ (action? rules line).any IndentAction.goesDown = true

instance (rules : List IndentRule) (i : Indenter) (line : Text) :
    Decidable (Refuses rules i line) :=
  inferInstanceAs (Decidable (_ ∧ _))

theorem apply_eq (trimmed line : Text) (action : Option IndentAction) (i : Indenter) :
    apply trimmed line action i =
      if i.level = 0 ∧ action.any IndentAction.goesDown = true then
        .error (.indentUnderflow trimmed) i
      else
        .ok (List.replicate (action.elim i.level (IndentAction.depth i.level) * i.unit) ' ' ++ line)
        { i with level := action.elim i.level (IndentAction.levelBehind i.level) } := by
  obtain ⟨level, unit⟩ := i
  cases action with
  | none => cases level <;> rfl
  | some action => cases level <;> cases action <;> rfl

/-- What becomes of a line: it is refused, and nothing has happened, or it is written. -/
theorem indent_eq (rules : List IndentRule) (line : Text) (i : Indenter) :
    indent rules line i =
      if Refuses rules i line then .error (.indentUnderflow (Text.trim line)) i
      else .ok (written rules i line) { i with level := levelBehind rules i.level line } := by
  by_cases hblank : Text.isBlankText line = true
  · have hempty : (Text.trim line).isEmpty = true := hblank
    have hnone : action? rules line = none := if_pos hblank
    have hout : written rules i line = line := if_pos hblank
    have hrefuses : ¬ Refuses rules i line := by simp [Refuses, hnone]
    rw [indent, if_pos hempty, if_neg hrefuses, hout, levelBehind, hnone]
    rfl
  · have hempty : ¬ (Text.trim line).isEmpty = true := hblank
    have haction : action? rules line = actionOf? rules (Text.trim line) := if_neg hblank
    have hout : written rules i line =
        List.replicate (depth rules i.level line * i.unit) ' ' ++ line := if_neg hblank
    rw [indent, if_neg hempty, apply_eq, hout, depth, levelBehind, ← haction]
    rfl

theorem indent_eq_error_iff :
    indent rules line i = .error e j ↔
      Refuses rules i line ∧ e = .indentUnderflow (Text.trim line) ∧ j = i := by
  rw [indent_eq]
  by_cases h : Refuses rules i line
  · simp [h, eq_comm]
  · simp [h]

theorem indent_eq_ok_iff :
    indent rules line i = .ok out j ↔
      ¬ Refuses rules i line ∧ out = written rules i line ∧
        j = { i with level := levelBehind rules i.level line } := by
  rw [indent_eq]
  by_cases h : Refuses rules i line
  · simp [h]
  · simp [h, eq_comm]

/-! ## The room for a line -/

/-- The bytes of a line at its depth: those of the spaces in front and its own. -/
def room (rules : List IndentRule) (i : Indenter) (line : Text) : Nat :=
  depth rules i.level line * i.unit + Disk.bytes line

/-- The room for a line as a word of 64 bits counts it. Each operation may wrap. -/
def roomWord (rules : List IndentRule) (i : Indenter) (line : Text) : BitVec 64 :=
  BitVec.ofNat 64 (depth rules i.level line) * BitVec.ofNat 64 i.unit +
    BitVec.ofNat 64 (Disk.bytes line)

/-- The greatest number of bytes that a text can take. -/
def roomLimit : Nat := 2 ^ 63 - 1

/-- There is room for a line, and the word that counts it does not wrap. -/
def Fits (rules : List IndentRule) (i : Indenter) (line : Text) : Prop :=
  (roomWord rules i line).toNat = room rules i line ∧ room rules i line ≤ roomLimit

/-- What a text can take is far from where the word wraps. -/
theorem fits_iff : Fits rules i line ↔ room rules i line ≤ roomLimit := by
  refine ⟨And.right, fun h => ⟨?_, h⟩⟩
  have hlimit : roomLimit < 2 ^ 64 := by decide
  rw [roomWord, ← BitVec.ofNat_mul, ← BitVec.ofNat_add, BitVec.toNat_ofNat]
  exact Nat.mod_eq_of_lt (Nat.lt_of_le_of_lt h hlimit)

-- Two levels of half a word's range are no spaces at all.
example : (roomWord IndentRule.braces ⟨2, 2 ^ 63⟩ ['x']).toNat = 1 := by decide +kernel

/-- Room is made for just what is written. -/
theorem bytes_of_indent (hline : Text.isBlankText line = false)
    (h : indent rules line i = .ok out j) : Disk.bytes out = room rules i line := by
  have hblank : ¬ Text.isBlankText line = true := by simp [hline]
  have hspace : Char.utf8Size ' ' = 1 := rfl
  rw [(indent_eq_ok_iff.1 h).2.1, written, if_neg hblank, Disk.bytes_append,
    Disk.bytes_replicate, hspace, Nat.mul_one, room]

/-! ## Many lines -/

/-- The indenter behind some lines. It goes on behind those that fail. -/
def after (rules : List IndentRule) (i : Indenter) (lines : List Text) : Indenter :=
  lines.foldl (fun i line => Steps.after (indent rules line) i) i

/-- The lines that do not fail. -/
def accepted (rules : List IndentRule) : Indenter → List Text → List Text
  | _, [] => []
  | i, line :: lines =>
    match indent rules line i with
    | .ok _ j => line :: accepted rules j lines
    | .error _ j => accepted rules j lines

/-- How many lines call for an action of some sort. -/
def countActions (rules : List IndentRule) (sort : IndentAction → Bool) (lines : List Text) : Nat :=
  lines.countP fun line => (action? rules line).any sort

@[simp] theorem after_nil (rules : List IndentRule) (i : Indenter) : after rules i [] = i := rfl

@[simp] theorem after_cons (rules : List IndentRule) (i : Indenter) (line : Text)
    (lines : List Text) :
    after rules i (line :: lines) = after rules (Steps.after (indent rules line) i) lines := rfl

theorem after_cons_of_refuses (h : Refuses rules i line) :
    after rules i (line :: lines) = after rules i lines := by
  rw [after_cons, Steps.after_of_error (indent_eq_error_iff.2 ⟨h, rfl, rfl⟩)]

theorem after_cons_of_not_refuses (h : ¬ Refuses rules i line) :
    after rules i (line :: lines) =
      after rules { i with level := levelBehind rules i.level line } lines := by
  rw [after_cons, Steps.after_of_ok (indent_eq_ok_iff.2 ⟨h, rfl, rfl⟩)]

theorem accepted_cons_of_refuses (h : Refuses rules i line) :
    accepted rules i (line :: lines) = accepted rules i lines := by
  rw [accepted, indent_eq_error_iff.2 ⟨h, rfl, rfl⟩]

theorem accepted_cons_of_not_refuses (h : ¬ Refuses rules i line) :
    accepted rules i (line :: lines) =
      line :: accepted rules { i with level := levelBehind rules i.level line } lines := by
  rw [accepted, indent_eq_ok_iff.2 ⟨h, rfl, rfl⟩]

@[simp] theorem unit_after (rules : List IndentRule) (i : Indenter) (lines : List Text) :
    (after rules i lines).unit = i.unit := by
  induction lines generalizing i with
  | nil => rfl
  | cons line lines ih =>
    by_cases h : Refuses rules i line
    · rw [after_cons_of_refuses h, ih]
    · rw [after_cons_of_not_refuses h, ih]

/-- A line that is not refused moves the level by what its action counts for. -/
theorem levelBehind_add (h : ¬ Refuses rules i line) :
    levelBehind rules i.level line +
        (if (action? rules line).any IndentAction.lowersLevel then 1 else 0) =
      i.level + (if (action? rules line).any IndentAction.raisesLevel then 1 else 0) := by
  unfold Refuses at h
  unfold levelBehind
  cases haction : action? rules line with
  | none => rfl
  | some action =>
    rw [haction] at h
    cases action with
    | preIndent | postIndent | temporaryIndent | temporaryDeIndent => rfl
    | preDeIndent | postDeIndent =>
      have hpos : i.level ≠ 0 := fun hzero => h ⟨hzero, rfl⟩
      change i.level - 1 + 1 = i.level
      omega

/-- The level counts the lines that went up and down. -/
theorem level_after (rules : List IndentRule) (i : Indenter) (lines : List Text) :
    (after rules i lines).level +
        countActions rules IndentAction.lowersLevel (accepted rules i lines) =
      i.level + countActions rules IndentAction.raisesLevel (accepted rules i lines) := by
  induction lines generalizing i with
  | nil => rfl
  | cons line lines ih =>
    by_cases h : Refuses rules i line
    · rw [after_cons_of_refuses h, accepted_cons_of_refuses h, ih]
    · have hline := levelBehind_add h
      have hrest := ih { i with level := levelBehind rules i.level line }
      rw [after_cons_of_not_refuses h, accepted_cons_of_not_refuses h]
      simp only [countActions, List.countP_cons] at hrest ⊢
      omega

/-- Where no action goes further than one up from a level, no line does. -/
theorem elim_le {level : Nat} {next : IndentAction → Nat} (h : ∀ action, next action ≤ level + 1)
    (action : Option IndentAction) : action.elim level next ≤ level + 1 := by
  cases action with
  | none => exact Nat.le_succ level
  | some action => exact h action

theorem levelBehind_le (rules : List IndentRule) (level : Nat) (line : Text) :
    levelBehind rules level line ≤ level + 1 :=
  elim_le (IndentAction.levelBehind_le level) (action? rules line)

theorem depth_le (rules : List IndentRule) (level : Nat) (line : Text) :
    depth rules level line ≤ level + 1 :=
  elim_le (IndentAction.depth_le level) (action? rules line)

/-- The level rises by one a line at most. -/
theorem level_after_le (rules : List IndentRule) (i : Indenter) (lines : List Text) :
    (after rules i lines).level ≤ i.level + lines.length := by
  induction lines generalizing i with
  | nil => exact Nat.le_refl _
  | cons line lines ih =>
    rw [List.length_cons]
    by_cases h : Refuses rules i line
    · have hrest := ih i
      rw [after_cons_of_refuses h]
      omega
    · have hrest := ih { i with level := levelBehind rules i.level line }
      have hline := levelBehind_le rules i.level line
      rw [after_cons_of_not_refuses h]
      dsimp only at hrest
      omega

/-- The room for a line behind others, by how many there are. -/
theorem room_after_le (rules : List IndentRule) (unit : Nat) (before : List Text) (line : Text) :
    room rules (after rules (new unit) before) line ≤
      (before.length + 1) * unit + Disk.bytes line := by
  have hlevel : (after rules (new unit) before).level ≤ 0 + before.length :=
    level_after_le rules (new unit) before
  have hdepth := depth_le rules (after rules (new unit) before).level line
  have hunit : (after rules (new unit) before).unit = unit := unit_after rules (new unit) before
  rw [room, hunit]
  exact Nat.add_le_add_right (Nat.mul_le_mul_right unit (by omega)) _

end Indenter
end Stencil
