import Stencil.Proofs.Pushing
import Stencil.Proofs.Ranges

/-!
# Widths of levels

A line raises the level by one at most, so behind some lines the level is at most their number,
and a unit of up to `widestUnit` spaces leaves room for every line of every file, whatever its
rules. A document may ask for a unit that is far wider, and then one level can be too much.

## Main definitions

* `Indenter.widestUnit`: the widest unit that every line fits.
* `CodeFile.behind`: a file behind some lines.
-/
namespace Stencil

namespace Indenter

variable {rules : List IndentRule} {i : Indenter} {line : Text} {lines before : List Text}
  {unit : Nat}

/-! ## The widest unit -/

/-- The greatest number of spaces of one level with which a line fits that is as long as lines
get, at a depth as great as lines reach. -/
def widestUnit : Nat := (roomLimit - (2 ^ 32 - 1)) / (2 ^ 16 - 1)

theorem widestUnit_eq : widestUnit = 140739635806207 := by decide

theorem fits_of_le_widestUnit (hunit : unit ≤ widestUnit) (hcount : before.length + 1 < 2 ^ 16)
    (hbytes : Disk.bytes line < 2 ^ 32) : Fits rules (after rules (new unit) before) line := by
  rw [widestUnit_eq] at hunit
  have hspaces : (before.length + 1) * unit ≤ 65535 * 140739635806207 :=
    Nat.mul_le_mul (by omega) hunit
  refine fits_iff.2 ?_
  calc room rules (after rules (new unit) before) line
      ≤ (before.length + 1) * unit + Disk.bytes line := room_after_le rules unit before line
    _ ≤ 65535 * 140739635806207 + (2 ^ 32 - 1) := Nat.add_le_add hspaces (by omega)
    _ ≤ roomLimit := by decide

/-- Rules by which every line goes one level up. -/
def climbing : List IndentRule := [.ofText .front [] .preIndent]

theorem action?_climbing (h : Text.isBlankText line = false) :
    action? climbing line = some .preIndent := by
  have hblank : ¬ Text.isBlankText line = true := by simp [h]
  have hfront (t : Text) : Text.dropFront? [] t = some t := Text.dropFront?_eq_some_iff.2 rfl
  simp [action?, hblank, actionOf?, climbing, IndentRule.ofText, Matcher.accepts, Matcher.fold,
    Matcher.holdsAt, Text.lower, hfront]

theorem level_after_climbing (h : ∀ line ∈ lines, Text.isBlankText line = false) :
    (after climbing i lines).level = i.level + lines.length := by
  induction lines generalizing i with
  | nil => rfl
  | cons line lines ih =>
    obtain ⟨hline, hlines⟩ := List.forall_mem_cons.1 h
    have hrefuses : ¬ Refuses climbing i line := by
      rw [Refuses, action?_climbing hline]
      simp [IndentAction.goesDown]
    have hlevel : levelBehind climbing i.level line = i.level + 1 := by
      rw [levelBehind, action?_climbing hline]
      rfl
    rw [after_cons_of_not_refuses hrefuses, ih hlines, hlevel, List.length_cons]
    dsimp only
    omega

/-- Where all lines go up, the room for a line is as great as it can be. -/
theorem room_climbing (h : ∀ l ∈ line :: before, Text.isBlankText l = false) :
    room climbing (after climbing (new unit) before) line =
      (before.length + 1) * unit + Disk.bytes line := by
  obtain ⟨hline, hbefore⟩ := List.forall_mem_cons.1 h
  have hlevel : (after climbing (new unit) before).level = 0 + before.length :=
    level_after_climbing hbefore
  have hdepth (level : Nat) : depth climbing level line = level + 1 := by
    rw [depth, action?_climbing hline]
    rfl
  rw [room, hdepth, hlevel, unit_after, Nat.zero_add]
  rfl

/-- A wider unit is too wide: the longest lines do not fit where all of them go up. -/
theorem exists_not_fits (h : widestUnit < unit) :
    ∃ rules before line, before.length + 1 < 2 ^ 16 ∧
      (∀ l ∈ line :: before, Disk.bytes l < 2 ^ 32) ∧
      ¬ Fits rules (after rules (new unit) before) line := by
  -- The length stays a variable, so that the lines are never written out.
  obtain ⟨n, hn⟩ : ∃ n, n + 1 = 2 ^ 32 := ⟨4294967295, rfl⟩
  obtain ⟨m, hm⟩ : ∃ m, m + 2 = 2 ^ 16 := ⟨65534, rfl⟩
  have hsame : ∀ l ∈ List.replicate n 'a' :: List.replicate m (List.replicate n 'a'),
      l = List.replicate n 'a' :=
    List.forall_mem_cons.2 ⟨rfl, fun l hl => (List.mem_replicate.1 hl).2⟩
  have hlength : Disk.bytes (List.replicate n 'a') = n := by
    rw [Disk.bytes_replicate]
    exact Nat.mul_one n
  have hblank : Text.isBlankText (List.replicate n 'a') = false := by
    have hletter : Text.isBlank 'a' = false := by decide
    rw [← Bool.not_eq_true, Text.isBlankText_iff, List.all_replicate, hletter]
    have hpos : n ≠ 0 := by omega
    simp [hpos]
  refine ⟨climbing, List.replicate m (List.replicate n 'a'), List.replicate n 'a', ?_, ?_, ?_⟩
  · rw [List.length_replicate]
    omega
  · intro l hl
    rw [hsame l hl, hlength]
    omega
  · rw [fits_iff, room_climbing fun l hl => hsame l hl ▸ hblank, List.length_replicate, hlength]
    have hm' : m + 1 = 65535 := by omega
    have hlimit : roomLimit = 9223372036854775807 := by decide
    rw [widestUnit_eq] at h
    rw [hm', hlimit]
    omega

end Indenter

/-! ## Files -/

namespace CodeFile

variable {file : CodeFile} {line : Text}

/-- The file behind some lines. It goes on behind those that are refused. -/
def behind (file : CodeFile) (lines : List Text) : CodeFile :=
  lines.foldl (fun file line => Steps.after (addLine line) file) file

theorem after_addLine (h : file.pending = []) (line : Text) :
    (Steps.after (addLine line) file).rules = file.rules ∧
      (Steps.after (addLine line) file).pending = [] ∧
      (Steps.after (addLine line) file).indenter =
        Steps.after (Indenter.indent file.rules line) file.indenter := by
  have hadd := addLine_eq line file
  have hindent := Indenter.indent_eq file.rules line file.indenter
  rw [h, List.nil_append] at hadd
  by_cases hrefuses : Indenter.Refuses file.rules file.indenter line
  · rw [if_pos hrefuses] at hadd hindent
    rw [Steps.after_of_error hadd, Steps.after_of_error hindent]
    exact ⟨rfl, rfl, rfl⟩
  · rw [if_neg hrefuses] at hadd hindent
    rw [Steps.after_of_ok hadd, Steps.after_of_ok hindent]
    exact ⟨rfl, rfl, rfl⟩

/-- Lines that are pushed whole meet the rules one by one. -/
theorem indenter_behind (h : file.pending = []) (lines : List Text) :
    (file.behind lines).indenter = Indenter.after file.rules file.indenter lines := by
  induction lines generalizing file with
  | nil => rfl
  | cons line lines ih =>
    obtain ⟨hrules, hpending, hindenter⟩ := after_addLine h line
    change (behind (Steps.after (addLine line) file) lines).indenter = _
    rw [ih hpending, hrules, hindenter, Indenter.after_cons]

end CodeFile

namespace Config

open Indenter

variable {document name : Text} {config : Config} {file : CodeFile}

theorem newFile_eq_ok_iff : config.newFile name = .ok file ↔
    ∃ fileType, config.fileTypes.lookup name = some fileType ∧
      file = .new name fileType.indentUnit (fileType.rules.getD IndentRule.braces) := by
  unfold newFile indentRules fileType
  cases config.fileTypes.lookup name with
  | none => simp [bind, Except.bind]
  | some fileType => simp [bind, Except.bind, Except.map, pure, Except.pure, eq_comm]

/-- **Room for every line.** Take the empty file of a type that a document declares or leaves,
and push lines into it, each of less than 2³² bytes and fewer than 2¹⁶ of them; those that are
refused are passed over. The unit of the file is one that a text could take, and the room for
each line is at most one unit for every line up to it and the bytes of the line; a line that is
not blank takes that room when it is written. Unless the unit is wider than `widestUnit`, no
word that counts the room wraps, and there is room for every line. For any wider unit there are
rules and lines with which there is not. -/
theorem lines_have_room (hconfig : ofText document = .ok config)
    (hfile : config.newFile name = .ok file) :
    let unit := file.indenter.unit
    unit ≤ roomLimit ∧
    (∀ lines, lines.length < 2 ^ 16 → (∀ line ∈ lines, Disk.bytes line < 2 ^ 32) →
      ∀ before line rest, lines = before ++ line :: rest →
        room file.rules (file.behind before).indenter line ≤
            (before.length + 1) * unit + Disk.bytes line ∧
          (∀ out i, Text.isBlankText line = false →
            indent file.rules line (file.behind before).indenter = .ok out i →
              Disk.bytes out = room file.rules (file.behind before).indenter line) ∧
          (unit ≤ widestUnit → Fits file.rules (file.behind before).indenter line)) ∧
    (widestUnit < unit → ∃ rules before line, before.length + 1 < 2 ^ 16 ∧
      (∀ l ∈ line :: before, Disk.bytes l < 2 ^ 32) ∧
      ¬ Fits rules ((CodeFile.new name unit rules).behind before).indenter line) := by
  obtain ⟨fileType, hlookup, rfl⟩ := newFile_eq_ok_iff.1 hfile
  have hunit : fileType.indentUnit < 2 ^ 63 :=
    indentUnit_lt hconfig (name, fileType) (Toml.mem_of_lookup hlookup)
  refine ⟨Nat.le_pred_of_lt hunit, ?_, ?_⟩
  · rintro lines hcount hbytes before line rest rfl
    rw [CodeFile.indenter_behind rfl]
    rw [List.length_append, List.length_cons] at hcount
    refine ⟨room_after_le _ _ before line, fun _ _ => bytes_of_indent, fun hnarrow => ?_⟩
    exact fits_of_le_widestUnit hnarrow (by omega)
      (hbytes line (List.mem_append_right before List.mem_cons_self))
  · intro hwide
    obtain ⟨rules, before, line, hcount, hbytes, hfits⟩ := exists_not_fits hwide
    refine ⟨rules, before, line, hcount, hbytes, ?_⟩
    rw [CodeFile.indenter_behind rfl]
    exact hfits

/-- A document that says the unit of a file type. -/
def declaringUnit (digits : Text) : Text := "[file_types.cs]\nindent_unit = ".toList ++ digits

theorem withBuiltins_singleton (fileType : FileType) :
    withBuiltins [("cs".toList, fileType)] =
      [("cs".toList, fileType), ("ts".toList, plainType)] := by
  refine List.mergeSort_of_pairwise (List.pairwise_pair.2 ?_)
  change (!decide ("ts".toList < "cs".toList)) = true
  decide

theorem exists_file_of_unit (digits : Text) (unit : Nat)
    (hread : (ofText? (declaringUnit digits)).isSome = true)
    (hdeclared : (Toml.ofText? (declaringUnit digits)).bind (fun entries =>
      Toml.Value.orElse [] (fun v => v.entries?.bind fileTypes?)
        (entries.lookup "file_types".toList)) = some [("cs".toList, ⟨none, unit, none⟩)]) :
    ∃ config, ofText (declaringUnit digits) = .ok config ∧
      config.newFile "cs".toList = .ok (.new "cs".toList unit IndentRule.braces) := by
  obtain ⟨config, hconfig⟩ := Option.isSome_iff_exists.1 hread
  have hok : ofText (declaringUnit digits) = .ok config := by rw [ofText, hconfig]
  obtain ⟨entries, declared, hentries, hdeclared', htypes⟩ := exists_declared hok
  rw [hentries, Option.bind_some, hdeclared'] at hdeclared
  cases hdeclared
  rw [withBuiltins_singleton] at htypes
  refine ⟨config, hok, newFile_eq_ok_iff.2 ⟨⟨none, unit, none⟩, ?_, rfl⟩⟩
  rw [htypes]
  rfl

/-- Lines that go up by two spaces have room. -/
theorem two_spaces_have_room :
    ∃ config file, ofText (declaringUnit ['2']) = .ok config ∧
      config.newFile "cs".toList = .ok file ∧
      Fits file.rules (file.behind [['{']]).indenter ['x'] := by
  obtain ⟨config, hconfig, hfile⟩ :=
    exists_file_of_unit ['2'] 2 (by decide +kernel) (by decide +kernel)
  obtain ⟨-, hroom, -⟩ := lines_have_room hconfig hfile
  have hline := hroom [['{'], ['x']] (by decide) (by decide) [['{']] ['x'] [] rfl
  exact ⟨config, _, hconfig, hfile, hline.2.2 (by decide)⟩

/-- Not every line of every file has room: a document may ask for a unit with which the first
line at level one has none. -/
theorem not_all_lines_have_room :
    ¬ ∀ (document name : Text) (config : Config) (file : CodeFile) (lines : List Text),
      ofText document = .ok config → config.newFile name = .ok file →
      lines.length < 2 ^ 16 → (∀ line ∈ lines, Disk.bytes line < 2 ^ 32) →
      ∀ before line rest, lines = before ++ line :: rest →
        Fits file.rules (file.behind before).indenter line := by
  intro h
  obtain ⟨config, hconfig, hfile⟩ :=
    exists_file_of_unit "9223372036854775807".toList 9223372036854775807
      (by decide +kernel) (by decide +kernel)
  have hfits := h _ _ config _ [['{'], ['x']] hconfig hfile (by decide) (by decide)
    [['{']] ['x'] [] rfl
  have hroom : room IndentRule.braces
      (after IndentRule.braces (new 9223372036854775807) [['{']]) ['x'] =
        9223372036854775808 := by decide +kernel
  rw [CodeFile.indenter_behind rfl, fits_iff] at hfits
  exact absurd (hroom ▸ hfits) (by decide)

end Config

end Stencil
