import Stencil.Proofs.Delivery
import Stencil.Proofs.Directories

/-!
# Sinks that agree

A run asks a sink for nothing but to take the files of its templates up to the first
template that cannot be generated. Sinks that take them all give the same answer. Memory and
the output take every file, and an empty directory takes files with distinct plain names
that the file system accepts, where none is a directory of another. Then it holds what
memory holds, and the output shows it.

## Main definitions

* `Sink.Settles`: some files are all taken or left alone, one after the other.
* `Sink.Takes`: they are all taken.
* `Generator.delivered`, `Generator.verdict`: what a run asks sinks to take, and its answer.
* `Sink.Separate`: files that do not get in each other's way.
* `Sink.Holds`: a directory that holds some files.
-/
namespace Stencil

/-! ## Files that are all taken -/

namespace Sink

variable {σ : Type} {sink : Sink (StateM σ)} {s : σ} {file : OutputFile}
  {files front held : List OutputFile} {w : World}

/-- Files that a sink takes or leaves alone one after the other, without an error. -/
def Settles (sink : Sink (StateM σ)) : σ → List OutputFile → Prop
  | _, [] => True
  | s, file :: files =>
    (∃ written, (step sink file s).1 = .ok written) ∧ Settles sink (step sink file s).2 files

/-- Files that a sink takes one after the other. -/
def Takes (sink : Sink (StateM σ)) : σ → List OutputFile → Prop
  | _, [] => True
  | s, file :: files =>
    (step sink file s).1 = .ok true ∧ Takes sink (step sink file s).2 files

theorem Takes.settles (h : Takes sink s files) : Settles sink s files := by
  induction files generalizing s with
  | nil => trivial
  | cons file files ih => exact ⟨⟨true, h.1⟩, ih h.2⟩

theorem Takes.taken_eq (h : Takes sink s files) : taken sink s files = files := by
  induction files generalizing s with
  | nil => rfl
  | cons file files ih => rw [taken_cons_of_true h.1, ih h.2]

theorem taken_sublist (sink : Sink (StateM σ)) (s : σ) (files : List OutputFile) :
    (taken sink s files).Sublist files := by
  induction files generalizing s with
  | nil => exact List.Sublist.refl _
  | cons file files ih =>
    by_cases hfile : (step sink file s).1 = .ok true
    · rw [taken_cons_of_true hfile]
      exact (ih _).cons_cons file
    · rw [taken_cons_of_not hfile]
      exact (ih _).cons file

theorem after_append (sink : Sink (StateM σ)) (s : σ) (front files : List OutputFile) :
    after sink s (front ++ files) = after sink (after sink s front) files :=
  List.foldl_append

theorem takes_append :
    Takes sink s (front ++ files) ↔ Takes sink s front ∧ Takes sink (after sink s front) files := by
  induction front generalizing s with
  | nil => simp [Takes]
  | cons file front ih => simp [Takes, ih, and_assoc]

theorem settles_append :
    Settles sink s (front ++ files) ↔
      Settles sink s front ∧ Settles sink (after sink s front) files := by
  induction front generalizing s with
  | nil => simp [Settles]
  | cons file front ih => simp [Settles, ih, and_assoc]

theorem taken_append (sink : Sink (StateM σ)) (s : σ) (front files : List OutputFile) :
    taken sink s (front ++ files) =
      taken sink s front ++ taken sink (after sink s front) files := by
  induction front generalizing s with
  | nil => rfl
  | cons file front ih =>
    by_cases hfile : (step sink file s).1 = .ok true
    · rw [List.cons_append, taken_cons_of_true hfile, taken_cons_of_true hfile, ih, after_cons,
        List.cons_append]
    · rw [List.cons_append, taken_cons_of_not hfile, taken_cons_of_not hfile, ih, after_cons]

theorem takes_memory (held files : List OutputFile) : Takes memory held files := by
  induction files generalizing held with
  | nil => trivial
  | cons file files ih => exact ⟨rfl, ih _⟩

theorem after_memory (held files : List OutputFile) : after memory held files = putAll files held :=
  rfl

theorem takes_console (w : World) (files : List OutputFile) : Takes console w files := by
  induction files generalizing w with
  | nil => trivial
  | cons file files ih => exact ⟨rfl, ih _⟩

/-- The output shows the files one after the other. -/
theorem printed_after_console (w : World) (files : List OutputFile) :
    (after console w files).printed = w.printed ++ files.flatMap display := by
  induction files generalizing w with
  | nil => simp
  | cons file files ih =>
    have hstep : (step console file w).2.printed = w.printed ++ display file := rfl
    rw [after_cons, ih, hstep, List.flatMap_cons, List.append_assoc]

theorem put_of_not_mem (h : file.name ∉ held.map OutputFile.name) :
    put file held = held ++ [file] := by
  induction held with
  | nil => rfl
  | cons f held ih =>
    obtain ⟨hne, hheld⟩ : file.name ≠ f.name ∧ file.name ∉ held.map OutputFile.name := by
      simpa using h
    rw [put, if_neg (Ne.symm hne), ih hheld, List.cons_append]

/-- Files with distinct names are held as they come. -/
theorem putAll_of_nodup (h : ((held ++ files).map OutputFile.name).Nodup) :
    putAll files held = held ++ files := by
  induction files generalizing held with
  | nil => simp
  | cons file files ih =>
    have hnew : file.name ∉ held.map OutputFile.name := by
      rw [List.map_append, List.nodup_append] at h
      intro hmem
      exact h.2.2 _ hmem file.name (by simp) rfl
    rw [putAll_cons, put_of_not_mem hnew, ih (by simpa using h), List.append_assoc,
      List.singleton_append]

end Sink

/-! ## What a run asks for -/

namespace Generator

variable {σ : Type} {sink : Sink (StateM σ)} {s : σ} {g : Generator} {tables : List Table}
  {templates : List Template} {files : List OutputFile} {summary : Summary}

/-- The files of the templates before the first one that cannot be generated. -/
def delivered (g : Generator) (tables : List Table) : List Template → List OutputFile
  | [] => []
  | t :: templates =>
    match g.generate t tables with
    | .ok files => files ++ delivered g tables templates
    | .error _ => []

/-- The answer of a run that has all of its files taken, behind those counted already. -/
def verdict (g : Generator) (tables : List Table) (summary : Summary) :
    List Template → Except Error Summary
  | [] => .ok summary
  | t :: templates =>
    match g.generate t tables with
    | .ok files =>
      verdict g tables { summary with written := summary.written + files.length } templates
    | .error e => .error e

/-- A delivery without an error counts the files that are taken, and those that are not. -/
theorem deliver_of_settles (h : Sink.Settles sink s files) (summary : Summary) :
    (deliver sink summary files).run s =
      (.ok ⟨summary.written + (Sink.taken sink s files).length,
          summary.skipped + (files.length - (Sink.taken sink s files).length)⟩,
        Sink.after sink s files) := by
  induction files generalizing s summary with
  | nil => rfl
  | cons file files ih =>
    obtain ⟨⟨written, hfile⟩, hfiles⟩ := h
    have hstep : (sink.write file).run s = (.ok written, (Sink.step sink file s).2) :=
      Prod.ext hfile rfl
    have hlength := (Sink.taken_sublist sink (Sink.step sink file s).2 files).length_le
    rw [deliver, run_bind_of_ok hstep, ih hfiles, Sink.after_cons]
    cases written with
    | true =>
      rw [Sink.taken_cons_of_true hfile, List.length_cons, List.length_cons, if_pos rfl,
        Nat.add_sub_add_right, Nat.add_assoc, Nat.add_comm 1]
    | false =>
      rw [Sink.taken_cons_of_not (by simp [hfile]), List.length_cons, if_neg (by decide),
        Nat.add_assoc, Nat.sub_add_comm hlength, Nat.add_comm 1]

theorem deliver_of_takes (h : Sink.Takes sink s files) (summary : Summary) :
    (deliver sink summary files).run s =
      (.ok { summary with written := summary.written + files.length },
        Sink.after sink s files) := by
  rw [deliver_of_settles h.settles, h.taken_eq, Nat.sub_self, Nat.add_zero]

/-- A run whose files are all taken answers as the generator does, and leaves what they
leave. -/
theorem runAfter_of_takes (h : Sink.Takes sink s (g.delivered tables templates))
    (summary : Summary) :
    (g.runAfter tables sink summary templates).run s =
      (g.verdict tables summary templates, Sink.after sink s (g.delivered tables templates)) := by
  induction templates generalizing s summary with
  | nil => rfl
  | cons t templates ih =>
    rw [runAfter, delivered, verdict]
    rw [delivered] at h
    cases hgenerate : g.generate t tables with
    | error e => rfl
    | ok files =>
      rw [hgenerate] at h
      obtain ⟨hfiles, hrest⟩ := Sink.takes_append.1 h
      rw [Sink.after_append]
      exact (run_bind_of_ok (deliver_of_takes hfiles summary)).trans (ih hrest _)

end Generator

/-! ## Room for a plain name -/

namespace Disk

variable {d : Disk} {root name path : Text} {r p : List Text}

/-- A character that is no slash stands in a step. -/
theorem exists_step_of_mem {c : Char} (h : c ∈ path) (hc : c ≠ '/') :
    ∃ step ∈ steps path, c ∈ step := by
  have hpart : ∃ part ∈ Text.split ['/'] path, c ∈ part := by
    induction path using Text.parts_induction (c := '/') with
    | last t ht => exact ⟨t, by simp [Text.split_singleton_of_not_mem ht], h⟩
    | more t rest ht ih =>
      rw [Text.split_singleton_append ht]
      rcases List.mem_append.1 h with hmem | hmem
      · exact ⟨t, List.mem_cons_self .., hmem⟩
      · obtain ⟨part, hpart, hin⟩ := ih ((List.mem_cons.1 hmem).resolve_left hc)
        exact ⟨part, List.mem_cons_of_mem _ hpart, hin⟩
  obtain ⟨part, hpart, hin⟩ := hpart
  refine ⟨part, List.mem_filter.2 ⟨hpart, ?_⟩, hin⟩
  cases part with
  | nil => cases hin
  | cons => rfl

theorem isAdmitted_iff :
    isAdmitted path = true ↔
      path ≠ [] ∧ bytes path < pathLimit ∧ ∀ step ∈ steps path, isName step = true := by
  simp [isAdmitted, and_assoc]

/-- A path that can denote something has no null character. -/
theorem null_not_mem_of_isAdmitted (h : isAdmitted path = true) : Char.ofNat 0 ∉ path := by
  intro hmem
  obtain ⟨step, hstep, hin⟩ := exists_step_of_mem hmem (by decide)
  have hname := (isAdmitted_iff.1 h).2.2 step hstep
  simp [isName, hin] at hname

/-- Above a path that can denote something, directories are made along its names. -/
theorem makeDirs_parent (d : Disk) (h : isAdmitted path = true) :
    d.makeDirs (Path.parent path) = d.makeAlong (d.start path) (Path.names path).dropLast := by
  have hsublist := Path.parent_sublist path
  have hbytes : ¬ pathLimit ≤ bytes (Path.parent path) :=
    Nat.not_le.2 (Nat.lt_of_le_of_lt (bytes_le_of_sublist hsublist) (isAdmitted_iff.1 h).2.1)
  have hnull : Char.ofNat 0 ∉ Path.parent path :=
    fun hmem => null_not_mem_of_isAdmitted h (hsublist.subset hmem)
  rw [makeDirs, if_neg (by simp [hbytes, hnull]), start, Path.isAbsolute_parent, ← start,
    Path.steps_parent]

/-- Directories above a plain name are made from the directory on in which it stands. -/
theorem makeDirs_parent_join (hroot : d.Leads root r) (hname : Path.IsPlain name)
    (h : isAdmitted (Path.join root name) = true) :
    d.makeDirs (Path.parent (Path.join root name)) =
      d.makeAlong r (Path.names name).dropLast := by
  have hway : d.walk? (d.start root) (Path.names root) = some r := by
    rw [names_eq, walk?_filter hroot.2]
    exact hroot.1
  rw [makeDirs_parent d h, start_join d root hname.not_escapes, Path.names_join,
    List.dropLast_append_of_ne_nil hname.names_ne_nil, makeAlong_append hway hroot.2]

/-- Below a directory the names of a plain path lead to what they name. -/
theorem foldl_next_names (hname : Path.IsPlain name) {ss : List Text}
    (hss : ss <+: Path.names name) : ss.foldl next r = r ++ ss := by
  rw [foldl_next fun h => hname.back_not_mem (hss.subset h), List.filter_eq_self.2]
  intro step hstep
  have hne : step ≠ ['.'] := by
    rintro rfl
    exact (Path.mem_names (hss.subset hstep)).2.2 rfl
  simpa using hne

/-- Above a plain name the places on the way are given by some of the first names. -/
theorem exists_of_onWay (hname : Path.IsPlain name)
    (h : OnWay r (Path.names name).dropLast p) :
    ∃ front, front <+: Path.names name ∧ front ≠ Path.names name ∧ p = r ++ front := by
  obtain ⟨front, hfront, rfl⟩ := h
  have hprefix := hfront.trans (List.dropLast_prefix _)
  refine ⟨front, hprefix, ?_, foldl_next_names hname hprefix⟩
  rintro rfl
  have hlength := hfront.length_le
  have hpos := List.length_pos_iff.2 hname.names_ne_nil
  rw [List.length_dropLast] at hlength
  omega

/-- Where the directories above a plain name are made and nothing has the name, a file can be
written. -/
theorem writable_join (hroot : d.Leads root r) (hname : Path.IsPlain name)
    (h : isAdmitted (Path.join root name) = true)
    (hmade : (d.makeAlong r (Path.names name).dropLast).1 = true)
    (habsent : d.get? (r ++ Path.names name) = none) :
    (d.makeAlong r (Path.names name).dropLast).2.Writable (Path.join root name) := by
  have hne := hname.names_ne_nil
  have hescapes := hname.not_escapes
  have hadds := adds_makeAlong d r (Path.names name).dropLast
  have hsteps : steps (Path.join root name) = steps root ++ Path.names name := by
    rw [steps_join, hname.steps_eq_names]
  have hplace : (d.makeAlong r (Path.names name).dropLast).2.place (Path.join root name) =
      r ++ Path.names name := by
    rw [hadds.grows.place, place_join d root hescapes, hroot.place_eq]
  have hstart : (d.makeAlong r (Path.names name).dropLast).2.start (Path.join root name) =
      d.start root := by
    rw [hadds.grows.start, start_join d root hescapes]
  obtain ⟨hwalk, hdirectory⟩ := walk?_makeAlong hroot.2 hmade
  rw [foldl_next_names hname (List.dropLast_prefix _)] at hwalk hdirectory
  refine ⟨h, ?_, ?_, ?_, ?_, ?_⟩
  · obtain ⟨front, hfront⟩ := Path.exists_join_eq root name
    obtain ⟨c, hc⟩ := Option.isSome_iff_exists.1
      (List.getLast?_isSome.2 (Path.escapes_eq_false_iff.1 hescapes).1)
    have hslash := hname.getLast?_ne
    rw [hc] at hslash
    simpa [endsInSlash, hfront, List.getLast?_append, hc] using hslash
  · obtain ⟨last, hlast⟩ := Option.isSome_iff_exists.1 (List.getLast?_isSome.2 hne)
    have hmem := List.mem_of_getLast? hlast
    refine ⟨last, by rw [hsteps, List.getLast?_append, hlast, Option.some_or],
      (Path.mem_names hmem).2.2, ?_⟩
    rintro rfl
    exact hname.back_not_mem hmem
  · rw [hplace, hstart, hsteps, List.dropLast_append_of_ne_nil hne,
      List.dropLast_append_of_ne_nil hne, walk?_append, hadds.grows.walk? hroot.1,
      Option.bind_some, hwalk]
  · rwa [hplace, List.dropLast_append_of_ne_nil hne]
  · rw [hplace]
    intro hthere
    rcases hadds.get? (r ++ Path.names name) with heq | ⟨-, -, hway⟩
    · rw [IsDirectory, heq, habsent] at hthere
      cases hthere
    · obtain ⟨front, -, hfront, heq⟩ := exists_of_onWay hname hway
      exact hfront (List.append_cancel_left heq).symm

end Disk

/-! ## Directories that take all files -/

namespace Sink

variable {root : Text} {policy : OverwritePolicy} {r n : List Text} {file : OutputFile}
  {files held : List OutputFile} {w : World} {d : Disk}

/-- Files with distinct plain names that the file system accepts under a directory, where no
name is a directory of another. -/
structure Separate (root : Text) (files : List OutputFile) : Prop where
  distinct : (files.map OutputFile.name).Nodup
  plain : ∀ file ∈ files, Path.IsPlain file.name
  admitted : ∀ file ∈ files, Disk.isAdmitted (Path.join root file.name) = true
  apart : ∀ a ∈ files, ∀ b ∈ files, ¬ a.name ++ ['/'] <+: b.name

/-- A directory in which some files stand, and directories above them, and nothing else. -/
structure Holds (d : Disk) (r : List Text) (files : List OutputFile) : Prop where
  contents : ∀ n, d.fileAt? (r ++ n) = (files.find? (standsAt n)).map OutputFile.contents
  entries : ∀ n, n ≠ [] → d.get? (r ++ n) ≠ none → ∃ file ∈ files, n <+: Path.names file.name

namespace Separate

theorem of_append (h : Separate root (held ++ files)) : Separate root held where
  distinct := (List.sublist_append_left held files).map _ |>.nodup h.distinct
  plain file hfile := h.plain file (List.mem_append_left _ hfile)
  admitted file hfile := h.admitted file (List.mem_append_left _ hfile)
  apart a ha b hb := h.apart a (List.mem_append_left _ ha) b (List.mem_append_left _ hb)

/-- The names of a file never come first in those of another. -/
theorem not_below {a b : OutputFile} (h : Separate root files) (ha : a ∈ files) (hb : b ∈ files)
    (hne : a.name ≠ b.name) : ¬ Path.names a.name <+: Path.names b.name := by
  intro hprefix
  rcases (h.plain a ha).eq_or_below (h.plain b hb) hprefix with heq | hdirectory
  · exact hne heq
  · exact h.apart a ha b hb hdirectory

/-- A file and one behind it are at places of which none is above the other. -/
theorem not_prefix_last {f : OutputFile} (h : Separate root (held ++ [file])) (hf : f ∈ held) :
    ¬ Path.names f.name <+: Path.names file.name ∧
      ¬ Path.names file.name <+: Path.names f.name := by
  have hmem : f ∈ held ++ [file] := List.mem_append_left _ hf
  have hlast : file ∈ held ++ [file] := List.mem_append_right _ (List.mem_singleton_self file)
  have hne : f.name ≠ file.name := by
    have hdistinct := h.distinct
    rw [List.map_append, List.nodup_append] at hdistinct
    exact hdistinct.2.2 _ (List.mem_map_of_mem hf) _ (by simp)
  exact ⟨h.not_below hmem hlast hne, h.not_below hlast hmem hne.symm⟩

end Separate

namespace Holds

theorem find?_eq_none (hfiles : Separate root (held ++ [file])) (hn : n <+: Path.names file.name) :
    held.find? (standsAt n) = none := by
  rw [List.find?_eq_none]
  intro f hf hstands
  have hnames : Path.names f.name = n := by simpa [standsAt] using hstands
  exact (hfiles.not_prefix_last hf).1 (hnames ▸ hn)

/-- Nothing is at the place of a file that gets in no other's way. -/
theorem get?_eq_none (h : Holds d r held) (hfiles : Separate root (held ++ [file]))
    (hplain : Path.IsPlain file.name) : d.get? (r ++ Path.names file.name) = none := by
  refine Decidable.byContradiction fun hthere => ?_
  obtain ⟨f, hf, hprefix⟩ := h.entries _ hplain.names_ne_nil hthere
  exact (hfiles.not_prefix_last hf).2 hprefix

/-- No file is in its way. -/
theorem fileAt?_eq_none {p : List Text} (h : Holds d r held)
    (hfiles : Separate root (held ++ [file])) (hplain : Path.IsPlain file.name)
    (hp : Disk.OnWay r (Path.names file.name).dropLast p) : d.fileAt? p = none := by
  obtain ⟨front, hfront, -, rfl⟩ := Disk.exists_of_onWay hplain hp
  rw [h.contents, find?_eq_none hfiles hfront]
  rfl

/-- With the directories above it, the file is one of those that are held. -/
theorem write (h : Holds d r held) (hfiles : Separate root (held ++ [file]))
    (hplain : Path.IsPlain file.name) :
    Holds ((d.makeAlong r (Path.names file.name).dropLast).2.set (r ++ Path.names file.name)
      (.file file.contents)) r (held ++ [file]) := by
  have hne : r ++ Path.names file.name ≠ [] := by simp [hplain.names_ne_nil]
  have hmem : file ∈ held ++ [file] := List.mem_append_right _ (List.mem_singleton_self file)
  have hadds := Disk.adds_makeAlong d r (Path.names file.name).dropLast
  refine ⟨?_, ?_⟩
  · intro n
    rw [Disk.fileAt?_set_file hne, hadds.fileAt?, h.contents, List.find?_append]
    by_cases hn : n = Path.names file.name
    · subst hn
      simp [find?_eq_none hfiles List.prefix_rfl, standsAt]
    · simp [hn, standsAt, Ne.symm hn]
  · intro n hn hthere
    rw [Disk.get?_set _ hne] at hthere
    split at hthere
    · next heq => exact ⟨file, hmem, List.append_cancel_left heq ▸ List.prefix_rfl⟩
    · rcases hadds.get? (r ++ n) with heq | ⟨-, -, hway⟩
      · rw [heq] at hthere
        obtain ⟨f, hf, hprefix⟩ := h.entries n hn hthere
        exact ⟨f, List.mem_append_left _ hf, hprefix⟩
      · obtain ⟨front, hfront, -, heq⟩ := Disk.exists_of_onWay hplain hway
        exact ⟨file, hmem, List.append_cancel_left heq ▸ hfront⟩

end Holds

/-- A file that gets in no other's way is taken, and is then one of those that are held. -/
theorem step_directory (hroot : w.disk.Leads root r) (hheld : Holds w.disk r held)
    (hfiles : Separate root (held ++ [file])) :
    (step (directory root policy) file w).1 = .ok true ∧
      Holds (step (directory root policy) file w).2.disk r (held ++ [file]) := by
  have hmem : file ∈ held ++ [file] := List.mem_append_right _ (List.mem_singleton_self file)
  have hplain := hfiles.plain file hmem
  have hadmitted := hfiles.admitted file hmem
  have habsent := hheld.get?_eq_none hfiles hplain
  have hmakes := Disk.makeDirs_parent_join hroot hplain hadmitted
  have hmade : (w.disk.makeAlong r (Path.names file.name).dropLast).1 = true := by
    refine Disk.makeAlong_succeeds (fun p hp => hheld.fileAt?_eq_none hfiles hplain hp)
      fun step hstep => ?_
    refine (Disk.isAdmitted_iff.1 hadmitted).2.2 step ?_
    rw [Disk.steps_join, hplain.steps_eq_names]
    exact List.mem_append_right _ (List.dropLast_subset _ hstep)
  have hwritable := Disk.writable_join hroot hplain hadmitted hmade habsent
  have hplace : w.disk.place (Path.join root file.name) = r ++ Path.names file.name := by
    rw [Disk.place_join w.disk root hplain.not_escapes, hroot.place_eq]
  have hpolicy : w.disk.isPresent (Path.join root file.name) = true → policy = .overwrite := by
    rw [Disk.isPresent_of_get?_eq_none (hplace ▸ habsent)]
    exact fun h => absurd h Bool.false_ne_true
  have hstep := @step_of_writable root policy file w hplain.not_escapes hpolicy (hmakes ▸ hmade)
    (hmakes ▸ hwritable)
  rw [hstep, hmakes, hplace]
  exact ⟨rfl, hheld.write hfiles hplain⟩

/-- A directory takes all of the files that get in no other's way, and holds them then. -/
theorem takes_directory (hroot : w.disk.Leads root r) (hheld : Holds w.disk r held)
    (hfiles : Separate root (held ++ files)) :
    Takes (directory root policy) w files ∧
      Holds (after (directory root policy) w files).disk r (held ++ files) := by
  induction files generalizing w held with
  | nil => exact ⟨trivial, by simpa using hheld⟩
  | cons file files ih =>
    rw [List.append_cons] at hfiles ⊢
    obtain ⟨htrue, hholds⟩ := @step_directory root policy r file held w hroot hheld hfiles.of_append
    have hgrows := (writes_step root policy file w).grows
    obtain ⟨htakes, hall⟩ := ih (hgrows.leads hroot) hholds hfiles
    exact ⟨⟨htrue, htakes⟩, hall⟩

/-- An empty directory holds no files. -/
theorem holds_nil (hroot : d.Leads root r) (hempty : ∀ n, n ≠ [] → d.get? (r ++ n) = none) :
    Holds d r [] :=
  ⟨fileAt?_of_empty hroot.2 hempty, fun n hn hthere => absurd (hempty n hn) hthere⟩

/-- What is held is found at the places of the names. -/
theorem Holds.fileAt?_eq_some_iff {contents : Text} (h : Holds d r files)
    (hfiles : Separate root files) :
    d.fileAt? (r ++ n) = some contents ↔
      ∃ file ∈ files, Path.names file.name = n ∧ file.contents = contents := by
  rw [h.contents, Option.map_eq_some_iff]
  constructor
  · rintro ⟨file, hfind, hcontents⟩
    exact ⟨file, List.mem_of_find?_eq_some hfind, by simpa [standsAt] using List.find?_some hfind,
      hcontents⟩
  · rintro ⟨file, hmem, rfl, hcontents⟩
    have hsome : (files.find? (standsAt (Path.names file.name))).isSome = true :=
      List.find?_isSome.2 ⟨file, hmem, by simp [standsAt]⟩
    obtain ⟨f, hf⟩ := Option.isSome_iff_exists.1 hsome
    have hfmem := List.mem_of_find?_eq_some hf
    have hnames : Path.names f.name = Path.names file.name := by
      simpa [standsAt] using List.find?_some hf
    have hname : f.name = file.name :=
      (hfiles.plain f hfmem).eq_of_names_eq (hfiles.plain file hmem) hnames
    -- Of distinct names each is found once.
    have hfound := (mem_iff_find? hfiles.distinct).1 hfmem
    rw [hname, (mem_iff_find? hfiles.distinct).1 hmem, Option.some.injEq] at hfound
    exact ⟨file, hfound ▸ hf, hcontents⟩

end Sink

/-! ## One run, three sinks -/

namespace Generator

variable {g : Generator} {tables : List Table} {templates : List Template} {w : World}
  {root : Text} {r : List Text}

/-- **Memory, the output and an empty directory agree.** Let the files of the templates before
the first one that cannot be generated have distinct plain names that the file system accepts,
none of them a directory of another. Under every policy all three answer alike, with the same
summary or the same error. Then the output has shown the files of memory in their order, each
as a line with its name between arrows and its contents, with a line feed behind them if they
do not end in one. The directory holds the files under their names and nothing else, and
outside of it no file has changed. -/
theorem sinks_agree (hroot : w.disk.Leads root r)
    (hempty : ∀ n, n ≠ [] → w.disk.get? (r ++ n) = none)
    (hfiles : Sink.Separate root (g.delivered tables templates)) (policy : OverwritePolicy)
    (v : World) :
    let held := (g.run templates tables Sink.memory).run []
    let shown := (g.run templates tables (Sink.console : Sink (StateM World))).run v
    let stored := (g.run templates tables
      (Sink.directory root policy : Sink (StateM World))).run w
    shown.1 = held.1 ∧ stored.1 = held.1 ∧
      shown.2.printed = v.printed ++ held.2.flatMap (fun file =>
        "==> ".toList ++ file.name ++ " <==\n".toList ++ file.contents ++
          if file.contents.getLast? = some '\n' then [] else ['\n']) ∧
      (∀ n contents, stored.2.disk.fileAt? (r ++ n) = some contents ↔
        ∃ file ∈ held.2, Path.names file.name = n ∧ file.contents = contents) ∧
      ∀ p, ¬ r <+: p → stored.2.disk.fileAt? p = w.disk.fileAt? p := by
  intro held shown stored
  have hheld : held = (g.verdict tables ⟨0, 0⟩ templates, g.delivered tables templates) := by
    have hall : Sink.putAll (g.delivered tables templates) [] = g.delivered tables templates :=
      Sink.putAll_of_nodup hfiles.distinct
    have hrun := runAfter_of_takes (Sink.takes_memory [] (g.delivered tables templates)) ⟨0, 0⟩
    rw [Sink.after_memory, hall] at hrun
    exact hrun
  have hshown : shown = (g.verdict tables ⟨0, 0⟩ templates, _) :=
    runAfter_of_takes (Sink.takes_console v _) ⟨0, 0⟩
  obtain ⟨htakes, hholds⟩ := @Sink.takes_directory root policy r (g.delivered tables templates)
    [] w hroot (Sink.holds_nil hroot hempty) hfiles
  have hstored : stored = (g.verdict tables ⟨0, 0⟩ templates, _) :=
    runAfter_of_takes htakes ⟨0, 0⟩
  rw [hheld, hshown, hstored]
  refine ⟨rfl, rfl, Sink.printed_after_console v _, ?_, ?_⟩
  · intro n contents
    exact hholds.fileAt?_eq_some_iff hfiles
  · intro p hp
    exact Sink.fileAt?_after_of_outside hroot hp _

/-- A template of a type that is not known. -/
def untyped : Template := ⟨"Notes".toList, "nowhere".toList, []⟩

/-- What is made before a template fails is in the directory as it is in memory. -/
theorem agree_before_failure :
    let stored := (byTable.run [notes ['a'], untyped] []
      (Sink.directory "out".toList .error : Sink (StateM World))).run (Sink.bare "out".toList)
    stored.1 = .error (.unknownFileType "nowhere".toList) ∧
      stored.2.disk.fileAt? ["out".toList, "Notes.cs".toList] = some "a\n".toList := by
  have hroot : (Sink.bare "out".toList).disk.Leads "out".toList ["out".toList] :=
    ⟨by decide +kernel, by decide⟩
  have hdelivered : byTable.delivered [] [notes ['a'], untyped] =
      [⟨"Notes.cs".toList, "a\n".toList⟩] := by decide +kernel
  have hfiles : Sink.Separate "out".toList (byTable.delivered [] [notes ['a'], untyped]) := by
    rw [hdelivered]
    exact ⟨by decide, by decide +kernel, by decide +kernel, by decide⟩
  obtain ⟨-, hanswer, -, hheld, -⟩ := sinks_agree hroot (fun _ => Sink.get?_bare _) hfiles .error
    (Sink.bare "out".toList)
  have hfails : byTable.verdict [] ⟨0, 0⟩ [notes ['a'], untyped] =
      .error (.unknownFileType "nowhere".toList) := by
    have hnotes : byTable.generate (notes ['a']) [] = .ok [⟨"Notes.cs".toList, "a\n".toList⟩] :=
      Steps.toOption_eq_some_iff.1 (by decide +kernel)
    rw [verdict, hnotes]
    rfl
  refine ⟨hanswer.trans hfails, (hheld ["Notes.cs".toList] _).2 ?_⟩
  exact ⟨⟨"Notes.cs".toList, "a\n".toList⟩, by decide +kernel, by decide +kernel, rfl⟩

end Generator
end Stencil
