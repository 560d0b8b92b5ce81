import Stencil.Proofs.Agreement

/-!
# Writing to a directory again

What stands on a disk keeps standing when files are written to a directory, and what was
written can be written again. So behind writes without an error the files find every place
taken: once more they are all left alone, or the first of them is refused, or they are all
written where they are, and no directory is made for them.

## Main definitions

* `Disk.Keeps`: disks with the directories of another, and files wherever that has one.
* `Disk.Passable`: a path along which all directories are there.
* `Disk.Rewritable`: a path under which a file stands that can be written again.
-/
namespace Stencil

/-! ## What stays on a disk -/

namespace Disk

variable {d d' d'' : Disk} {path contents : Text} {p : List Text}

/-- A disk with the directories of another, and a file wherever that has one. -/
structure Keeps (d d' : Disk) : Prop extends Grows d d' where
  file : ∀ p, d.fileAt? p ≠ none → d'.fileAt? p ≠ none

theorem Keeps.refl (d : Disk) : Keeps d d := ⟨Grows.refl d, fun _ h => h⟩

theorem Keeps.trans (h : Keeps d d') (h' : Keeps d' d'') : Keeps d d'' :=
  ⟨h.toGrows.trans h'.toGrows, fun p hp => h'.file p (h.file p hp)⟩

/-- A path denotes something when the walk along it ends at a directory, or at a file and not
in a slash. -/
theorem isPresent_iff :
    d.isPresent path = true ↔ isAdmitted path = true ∧
      ∃ p, d.walk? (d.start path) (steps path) = some p ∧
        (d.IsDirectory p ∨ endsInSlash path = false ∧ d.fileAt? p ≠ none) := by
  rw [isPresent, entryAt?]
  cases hadmitted : isAdmitted path with
  | false => simp
  | true =>
    cases hwalk : d.walk? (d.start path) (steps path) with
    | none => simp
    | some p =>
      cases hget : d.get? p with
      | none => simp [hget, IsDirectory, fileAt?]
      | some entry =>
        cases entry with
        | directory => simp [hget, IsDirectory]
        | file contents => cases hslash : endsInSlash path <;> simp [hget, IsDirectory, fileAt?]

/-- What a path denotes stays under it. -/
theorem Keeps.isPresent (h : Keeps d d') (hpresent : d.isPresent path = true) :
    d'.isPresent path = true := by
  obtain ⟨hadmitted, p, hwalk, hend⟩ := isPresent_iff.1 hpresent
  refine isPresent_iff.2 ⟨hadmitted, p, ?_, ?_⟩
  · rw [h.start]
    exact h.walk? hwalk
  · exact hend.imp (h.directory p) fun ⟨hslash, hfile⟩ => ⟨hslash, h.file p hfile⟩

/-- All directories on the way along a path are there. -/
def Passable (d : Disk) (path : Text) : Prop :=
  d.walk? (d.start path) (steps path) = some (d.place path)

/-- What is read under a path stands at its place. -/
theorem read?_eq_some_iff :
    d.read? path = some contents ↔ (isAdmitted path = true ∧ endsInSlash path = false) ∧
      d.Passable path ∧ d.fileAt? (d.place path) = some contents := by
  rw [read?, entryAt?, Passable, place]
  cases hadmitted : isAdmitted path with
  | false => simp
  | true =>
    cases hwalk : d.walk? (d.start path) (steps path) with
    | none => simp
    | some p =>
      rw [eq_foldl_of_walk? hwalk]
      cases hget : d.get? ((steps path).foldl next (d.start path)) with
      | none => simp [hget, fileAt?]
      | some entry =>
        cases entry with
        | directory => simp [hget, fileAt?]
        | file contents => cases hslash : endsInSlash path <;> simp [hget, fileAt?]

/-- Along a way that is there, the same is read as long as its place is not touched. -/
theorem Grows.read? (h : Grows d d') (hpath : d.Passable path)
    (hfile : d'.fileAt? (d.place path) = d.fileAt? (d.place path)) :
    d'.read? path = d.read? path := by
  have hpath' : d'.Passable path := by
    rw [Passable, h.start, h.place]
    exact h.walk? hpath
  refine Option.ext fun contents => ?_
  rw [read?_eq_some_iff, read?_eq_some_iff, h.place, hfile]
  simp [hpath, hpath']

/-! ## Files that can be written again -/

/-- A path under which a file stands that can be written again. -/
structure Rewritable (d : Disk) (path : Text) : Prop where
  writable : d.Writable path
  file : d.fileAt? (d.place path) ≠ none

namespace Writable

/-- No directory is missing above a path at which a file can be written. -/
theorem makeDirs_parent (h : d.Writable path) : d.makeDirs (Path.parent path) = (true, d) := by
  obtain ⟨name, hlast, hdot, -⟩ := h.last
  obtain ⟨front, hfront⟩ := List.getLast?_eq_some_iff.1 hlast
  have hnames : (Path.names path).dropLast = front.filter (· ≠ ['.']) := by
    rw [names_eq, hfront, List.filter_append, List.filter_cons_of_pos (by simpa using hdot),
      List.filter_nil, List.dropLast_concat]
  have hwalk := h.walk
  rw [hfront, List.dropLast_concat, ← walk?_filter h.above, ← hnames] at hwalk
  have hmade := makeAlong_append hwalk h.above []
  rw [List.append_nil] at hmade
  rw [Disk.makeDirs_parent d h.admitted, hmade, makeAlong]

/-- A path stays writable unless a directory takes its place. -/
theorem grows_of_free (h : d.Writable path) (hgrows : Grows d d')
    (hfree : ¬ d'.IsDirectory (d.place path)) : d'.Writable path where
  admitted := h.admitted
  noSlash := h.noSlash
  last := h.last
  walk := by
    rw [hgrows.start, hgrows.place]
    exact hgrows.walk? h.walk
  above := by
    rw [hgrows.place]
    exact hgrows.directory _ h.above
  free := by rwa [hgrows.place]

/-- What is written can be written again. -/
theorem rewritable_set (h : d.Writable path) (contents : Text) :
    (d.set (d.place path) (.file contents)).Rewritable path := by
  have hget : (d.set (d.place path) (.file contents)).get? (d.place path) =
      some (.file contents) := by rw [get?_set d h.place_ne_nil, if_pos rfl]
  have hgrows : Grows d (d.set (d.place path) (.file contents)) := h.grows
  refine ⟨h.grows_of_free hgrows ?_, ?_⟩
  · rw [IsDirectory, hget]
    intro hdirectory
    cases hdirectory
  · rw [hgrows.place, fileAt?_eq_some_iff.2 hget]
    exact Option.some_ne_none contents

end Writable

namespace Rewritable

theorem isPresent (h : d.Rewritable path) : d.isPresent path = true :=
  isPresent_iff.2 ⟨h.writable.admitted, d.place path, h.writable.walk_place,
    .inr ⟨h.writable.noSlash, h.file⟩⟩

theorem keeps (h : d.Rewritable path) (hkeeps : Keeps d d') : d'.Rewritable path := by
  have hfile := hkeeps.file _ h.file
  refine ⟨h.writable.grows_of_free hkeeps.toGrows ?_, ?_⟩
  · exact fun hdirectory => hfile hdirectory.fileAt?_eq_none
  · rwa [hkeeps.place]

end Rewritable

end Disk

/-! ## Directories that are written to again -/

namespace Sink

variable {root : Text} {policy : OverwritePolicy} {file : OutputFile} {files : List OutputFile}
  {w w' : World} {result : Except Error Bool} {written : Bool}

namespace Writes

theorem notices_eq (h : Writes root policy file w result w') : w'.notices = w.notices := by
  cases h with
  | escapes | skipped | existing | failed | written => rfl

/-- What stands on the disk keeps standing. -/
theorem disk_keeps (h : Writes root policy file w result w') : Disk.Keeps w.disk w'.disk := by
  refine ⟨h.grows, fun p hp => ?_⟩
  by_cases hresult : result = .ok true
  · subst hresult
    rw [h.of_true.2.2]
    split
    · exact Option.some_ne_none _
    · exact hp
  · rwa [h.unchanged hresult]

/-- A file that is written can be written again. -/
theorem rewritable (h : Writes root policy file w (.ok true) w') :
    w'.disk.Rewritable (Path.join root file.name) := by
  cases h with
  | written disk _ _ hwrite =>
    obtain ⟨hwritable, rfl⟩ := Disk.writable_of_write? hwrite
    exact hwritable.rewritable_set file.contents

/-- Behind a write without an error something is under the path of the file. -/
theorem isPresent (h : Writes root policy file w (.ok written) w') :
    Path.escapes file.name = false ∧ w'.disk.isPresent (Path.join root file.name) = true := by
  cases written with
  | true => exact ⟨h.of_true.1, h.rewritable.isPresent⟩
  | false =>
    cases h with
    | skipped hname hpresent _ => exact ⟨hname, hpresent⟩

/-- Files are left alone under one policy only. -/
theorem of_ok (h : Writes root policy file w (.ok written) w') (hpolicy : policy ≠ .skip) :
    written = true := by
  cases h with
  | skipped _ _ hskip => exact absurd hskip hpolicy
  | written => rfl

end Writes

theorem keeps_after (root : Text) (policy : OverwritePolicy) (w : World)
    (files : List OutputFile) :
    Disk.Keeps w.disk (after (directory root policy) w files).disk := by
  induction files generalizing w with
  | nil => exact Disk.Keeps.refl _
  | cons file files ih => exact (writes_step root policy file w).disk_keeps.trans (ih _)

theorem notices_after (root : Text) (policy : OverwritePolicy) (w : World)
    (files : List OutputFile) :
    (after (directory root policy) w files).notices = w.notices := by
  induction files generalizing w with
  | nil => rfl
  | cons file files ih => exact (ih _).trans (writes_step root policy file w).notices_eq

/-- Behind some writes all that were carried out can be carried out again. -/
theorem rewritable_after (hfile : file ∈ taken (directory root policy) w files) :
    Path.escapes file.name = false ∧
      (after (directory root policy) w files).disk.Rewritable (Path.join root file.name) := by
  induction files generalizing w with
  | nil => cases hfile
  | cons first files ih =>
    by_cases hresult : (step (directory root policy) first w).1 = .ok true
    · rw [taken_cons_of_true hresult] at hfile
      rcases List.mem_cons.1 hfile with rfl | hfile
      · have hwrites := writes_step root policy file w
        rw [hresult] at hwrites
        exact ⟨hwrites.of_true.1, hwrites.rewritable.keeps (keeps_after root policy _ files)⟩
      · exact ih hfile
    · rw [taken_cons_of_not hresult] at hfile
      exact ih hfile

/-- What is read under a path stays as long as nothing is written to its place. -/
theorem read?_after {path : Text} (hpath : w.disk.Passable path)
    (hapart : ∀ file ∈ taken (directory root policy) w files,
      w.disk.place (Path.join root file.name) ≠ w.disk.place path) :
    (after (directory root policy) w files).disk.read? path = w.disk.read? path := by
  have hnone : (taken (directory root policy) w files).reverse.find? (fun file =>
      w.disk.place root ++ Path.names file.name == w.disk.place path) = none := by
    rw [List.find?_eq_none]
    intro file hfile hplace
    have htaken := List.mem_reverse.1 hfile
    refine hapart file htaken ?_
    rw [Disk.place_join w.disk root (rewritable_after htaken).1]
    exact eq_of_beq hplace
  refine (keeps_after root policy w files).read? hpath ?_
  rw [fileAt?_after, hnone]
  rfl

/-- Behind writes without an error something is under the paths of all of the files. -/
theorem isPresent_after (h : Settles (directory root policy) w files) (hfile : file ∈ files) :
    Path.escapes file.name = false ∧
      (after (directory root policy) w files).disk.isPresent (Path.join root file.name) = true := by
  induction files generalizing w with
  | nil => cases hfile
  | cons first files ih =>
    obtain ⟨⟨written, hfirst⟩, hrest⟩ := h
    rcases List.mem_cons.1 hfile with rfl | hfile
    · have hwrites := writes_step root policy file w
      rw [hfirst] at hwrites
      obtain ⟨hname, hpresent⟩ := hwrites.isPresent
      exact ⟨hname, (keeps_after root policy _ files).isPresent hpresent⟩
    · exact ih hrest hfile

/-- Unless files are skipped, those that are not refused are written. -/
theorem takes_of_settles (h : Settles (directory root policy) w files) (hpolicy : policy ≠ .skip) :
    Takes (directory root policy) w files := by
  induction files generalizing w with
  | nil => trivial
  | cons file files ih =>
    obtain ⟨⟨written, hfile⟩, hrest⟩ := h
    have hwrites := writes_step root policy file w
    rw [hfile] at hwrites
    exact ⟨by rw [hfile, hwrites.of_ok hpolicy], ih hrest⟩

/-- A file of a path that denotes something is left alone where files are skipped. -/
theorem step_skip (hname : Path.escapes file.name = false)
    (hpresent : w.disk.isPresent (Path.join root file.name) = true) :
    step (directory root .skip) file w = (.ok false, w) := by
  have h := writes_step root .skip file w
  cases hstep : step (directory root .skip) file w with
  | mk result w' =>
    rw [hstep] at h
    cases h with
    | escapes hescapes =>
      rw [hname] at hescapes
      cases hescapes
    | skipped => rfl
    | existing _ _ hpolicy => cases hpolicy
    | failed _ hpolicy | written _ _ hpolicy => cases hpolicy hpresent

/-- It is refused where files that exist are an error. -/
theorem step_error (hname : Path.escapes file.name = false)
    (hpresent : w.disk.isPresent (Path.join root file.name) = true) :
    step (directory root .error) file w =
      (.error (.outputExists (Path.join root file.name)), w) := by
  have h := writes_step root .error file w
  cases hstep : step (directory root .error) file w with
  | mk result w' =>
    rw [hstep] at h
    cases h with
    | escapes hescapes =>
      rw [hname] at hescapes
      cases hescapes
    | skipped _ _ hpolicy => cases hpolicy
    | existing => rfl
    | failed _ hpolicy | written _ _ hpolicy => cases hpolicy hpresent

/-- And where files are overwritten, one that can be written again is, and no directory is
made for it. -/
theorem step_overwrite (hname : Path.escapes file.name = false)
    (h : w.disk.Rewritable (Path.join root file.name)) :
    step (directory root .overwrite) file w =
      (.ok true, { w with
        disk := w.disk.set (w.disk.place (Path.join root file.name)) (.file file.contents) }) := by
  have hdirs := h.writable.makeDirs_parent
  have hstep := @step_of_writable root .overwrite file w hname (fun _ => rfl)
  rw [hdirs] at hstep
  exact hstep rfl h.writable

/-- Where files are skipped, those of paths that denote something leave no trace. -/
theorem settles_skip (h : ∀ file ∈ files, Path.escapes file.name = false ∧
      w.disk.isPresent (Path.join root file.name) = true) :
    Settles (directory root .skip) w files ∧ taken (directory root .skip) w files = [] ∧
      after (directory root .skip) w files = w := by
  induction files with
  | nil => exact ⟨trivial, rfl, rfl⟩
  | cons file files ih =>
    obtain ⟨⟨hname, hpresent⟩, hfiles⟩ := List.forall_mem_cons.1 h
    have hstep := step_skip hname hpresent
    obtain ⟨hsettles, htaken, hafter⟩ := ih hfiles
    refine ⟨⟨⟨false, by rw [hstep]⟩, by rwa [hstep]⟩, ?_, ?_⟩
    · rw [taken_cons_of_not (by simp [hstep]), hstep]
      exact htaken
    · rw [after_cons, hstep]
      exact hafter

/-- Where files are overwritten, those that can be written again are all taken, and nothing
changes but their contents. -/
theorem takes_overwrite (h : ∀ file ∈ files, Path.escapes file.name = false ∧
      w.disk.Rewritable (Path.join root file.name)) :
    Takes (directory root .overwrite) w files ∧
      ∀ p, (after (directory root .overwrite) w files).disk.get? p =
        ((files.reverse.find? fun file => w.disk.place root ++ Path.names file.name == p).map
          fun file => Entry.file file.contents).or (w.disk.get? p) := by
  induction files generalizing w with
  | nil => exact ⟨trivial, fun p => rfl⟩
  | cons file files ih =>
    obtain ⟨⟨hname, hfile⟩, hfiles⟩ := List.forall_mem_cons.1 h
    have hstep := step_overwrite hname hfile
    have hkeeps := (writes_step root .overwrite file w).disk_keeps
    obtain ⟨htakes, hget⟩ := ih (w := (step (directory root .overwrite) file w).2) fun f hf =>
      ⟨(hfiles f hf).1, (hfiles f hf).2.keeps hkeeps⟩
    refine ⟨⟨by rw [hstep], htakes⟩, fun p => ?_⟩
    rw [after_cons, hget, hkeeps.place, hstep, Disk.get?_set _ hfile.writable.place_ne_nil,
      Disk.place_join w.disk root hname, List.reverse_cons, List.find?_append, Option.map_or,
      Option.or_assoc]
    by_cases hp : p = w.disk.place root ++ Path.names file.name
    · simp [hp]
    · simp [hp, Ne.symm hp]

end Sink

end Stencil
