import Stencil.Proofs.Walking
import Stencil.Sink

/-!
# Directories of files

A directory refuses the names that lead out of it. What its policy does with a name under
which something is there depends on that alone, so of the files written to one place the
first stays unless files are overwritten, and then the last. Nothing outside of the
directory is touched.

## Main definitions

* `Disk.Straight`: the paths below which nothing is missed.
* `Sink.Writes`: the ways in which a write to a directory ends.
* `Sink.after`, `Sink.taken`: what some writes leave, and which of them were carried out.
* `Sink.Honours`: the writes that keep to the policy and to the directory.
-/
namespace Stencil

/-! ## Worlds as hosts -/

namespace World

variable {ε α β σ : Type} {path contents : Text}

theorem run_lift_bind (x : StateM σ α) (f : α → ExceptT ε (StateM σ) β) (s : σ) :
    (ExceptT.lift x >>= f).run s = (f (x s).1).run (x s).2 := rfl

theorem isPresent_eq (w : World) :
    (Host.isPresent path : StateM World Bool) w = (w.disk.isPresent path, w) := rfl

theorem makeDirs_eq (w : World) :
    (Host.makeDirs path : StateM World Bool) w =
      ((w.disk.makeDirs path).1, { w with disk := (w.disk.makeDirs path).2 }) := rfl

theorem write_eq (w : World) :
    (Host.write path contents : StateM World Bool) w =
      match w.disk.write? path contents with
      | some disk => (true, { w with disk := disk })
      | none => (false, w) := rfl

end World

/-! ## Names under a directory -/

namespace Path

variable {name : Text}

theorem escapes_eq_false_iff :
    escapes name = false ↔ name ≠ [] ∧ isAbsolute name = false ∧ ['.', '.'] ∉ names name := by
  simp [escapes, and_assoc]

theorem not_back_of_not_escapes (h : escapes name = false) : ['.', '.'] ∉ Disk.steps name := by
  intro hmem
  refine (escapes_eq_false_iff.1 h).2.2 ?_
  rw [Disk.names_eq, List.mem_filter]
  exact ⟨hmem, by decide⟩

end Path

namespace Disk

variable {d : Disk} {root name : Text} {r : List Text}

theorem start_join (d : Disk) (root : Text) (h : Path.escapes name = false) :
    d.start (Path.join root name) = d.start root := by
  rw [start, start, Path.isAbsolute_join (Path.escapes_eq_false_iff.1 h).2.1]

/-- A name that does not lead out leads down from the directory. -/
theorem place_join (d : Disk) (root : Text) (h : Path.escapes name = false) :
    d.place (Path.join root name) = d.place root ++ Path.names name := by
  rw [place, place, start_join d root h, steps_join, List.foldl_append,
    foldl_next (Path.not_back_of_not_escapes h), names_eq]

theorem Leads.place_eq (h : d.Leads root r) : d.place root = r := (eq_foldl_of_walk? h.1).symm

theorem Leads.downward (h : d.Leads root r) (hname : Path.escapes name = false) :
    d.Downward (Path.join root name) := by
  refine ⟨steps root, steps name, r, steps_join root name, ?_, h.2,
    Path.not_back_of_not_escapes hname⟩
  rw [start_join d root hname]
  exact h.1

/-- A path that leads to a directory, or goes on without a step back. -/
def Straight (d : Disk) (root : Text) : Prop := ['.', '.'] ∉ steps root ∨ ∃ r, d.Leads root r

theorem Straight.grows {d' : Disk} (h : d.Straight root) (hgrows : Grows d d') :
    d'.Straight root :=
  h.imp_right fun ⟨r, hleads⟩ => ⟨r, hgrows.leads hleads⟩

theorem Straight.downward (h : d.Straight root) (hd : d.Lawful)
    (hname : Path.escapes name = false) : d.Downward (Path.join root name) := by
  rcases h with hroot | ⟨r, hleads⟩
  · -- Without a step back everything is below the place where the path starts.
    refine ⟨[], steps (Path.join root name), d.start (Path.join root name), rfl, rfl,
      hd.isDirectory_start _, ?_⟩
    rw [steps_join, List.mem_append, not_or]
    exact ⟨hroot, Path.not_back_of_not_escapes hname⟩
  · exact hleads.downward hname

end Disk

namespace Sink

variable {root : Text} {policy : OverwritePolicy} {file : OutputFile} {files : List OutputFile}
  {w w' : World} {result : Except Error Bool} {r p n : List Text}

/-! ## One write -/

/-- The ways in which the write of a file to a directory ends. -/
inductive Writes (root : Text) (policy : OverwritePolicy) (file : OutputFile) (w : World) :
    Except Error Bool → World → Prop where
  | escapes (h : Path.escapes file.name = true) :
    Writes root policy file w (.error (.fileName (.escapes file.name root))) w
  | skipped (h : Path.escapes file.name = false)
    (hpresent : w.disk.isPresent (Path.join root file.name) = true) (hpolicy : policy = .skip) :
    Writes root policy file w (.ok false) w
  | existing (h : Path.escapes file.name = false)
    (hpresent : w.disk.isPresent (Path.join root file.name) = true) (hpolicy : policy = .error) :
    Writes root policy file w (.error (.outputExists (Path.join root file.name))) w
  | failed (h : Path.escapes file.name = false)
    (hpolicy : w.disk.isPresent (Path.join root file.name) = true → policy = .overwrite)
    (hfailed : (w.disk.makeDirs (Path.parent (Path.join root file.name))).1 = true →
      (w.disk.makeDirs (Path.parent (Path.join root file.name))).2.write?
        (Path.join root file.name) file.contents = none) :
    Writes root policy file w (.error .io)
      { w with disk := (w.disk.makeDirs (Path.parent (Path.join root file.name))).2 }
  | written (disk : Disk) (h : Path.escapes file.name = false)
    (hpolicy : w.disk.isPresent (Path.join root file.name) = true → policy = .overwrite)
    (hwrite : (w.disk.makeDirs (Path.parent (Path.join root file.name))).2.write?
      (Path.join root file.name) file.contents = some disk) :
    Writes root policy file w (.ok true) { w with disk := disk }

/-- Writing a file to a sink: what is returned, and the state behind it. -/
def step {σ : Type} (sink : Sink (StateM σ)) (file : OutputFile) (s : σ) :
    Except Error Bool × σ := (sink.write file).run s

/-- Every write ends in one of these ways. -/
theorem writes_step (root : Text) (policy : OverwritePolicy) (file : OutputFile) (w : World) :
    Writes root policy file w (step (directory root policy) file w).1
      (step (directory root policy) file w).2 := by
  unfold step directory
  cases hescapes : Path.escapes file.name with
  | true =>
    simp only [hescapes]
    rw [if_pos trivial]
    exact .escapes hescapes
  | false =>
    simp only [hescapes]
    rw [if_neg (by decide), World.run_lift_bind, World.isPresent_eq]
    split
    · next h =>
      obtain ⟨hpresent, hpolicy⟩ : w.disk.isPresent (Path.join root file.name) = true ∧
        policy = .skip := by simpa using h
      exact .skipped hescapes hpresent hpolicy
    · next hskip =>
      split
      · next h =>
        obtain ⟨hpresent, hpolicy⟩ : w.disk.isPresent (Path.join root file.name) = true ∧
          policy = .error := by simpa using h
        exact .existing hescapes hpresent hpolicy
      · next herror =>
        have hpolicy : w.disk.isPresent (Path.join root file.name) = true →
            policy = .overwrite := by
          intro hpresent
          cases policy <;> simp_all
        rw [World.run_lift_bind, World.makeDirs_eq]
        split
        · next hmade => exact .failed hescapes hpolicy fun h => by simp [h] at hmade
        · rw [World.run_lift_bind, World.write_eq]
          cases hwrite : (w.disk.makeDirs (Path.parent (Path.join root file.name))).2.write?
              (Path.join root file.name) file.contents with
          | none => exact .failed hescapes hpolicy fun _ => hwrite
          | some disk => exact .written disk hescapes hpolicy hwrite

/-- Where the policy admits it and the directories can be made, a write is carried out. -/
theorem step_of_writable (hname : Path.escapes file.name = false)
    (hpolicy : w.disk.isPresent (Path.join root file.name) = true → policy = .overwrite)
    (hmade : (w.disk.makeDirs (Path.parent (Path.join root file.name))).1 = true)
    (hwritable : (w.disk.makeDirs (Path.parent (Path.join root file.name))).2.Writable
      (Path.join root file.name)) :
    step (directory root policy) file w =
      (.ok true, { w with
        disk := (w.disk.makeDirs (Path.parent (Path.join root file.name))).2.set
          (w.disk.place (Path.join root file.name)) (.file file.contents) }) := by
  have hgrows := (Disk.adds_makeDirs w.disk (Path.parent (Path.join root file.name))).grows
  have hwrite := hwritable.write?_eq file.contents
  have h := writes_step root policy file w
  cases hstep : step (directory root policy) file w with
  | mk result w' =>
    rw [hstep] at h
    cases h with
    | escapes h =>
      rw [hname] at h
      cases h
    | skipped _ hpresent hkeeps | existing _ hpresent hkeeps =>
      rw [hpolicy hpresent] at hkeeps
      cases hkeeps
    | failed _ _ h =>
      rw [h hmade] at hwrite
      cases hwrite
    | written disk _ _ h =>
      rw [h, hgrows.place] at hwrite
      rw [Option.some.inj hwrite]

namespace Writes

/-- The directories that are there stay. -/
theorem grows (h : Writes root policy file w result w') : Disk.Grows w.disk w'.disk := by
  cases h with
  | escapes | skipped | existing => exact Disk.Grows.refl _
  | failed => exact (Disk.adds_makeDirs _ _).grows
  | written disk _ _ hwrite =>
    obtain ⟨hwritable, rfl⟩ := Disk.writable_of_write? hwrite
    exact (Disk.adds_makeDirs _ _).grows.trans hwritable.grows

theorem lawful (h : Writes root policy file w result w') (hd : w.disk.Lawful) :
    w'.disk.Lawful := by
  cases h with
  | escapes | skipped | existing => exact hd
  | failed => exact hd.makeDirs _
  | written disk _ _ hwrite =>
    obtain ⟨hwritable, rfl⟩ := Disk.writable_of_write? hwrite
    exact hwritable.lawful (hd.makeDirs _)

/-- A write that is not carried out changes no file. -/
theorem unchanged (h : Writes root policy file w result w') (hresult : result ≠ .ok true)
    (p : List Text) : w'.disk.fileAt? p = w.disk.fileAt? p := by
  cases h with
  | escapes | skipped | existing => rfl
  | failed => exact (Disk.adds_makeDirs _ _).fileAt? p
  | written => exact absurd rfl hresult

/-- A write that is carried out leaves the contents at the place of the name, and every
other file as it is. -/
theorem of_true (h : Writes root policy file w (.ok true) w') :
    Path.escapes file.name = false ∧
      w'.disk.read? (Path.join root file.name) = some file.contents ∧
      ∀ p, w'.disk.fileAt? p =
        if p = w.disk.place root ++ Path.names file.name then some file.contents
        else w.disk.fileAt? p := by
  cases h with
  | written disk hname _ hwrite =>
    obtain ⟨hwritable, rfl⟩ := Disk.writable_of_write? hwrite
    have hadds := Disk.adds_makeDirs w.disk (Path.parent (Path.join root file.name))
    refine ⟨hname, hwritable.read?_set, fun p => ?_⟩
    rw [Disk.fileAt?_set_file hwritable.place_ne_nil, hadds.fileAt?, hadds.grows.place,
      Disk.place_join w.disk root hname]

/-- Where files are not overwritten, a write is carried out only where nothing is. -/
theorem get?_eq_none (h : Writes root policy file w (.ok true) w') (hpolicy : policy ≠ .overwrite)
    (hd : w.disk.Lawful) (hdown : w.disk.Downward (Path.join root file.name)) :
    w.disk.get? (w.disk.place root ++ Path.names file.name) = none := by
  cases h with
  | written disk hname hallowed hwrite =>
    obtain ⟨hwritable, -⟩ := Disk.writable_of_write? hwrite
    rw [← Disk.place_join w.disk root hname]
    refine Decidable.byContradiction fun hthere => ?_
    have hgrows := (Disk.adds_makeDirs w.disk (Path.parent (Path.join root file.name))).grows
    have hpresent := (hd.writable_of_grows hdown hgrows hwritable hthere).isPresent
    rw [Option.isSome_iff_ne_none.2 hthere] at hpresent
    exact hpolicy (hallowed hpresent)

end Writes

/-! ## Many writes -/

section
variable {σ : Type}

/-- What is left when files are written one after the other, whatever becomes of each. -/
def after (sink : Sink (StateM σ)) (s : σ) (files : List OutputFile) : σ :=
  files.foldl (fun s file => (step sink file s).2) s

/-- The files whose writes are carried out when files are written one after the other. -/
def taken (sink : Sink (StateM σ)) : σ → List OutputFile → List OutputFile
  | _, [] => []
  | s, file :: files =>
    match step sink file s with
    | (.ok true, s) => file :: taken sink s files
    | (_, s) => taken sink s files

@[simp] theorem after_nil (sink : Sink (StateM σ)) (s : σ) : after sink s [] = s := rfl

@[simp] theorem after_cons (sink : Sink (StateM σ)) (s : σ) (file : OutputFile)
    (files : List OutputFile) :
    after sink s (file :: files) = after sink (step sink file s).2 files := rfl

theorem taken_cons_of_true {sink : Sink (StateM σ)} {s : σ} (h : (step sink file s).1 = .ok true) :
    taken sink s (file :: files) = file :: taken sink (step sink file s).2 files := by
  have hstep : step sink file s = (.ok true, (step sink file s).2) := Prod.ext h rfl
  rw [taken, hstep]

theorem taken_cons_of_not {sink : Sink (StateM σ)} {s : σ} (h : (step sink file s).1 ≠ .ok true) :
    taken sink s (file :: files) = taken sink (step sink file s).2 files := by
  rw [taken]
  split
  · next heq => exact absurd (congrArg Prod.fst heq) h
  · next heq => rw [heq]

end

/-- Whether a file has the names that lead to a place. -/
def standsAt (n : List Text) (file : OutputFile) : Bool := Path.names file.name == n

theorem grows_after (root : Text) (policy : OverwritePolicy) (w : World) (files : List OutputFile) :
    Disk.Grows w.disk (after (directory root policy) w files).disk := by
  induction files generalizing w with
  | nil => exact Disk.Grows.refl _
  | cons file files ih => exact (writes_step root policy file w).grows.trans (ih _)

/-- Every place holds the last file that is written to it, or what it held before. -/
theorem fileAt?_after (root : Text) (policy : OverwritePolicy) (w : World)
    (files : List OutputFile) (p : List Text) :
    (after (directory root policy) w files).disk.fileAt? p =
      (((taken (directory root policy) w files).reverse.find?
        fun file => w.disk.place root ++ Path.names file.name == p).map
          OutputFile.contents).or (w.disk.fileAt? p) := by
  induction files generalizing w with
  | nil => rfl
  | cons file files ih =>
    have hwrites := writes_step root policy file w
    rw [after_cons, ih, hwrites.grows.place]
    by_cases hresult : (step (directory root policy) file w).1 = .ok true
    · rw [hresult] at hwrites
      rw [taken_cons_of_true hresult, hwrites.of_true.2.2, List.reverse_cons,
        List.find?_append, Option.map_or, Option.or_assoc]
      by_cases hp : p = w.disk.place root ++ Path.names file.name
      · simp [hp]
      · simp [hp, Ne.symm hp]
    · rw [taken_cons_of_not hresult, hwrites.unchanged hresult]

/-- Outside of the directory no file is touched. -/
theorem fileAt?_after_of_outside (hroot : w.disk.Leads root r) (hp : ¬ r <+: p)
    (files : List OutputFile) :
    (after (directory root policy) w files).disk.fileAt? p = w.disk.fileAt? p := by
  have hnone : (taken (directory root policy) w files).reverse.find?
      (fun file => w.disk.place root ++ Path.names file.name == p) = none := by
    rw [List.find?_eq_none, hroot.place_eq]
    intro file _ hplace
    obtain rfl : r ++ Path.names file.name = p := by simpa using hplace
    exact hp (List.prefix_append ..)
  rw [fileAt?_after, hnone]
  rfl

/-- Where files are overwritten, the last one that is written to a place is there. -/
theorem fileAt?_after_of_overwrite (hroot : w.disk.Leads root r) (files : List OutputFile)
    (n : List Text) :
    (after (directory root .overwrite) w files).disk.fileAt? (r ++ n) =
      (((taken (directory root .overwrite) w files).reverse.find? (standsAt n)).map
        OutputFile.contents).or (w.disk.fileAt? (r ++ n)) := by
  have hstands : (fun file : OutputFile => r ++ Path.names file.name == r ++ n) = standsAt n := by
    funext file
    rw [standsAt, Bool.eq_iff_iff]
    simp
  rw [fileAt?_after, hroot.place_eq, hstands]

/-- Where files are not overwritten, what is at a place stays, and where nothing is, the first
file that is written. -/
theorem fileAt?_after_of_keep (hpolicy : policy ≠ .overwrite) (hd : w.disk.Lawful)
    (hroot : w.disk.Leads root r) (files : List OutputFile) (n : List Text) :
    (after (directory root policy) w files).disk.fileAt? (r ++ n) =
      (w.disk.fileAt? (r ++ n)).or (((taken (directory root policy) w files).find?
        (standsAt n)).map OutputFile.contents) := by
  induction files generalizing w with
  | nil => simp [taken]
  | cons file files ih =>
    have hwrites := writes_step root policy file w
    rw [after_cons, ih (hwrites.lawful hd) (hwrites.grows.leads hroot)]
    by_cases hresult : (step (directory root policy) file w).1 = .ok true
    · rw [hresult] at hwrites
      have hnone := hwrites.get?_eq_none hpolicy hd (hroot.downward hwrites.of_true.1)
      rw [hroot.place_eq] at hnone
      rw [taken_cons_of_true hresult, hwrites.of_true.2.2, hroot.place_eq]
      by_cases hn : n = Path.names file.name
      · subst hn
        rw [if_pos rfl, Disk.fileAt?_eq_none (by simp [hnone]),
          List.find?_cons_of_pos (by simp [standsAt])]
        rfl
      · rw [if_neg (by simpa using hn),
          List.find?_cons_of_neg (by simpa [standsAt] using Ne.symm hn)]
    · rw [taken_cons_of_not hresult, hwrites.unchanged hresult]

/-! ## The policy and the directory are kept -/

/-- What the write of a file to a directory at a place may do. -/
structure Honours (root : Text) (policy : OverwritePolicy) (r : List Text) (file : OutputFile)
    (w : World) (result : Except Error Bool) (w' : World) : Prop where
  /-- A name that leads out is refused and does not exist, and nothing is touched. -/
  refused : Path.escapes file.name = true →
    result = .error (.fileName (.escapes file.name root)) ∧
      (directory root policy : Sink (StateM World)).has file.name w = (false, w) ∧ w' = w
  /-- A write that is carried out leaves the contents under the name and no other trace in
  files. -/
  written : result = .ok true → w'.disk.read? (Path.join root file.name) = some file.contents ∧
    ∀ p, w'.disk.fileAt? p =
      if p = r ++ Path.names file.name then some file.contents else w.disk.fileAt? p
  /-- What exists is left alone under one policy. -/
  skipped : result = .ok false ↔ policy = .skip ∧ Path.escapes file.name = false ∧
    w.disk.isPresent (Path.join root file.name) = true
  /-- What exists is reported under another. -/
  existing : (∃ path, result = .error (.outputExists path)) ↔
    policy = .error ∧ Path.escapes file.name = false ∧
      w.disk.isPresent (Path.join root file.name) = true
  /-- Then nothing is touched. -/
  untouched : (result = .ok false ∨ ∃ path, result = .error (.outputExists path)) → w' = w
  /-- Only a write that is carried out changes files. -/
  unchanged : result ≠ .ok true → ∀ p, w'.disk.fileAt? p = w.disk.fileAt? p

theorem Writes.honours (h : Writes root policy file w result w') (hroot : w.disk.Leads root r) :
    Honours root policy r file w result w' := by
  refine ⟨?_, ?_, ?_, ?_, ?_, h.unchanged⟩
  · intro hescapes
    have hhas : (directory root policy : Sink (StateM World)).has file.name w = (false, w) := by
      simp only [directory]
      rw [if_pos hescapes]
      rfl
    cases h with
    | escapes => exact ⟨rfl, hhas, rfl⟩
    | skipped hname | existing hname | failed hname | written _ hname =>
      rw [hescapes] at hname
      cases hname
  · rintro rfl
    obtain ⟨-, hread, hfiles⟩ := h.of_true
    rw [hroot.place_eq] at hfiles
    exact ⟨hread, hfiles⟩
  · cases h with
    | escapes hname => simp [hname]
    | skipped hname hpresent hpolicy => simp [hname, hpresent, hpolicy]
    | existing _ _ hpolicy => simp [hpolicy]
    | failed _ hpolicy | written _ _ hpolicy =>
      constructor
      · intro hresult
        cases hresult
      · rintro ⟨hskip, -, hpresent⟩
        rw [hpolicy hpresent] at hskip
        cases hskip
  · cases h with
    | escapes hname => simp [hname]
    | skipped _ _ hpolicy => simp [hpolicy]
    | existing hname hpresent hpolicy => simp [hname, hpresent, hpolicy]
    | failed _ hpolicy | written _ _ hpolicy =>
      constructor
      · rintro ⟨_, hresult⟩
        cases hresult
      · rintro ⟨herror, -, hpresent⟩
        rw [hpolicy hpresent] at herror
        cases herror
  · cases h with
    | escapes | skipped | existing => exact fun _ => rfl
    | failed | written => simp

theorem fileAt?_of_empty {d : Disk} (hr : d.IsDirectory r)
    (hempty : ∀ n, n ≠ [] → d.get? (r ++ n) = none) (n : List Text) :
    d.fileAt? (r ++ n) = none := by
  rcases Decidable.em (n = []) with rfl | hn
  · rw [List.append_nil]
    exact hr.fileAt?_eq_none
  · exact Disk.fileAt?_eq_none (by simp [hempty n hn])

/-- **A directory keeps its policy and nothing leaves it.** Write any files one after the
other into an empty directory that is there. A name that is empty, absolute or leads back is
refused and does not exist; a file is skipped, or refused as existing, exactly where the
policy says so and its path exists; and only a write that is carried out changes a file,
which is the one of its name. In the end every place holds the first file that was written
to it, or the last one if files are overwritten, and there are no other new files. -/
theorem directory_keeps_policy (policy : OverwritePolicy) (hd : w.disk.Lawful)
    (hroot : w.disk.Leads root r) (hempty : ∀ n, n ≠ [] → w.disk.get? (r ++ n) = none)
    (files : List OutputFile) :
    (∀ file, Honours root policy r file (after (directory root policy) w files)
      (step (directory root policy) file (after (directory root policy) w files)).1
      (step (directory root policy) file (after (directory root policy) w files)).2) ∧
    (∀ n, (after (directory root policy) w files).disk.fileAt? (r ++ n) =
      ((match policy with
        | .overwrite => (taken (directory root policy) w files).reverse
        | _ => taken (directory root policy) w files).find? (standsAt n)).map
          OutputFile.contents) ∧
    ∀ p, (after (directory root policy) w files).disk.fileAt? p ≠ none →
      r <+: p ∨ (after (directory root policy) w files).disk.fileAt? p = w.disk.fileAt? p := by
  have hnofile := fileAt?_of_empty hroot.2 hempty
  refine ⟨?_, ?_, ?_⟩
  · intro file
    exact (writes_step root policy file _).honours
      ((grows_after root policy w files).leads hroot)
  · intro n
    cases policy with
    | overwrite => rw [fileAt?_after_of_overwrite hroot, hnofile, Option.or_none]
    | skip | error => rw [fileAt?_after_of_keep (by decide) hd hroot, hnofile, Option.none_or]
  · intro p _
    rcases Decidable.em (r <+: p) with hp | hp
    · exact .inl hp
    · exact .inr (fileAt?_after_of_outside hroot hp files)

/-- A world in whose working directory stands one empty directory. -/
def bare (name : Text) : World := World.ofDisk ⟨[([name], .directory)], []⟩

theorem get?_bare (name : Text) (hn : n ≠ []) : (bare name).disk.get? ([name] ++ n) = none := by
  have hne : [name] ++ n ≠ [name] := by simpa using hn
  rw [bare, World.ofDisk, Disk.get?, if_neg (by simp), List.lookup_cons, beq_false_of_ne hne]
  rfl

/-- Of two files whose names lead to one place the first stays, and one that would stand
outside is nowhere. -/
theorem first_stays :
    (after (directory "out".toList .skip) (bare "out".toList)
      [⟨"a//b".toList, ['1']⟩, ⟨"./a/b".toList, ['2']⟩, ⟨"../b".toList, ['3']⟩]).disk.fileAt?
        ["out".toList, ['a'], ['b']] = some ['1'] := by
  have hd : (bare "out".toList).disk.Lawful := Disk.Lawful.of_entries rfl (by decide)
  have hroot : (bare "out".toList).disk.Leads "out".toList ["out".toList] :=
    ⟨by decide +kernel, by decide⟩
  have hfinal := (directory_keeps_policy .skip hd hroot (fun _ => get?_bare _)
    [⟨"a//b".toList, ['1']⟩, ⟨"./a/b".toList, ['2']⟩, ⟨"../b".toList, ['3']⟩]).2.1 [['a'], ['b']]
  refine hfinal.trans ?_
  decide +kernel

end Sink
end Stencil
