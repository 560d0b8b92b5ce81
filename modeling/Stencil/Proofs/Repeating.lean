import Stencil.Proofs.Invoking
import Stencil.Proofs.Rewriting

/-!
# Running a command line again

A run that ends well leaves something under the path of each of its files. As long as it
wrote over nothing that it reads, the same command line has the same job once more, and
leaves every place as it is.

## Main definitions

* `Program.inputs`: the paths that a rendering reads.
* `Program.Job.written`: the files that a job writes.
* `Program.Repeats`: what a second run does.
-/
namespace Stencil

/-! ## Runs that end well -/

namespace Generator

variable {σ : Type} {sink : Sink (StateM σ)} {s : σ} {g : Generator} {tables : List Table}
  {templates : List Template} {file : OutputFile} {files : List OutputFile}

/-- A delivery that ends well has all files taken or left alone. -/
theorem settles_of_deliver {summary summary' : Summary} {u : σ}
    (h : (deliver sink summary files).run s = (.ok summary', u)) : Sink.Settles sink s files := by
  induction files generalizing s summary with
  | nil => trivial
  | cons file files ih =>
    rw [deliver] at h
    cases hstep : (sink.write file).run s with
    | mk answer t =>
      have hfile : Sink.step sink file s = (answer, t) := hstep
      cases answer with
      | error e =>
        rw [run_bind_of_error hstep] at h
        cases h
      | ok written =>
        rw [run_bind_of_ok hstep] at h
        exact ⟨⟨written, by rw [hfile]⟩, by rw [hfile]; exact ih h⟩

/-- A run that ends well has generated all templates, and all of their files are taken or left
alone. -/
theorem settles_of_runAfter {summary summary' : Summary} {u : σ}
    (h : (g.runAfter tables sink summary templates).run s = (.ok summary', u)) :
    (∀ t ∈ templates, ∃ files, g.generate t tables = .ok files) ∧
      Sink.Settles sink s (g.delivered tables templates) := by
  induction templates generalizing s summary with
  | nil => exact ⟨List.forall_mem_nil _, trivial⟩
  | cons t templates ih =>
    rw [runAfter] at h
    rw [delivered, List.forall_mem_cons]
    cases hgenerate : g.generate t tables with
    | error e =>
      rw [hgenerate] at h
      cases h
    | ok files =>
      rw [hgenerate] at h
      cases hdeliver : (deliver sink summary files).run s with
      | mk answer v =>
        cases answer with
        | error e =>
          simp only [run_bind_of_error hdeliver] at h
          cases h
        | ok counted =>
          simp only [run_bind_of_ok hdeliver] at h
          have hfiles := settles_of_deliver hdeliver
          obtain rfl : Sink.after sink s files = v := by
            rw [deliver_of_settles hfiles] at hdeliver
            exact congrArg Prod.snd hdeliver
          obtain ⟨hrest, hsettles⟩ := ih h
          exact ⟨⟨⟨files, rfl⟩, hrest⟩, Sink.settles_append.2 ⟨hfiles, hsettles⟩⟩

/-- And it counts them. -/
theorem runAfter_of_settles (hgenerate : ∀ t ∈ templates, ∃ files, g.generate t tables = .ok files)
    (h : Sink.Settles sink s (g.delivered tables templates)) (summary : Summary) :
    let files := g.delivered tables templates
    (g.runAfter tables sink summary templates).run s =
      (.ok ⟨summary.written + (Sink.taken sink s files).length,
          summary.skipped + (files.length - (Sink.taken sink s files).length)⟩,
        Sink.after sink s files) := by
  induction templates generalizing s summary with
  | nil => rfl
  | cons t templates ih =>
    obtain ⟨⟨files, hfiles⟩, hrest⟩ := List.forall_mem_cons.1 hgenerate
    rw [delivered, hfiles] at h
    obtain ⟨hfirst, hbehind⟩ := Sink.settles_append.1 h
    have hrun := ih hrest hbehind
    have hle := (Sink.taken_sublist sink s files).length_le
    have hle' := (Sink.taken_sublist sink (Sink.after sink s files)
      (g.delivered tables templates)).length_le
    have hskipped (a b c d : Nat) (hca : c ≤ a) (hdb : d ≤ b) :
        a - c + (b - d) = a + b - (c + d) := by omega
    simp only [runAfter, delivered, hfiles]
    rw [run_bind_of_ok (deliver_of_settles hfirst summary), hrun, Sink.taken_append,
      Sink.after_append, List.length_append, List.length_append, Nat.add_assoc, Nat.add_assoc,
      hskipped _ _ _ _ hle hle']

/-- A run whose first file is refused ends with the error of that file. -/
theorem runAfter_of_refused (hgenerate : ∀ t ∈ templates, ∃ files, g.generate t tables = .ok files)
    (hfiles : g.delivered tables templates = file :: files) {e : Error} {u : σ}
    (hstep : Sink.step sink file s = (.error e, u)) (summary : Summary) :
    (g.runAfter tables sink summary templates).run s = (.error e, u) := by
  induction templates generalizing summary with
  | nil => cases hfiles
  | cons t templates ih =>
    obtain ⟨⟨front, hfront⟩, hrest⟩ := List.forall_mem_cons.1 hgenerate
    rw [delivered, hfront] at hfiles
    simp only [runAfter, hfront]
    cases front with
    | nil => exact ih hrest hfiles summary
    | cons first front =>
      obtain ⟨rfl, -⟩ := List.cons_eq_cons.1 hfiles
      have hwrite : (sink.write first).run s = (.error e, u) := hstep
      have hdeliver : (deliver sink summary (first :: front)).run s = (.error e, u) := by
        rw [deliver, run_bind_of_error hwrite]
      exact run_bind_of_error hdeliver

end Generator

open World

namespace Program

variable {w w' : World} {args paths : List Text} {path data : Text} {config? out? : Option Text}
  {job : Job}

/-! ## What a rendering reads -/

/-- The paths that a rendering reads. -/
def inputs (config? : Option Text) (data : Text) (paths : List Text) : List Text :=
  config?.getD Config.defaultPath :: data :: paths

theorem answer_discoverConfig (config? : Option Text) (w : World) :
    answer (discoverConfig config?) w =
      match w.disk.read? (config?.getD Config.defaultPath), config? with
      | some text, _ => Config.ofText text
      | none, some _ => .error .config
      | none, none => Config.ofText [] := by
  cases config? with
  | some path =>
    refine (answer_load path w).trans ?_
    rw [Option.getD_some]
    cases w.disk.read? path with
    | none | some text => rfl
  | none =>
    have hfile : answer (discoverConfig none) w =
        if (w.disk.read? Config.defaultPath).isSome then
          answer (discoverConfig.load Config.defaultPath) w
        else Config.ofText [] := by
      have hisFile : (Host.isFile Config.defaultPath : StateM World Bool) w =
          ((w.disk.read? Config.defaultPath).isSome, w) := rfl
      unfold discoverConfig answer
      rw [run_lift_bind, hisFile]
      cases w.disk.read? Config.defaultPath with
      | none | some text => rfl
    rw [hfile, answer_load, Option.getD_none]
    cases w.disk.read? Config.defaultPath with
    | none | some text => rfl

theorem answer_loadSchema (path : Text) (w : World) :
    answer (loadSchema path) w =
      match w.disk.read? path with
      | none => .error (.dataSource path .unreadable)
      | some text =>
        match Schema.tables? text with
        | some tables => .ok tables
        | none => .error (.dataSource path .malformed) := by
  unfold loadSchema answer
  rw [run_lift_bind, read?_eq]
  cases w.disk.read? path with
  | none => rfl
  | some text => cases htables : Schema.tables? text <;> simp [htables] <;> rfl

theorem answer_loadTemplate (path : Text) (w : World) :
    answer (loadTemplate path) w = Template.ofFile path (w.disk.read? path) := rfl

/-- What is loaded depends on what is read. -/
theorem answer_loadTemplates_congr (h : ∀ path ∈ paths, w'.disk.read? path = w.disk.read? path) :
    answer (loadTemplates paths) w' = answer (loadTemplates paths) w := by
  induction paths with
  | nil => rfl
  | cons path paths ih =>
    obtain ⟨hpath, hpaths⟩ := List.forall_mem_cons.1 h
    have hfirst : answer (loadTemplate path) w' = answer (loadTemplate path) w := by
      rw [answer_loadTemplate, answer_loadTemplate, hpath]
    rw [loadTemplates]
    cases hanswer : answer (loadTemplate path) w with
    | error e =>
      rw [(readOnly_loadTemplate path).answer_bind_of_error (hfirst.trans hanswer),
        (readOnly_loadTemplate path).answer_bind_of_error hanswer]
    | ok t =>
      rw [(readOnly_loadTemplate path).answer_bind_of_ok (hfirst.trans hanswer),
        (readOnly_loadTemplate path).answer_bind_of_ok hanswer]
      cases hrest : answer (loadTemplates paths) w with
      | error e =>
        rw [(readOnly_loadTemplates paths).answer_bind_of_error ((ih hpaths).trans hrest),
          (readOnly_loadTemplates paths).answer_bind_of_error hrest]
      | ok ts =>
        rw [(readOnly_loadTemplates paths).answer_bind_of_ok ((ih hpaths).trans hrest),
          (readOnly_loadTemplates paths).answer_bind_of_ok hrest]
        rfl

/-! ## The job of a second run -/

theorem passable_of_read? {contents : Text} (h : w.disk.read? path = some contents) :
    w.disk.Passable path := (Disk.read?_eq_some_iff.1 h).2.1

/-- The way to the configuration in the working directory is there. -/
theorem passable_defaultPath (hhome : w.disk.IsDirectory w.disk.home) :
    w.disk.Passable Config.defaultPath := by
  have hsteps : Disk.steps Config.defaultPath = [Config.defaultPath] := by decide +kernel
  have hstart : w.disk.start Config.defaultPath = w.disk.home := rfl
  rw [Disk.Passable, Disk.place, hsteps, hstart, Disk.walk?_cons hhome]
  rfl

/-- The ways to all that a rendering reads are there. -/
theorem passable_inputs (hhome : w.disk.IsDirectory w.disk.home)
    (hparse : Arguments.parse args = .ok ⟨config?, .render data out? false paths⟩)
    (hjob : Prepares args w job) : ∀ path ∈ inputs config? data paths, w.disk.Passable path := by
  cases hjob with
  | intro hparse' hconfig _ hdata htemplates =>
    cases hparse'.symm.trans hparse
    rw [inputs, List.forall_mem_cons, List.forall_mem_cons]
    refine ⟨?_, ?_, fun path hpath => ?_⟩
    · cases hread : w.disk.read? (config?.getD Config.defaultPath) with
      | some text => exact passable_of_read? hread
      | none =>
        cases config? with
        | none => exact passable_defaultPath hhome
        | some path =>
          rw [answer_discoverConfig, hread] at hconfig
          cases hconfig
    · cases hread : w.disk.read? data with
      | some text => exact passable_of_read? hread
      | none =>
        rw [answer_loadSchema, hread] at hdata
        cases hdata
    · cases hread : w.disk.read? path with
      | some text => exact passable_of_read? hread
      | none =>
        have hfails : answer (loadTemplate path) w = .error .io := by
          rw [answer_loadTemplate, hread, Template.ofFile]
        obtain ⟨e, he⟩ := loadTemplates_fails_iff.2 ⟨path, hpath, _, hfails⟩
        rw [he] at htemplates
        cases htemplates

/-- A rendering that reads the same has the same job. -/
theorem Prepares.again (hjob : Prepares args w job)
    (hparse : Arguments.parse args = .ok ⟨config?, .render data out? false paths⟩)
    (hread : ∀ path ∈ inputs config? data paths, w'.disk.read? path = w.disk.read? path) :
    Prepares args w' job := by
  cases hjob with
  | intro hparse' hconfig hpattern hdata htemplates =>
    cases hparse'.symm.trans hparse
    rw [inputs, List.forall_mem_cons, List.forall_mem_cons] at hread
    obtain ⟨hconfigRead, hdataRead, htemplatesRead⟩ := hread
    refine .intro hparse ?_ hpattern ?_ ?_
    · rwa [answer_discoverConfig, hconfigRead, ← answer_discoverConfig]
    · rwa [answer_loadSchema, hdataRead, ← answer_loadSchema]
    · rwa [answer_loadTemplates_congr htemplatesRead]

/-- A command line has one job. -/
theorem Prepares.unique {other : Job} (h : Prepares args w job) (h' : Prepares args w other) :
    job = other := by
  cases h with
  | intro hparse hconfig hpattern hdata htemplates =>
    cases h' with
    | intro hparse' hconfig' hpattern' hdata' htemplates' =>
      cases hparse.symm.trans hparse'
      cases hconfig.symm.trans hconfig'
      cases hpattern.symm.trans hpattern'
      cases hdata.symm.trans hdata'
      cases htemplates.symm.trans htemplates'
      rfl

/-! ## Runs with a job -/

/-- The files that a job writes. -/
def Job.written (job : Job) (w : World) : List OutputFile := Sink.taken job.sink w job.files

/-- A rendering that ends well has a job. -/
theorem exists_prepares_of_success
    (hparse : Arguments.parse args = .ok ⟨config?, .render data out? false paths⟩)
    (hcode : (runIn args w).1 = 0) : ∃ job, Prepares args w job := by
  rw [code_run, hparse] at hcode
  cases hconfig : answer (discoverConfig config?) w with
  | error e => simp [hconfig] at hcode
  | ok config =>
    have hperform : ∀ e, answer (perform config (.render data out? false paths)) w ≠ .error e := by
      intro e he
      simp [hconfig, he] at hcode
    rw [answer, perform] at hperform
    cases hpattern : Generator.new config with
    | error e =>
      rw [ReadOnly.run_return_bind_of_error hpattern] at hperform
      exact absurd rfl (hperform e)
    | ok g =>
      rw [ReadOnly.run_return_bind_of_ok hpattern] at hperform
      cases hdata : answer (loadSchema data) w with
      | error e =>
        rw [(readOnly_loadSchema data).run_bind_of_error hdata] at hperform
        exact absurd rfl (hperform e)
      | ok tables =>
        rw [(readOnly_loadSchema data).run_bind_of_ok hdata] at hperform
        cases htemplates : answer (loadTemplates paths) w with
        | error e =>
          rw [(readOnly_loadTemplates paths).run_bind_of_error htemplates] at hperform
          exact absurd rfl (hperform e)
        | ok templates => exact ⟨_, .intro hparse hconfig hpattern hdata htemplates⟩

/-- A command line with a job ends well when the run of its files does. -/
theorem code_eq_zero_iff (h : Prepares args w job) :
    (runIn args w).1 = 0 ↔ ∃ summary,
      answer (job.generator.run job.templates job.tables job.sink) w = .ok summary := by
  rw [run_of_prepares h, answer]
  cases (job.generator.run job.templates job.tables job.sink).run w with
  | mk answer v => cases answer <;> simp

/-- Then its files are all written or left alone. -/
theorem settles_of_success (h : Prepares args w job) (hcode : (runIn args w).1 = 0) :
    (∀ t ∈ job.templates, ∃ files, job.generator.generate t job.tables = .ok files) ∧
      Sink.Settles job.sink w job.files := by
  obtain ⟨summary, hanswer⟩ := (code_eq_zero_iff h).1 hcode
  exact Generator.settles_of_runAfter (Prod.ext hanswer rfl)

section
variable (h : Prepares args w job)
  (hgenerate : ∀ t ∈ job.templates, ∃ files, job.generator.generate t job.tables = .ok files)
include h hgenerate

/-- And where they are, the summary counts them. -/
theorem run_of_settles (hsettles : Sink.Settles job.sink w job.files) :
    runIn args w =
      (0, { Sink.after job.sink w job.files with
        notices := w.notices ++ [.summary (job.written w).length
          (job.files.length - (job.written w).length)] }) := by
  have hrun := Generator.runAfter_of_settles hgenerate hsettles ⟨0, 0⟩
  have hnotices : (Sink.after job.sink w job.files).notices = w.notices :=
    Sink.notices_after job.directory job.policy w job.files
  rw [run_of_prepares h, Generator.run, hrun, ← hnotices, Nat.zero_add, Nat.zero_add]
  rfl

theorem run_of_refused {file : OutputFile} {files : List OutputFile} {e : Error}
    (hfiles : job.files = file :: files) (hstep : Sink.step job.sink file w = (.error e, w)) :
    runIn args w = (1, { w with notices := w.notices ++ [.failed e] }) := by
  rw [run_of_prepares h, Generator.run, Generator.runAfter_of_refused hgenerate hfiles hstep]

end

/-! ## Second runs -/

section
variable (hjob : Prepares args w' job)
  (hgenerate : ∀ t ∈ job.templates, ∃ files, job.generator.generate t job.tables = .ok files)
  (hsettles : Sink.Settles job.sink w job.files)
  (hdisk : w'.disk = (Sink.after job.sink w job.files).disk)
include hjob hgenerate hsettles hdisk

/-- Files that are overwritten are written again, and each place holds the last of them
already. -/
theorem rerun_of_overwrite (hpolicy : job.policy = .overwrite) :
    (∀ p, (runIn args w').2.disk.get? p = w'.disk.get? p) ∧ (runIn args w').1 = 0 ∧
      (runIn args w').2.notices = w'.notices ++ [.summary (job.written w).length
        (job.files.length - (job.written w).length)] := by
  have hsink : job.sink = Sink.directory job.directory .overwrite := by rw [Job.sink, hpolicy]
  have hplace : w'.disk.place job.directory = w.disk.place job.directory := by
    rw [hdisk]
    exact (Sink.keeps_after _ _ _ _).place job.directory
  rw [hsink] at hsettles hdisk
  have htaken := (Sink.takes_of_settles hsettles (by decide)).taken_eq
  have hfiles : ∀ file ∈ job.files, Path.escapes file.name = false ∧
      w'.disk.Rewritable (Path.join job.directory file.name) := by
    intro file hfile
    rw [hdisk]
    exact Sink.rewritable_after (by rwa [htaken])
  obtain ⟨htakes, hget⟩ := Sink.takes_overwrite hfiles
  have hwritten : job.written w' = job.written w := by
    rw [Job.written, Job.written, hsink, htakes.taken_eq, htaken]
  rw [run_of_settles hjob hgenerate (hsink ▸ htakes.settles), hwritten]
  refine ⟨fun p => ?_, rfl, rfl⟩
  have hfile := Sink.fileAt?_after job.directory .overwrite w job.files p
  rw [htaken, ← hdisk, ← hplace] at hfile
  dsimp only
  rw [hsink, hget]
  cases hlast : job.files.reverse.find? fun file =>
      w'.disk.place job.directory ++ Path.names file.name == p with
  | none => rfl
  | some file =>
    rw [hlast] at hfile
    exact (Disk.fileAt?_eq_some_iff.1 hfile).symm

/-- Files that are skipped are all skipped. -/
theorem rerun_of_skip (hpolicy : job.policy = .skip) :
    (∀ p, (runIn args w').2.disk.get? p = w'.disk.get? p) ∧ (runIn args w').1 = 0 ∧
      (runIn args w').2.notices = w'.notices ++ [.summary 0 job.files.length] := by
  have hsink : job.sink = Sink.directory job.directory .skip := by rw [Job.sink, hpolicy]
  have hfiles : ∀ file ∈ job.files, Path.escapes file.name = false ∧
      w'.disk.isPresent (Path.join job.directory file.name) = true := by
    intro file hfile
    rw [hdisk]
    exact Sink.isPresent_after hsettles hfile
  obtain ⟨hagain, hnone, hafter⟩ := Sink.settles_skip hfiles
  have hwritten : job.written w' = [] := by rw [Job.written, hsink, hnone]
  rw [run_of_settles hjob hgenerate (hsink ▸ hagain), hwritten, hsink, hafter]
  exact ⟨fun p => rfl, rfl, rfl⟩

/-- Where files that exist are an error, the first one is refused, if there is one. -/
theorem rerun_of_error (hpolicy : job.policy = .error) :
    (∀ p, (runIn args w').2.disk.get? p = w'.disk.get? p) ∧
      (job.written w ≠ [] → (runIn args w').1 = 1 ∧ ∃ file, job.files.head? = some file ∧
        (runIn args w').2.notices = w'.notices ++
          [.failed (.outputExists (Path.join job.directory file.name))]) := by
  have hsink : job.sink = Sink.directory job.directory .error := by rw [Job.sink, hpolicy]
  cases hfiles : job.files with
  | nil =>
    have hnone : job.written w = [] := by
      rw [Job.written, hfiles]
      rfl
    have hagain : Sink.Settles job.sink w' job.files := by
      rw [hfiles]
      trivial
    rw [run_of_settles hjob hgenerate hagain, hfiles]
    exact ⟨fun p => rfl, fun hwritten => absurd hnone hwritten⟩
  | cons file files =>
    obtain ⟨hname, hpresent⟩ := Sink.isPresent_after hsettles (hfiles ▸ List.mem_cons_self ..)
    rw [← Job.sink, ← hdisk] at hpresent
    have hstep : Sink.step job.sink file w' =
        (.error (.outputExists (Path.join job.directory file.name)), w') := by
      rw [hsink]
      exact Sink.step_error hname hpresent
    rw [run_of_refused hjob hgenerate hfiles hstep]
    exact ⟨fun p => rfl, fun _ => ⟨rfl, file, rfl, rfl⟩⟩

end

/-- What a second run does in the world that a first one leaves, by the files that the first
one wrote. -/
structure Repeats (job : Job) (written : List OutputFile) (w : World) (code : Nat)
    (w' : World) : Prop where
  /-- Every file and every directory is as it was. -/
  kept : ∀ p, w'.disk.get? p = w.disk.get? p
  /-- Files that are overwritten are counted as before. -/
  overwrite : job.policy = .overwrite → code = 0 ∧
    w'.notices = w.notices ++ [.summary written.length (job.files.length - written.length)]
  /-- Files that are skipped are all skipped. -/
  skip : job.policy = .skip → code = 0 ∧ w'.notices = w.notices ++ [.summary 0 job.files.length]
  /-- Where files that exist are an error and some were written, the first one is refused. -/
  error : job.policy = .error → written ≠ [] → code = 1 ∧ ∃ file, job.files.head? = some file ∧
    w'.notices = w.notices ++ [.failed (.outputExists (Path.join job.directory file.name))]

/-- **Rendering again changes nothing.** Where a command line renders into a directory and ends
well, in a working directory that is there, it reports how many of its files it wrote and how
many it left alone. Unless it wrote over something that it reads, the same command line leaves
every place as it is when it is run once more: it overwrites the same files, with the same
counts, or skips all of its files, or fails because the first of them exists. -/
theorem run_again (hhome : w.disk.IsDirectory w.disk.home)
    (hparse : Arguments.parse args = .ok ⟨config?, .render data out? false paths⟩)
    (hcode : (runIn args w).1 = 0) :
    let w' := (runIn args w).2
    ∃ job, Prepares args w job ∧
      w'.notices = w.notices ++ [.summary (job.written w).length
        (job.files.length - (job.written w).length)] ∧
      ((∀ path ∈ inputs config? data paths, ∀ file ∈ job.written w,
          w.disk.place (Path.join job.directory file.name) ≠ w.disk.place path) →
        Repeats job (job.written w) w' (runIn args w').1 (runIn args w').2) := by
  intro w'
  obtain ⟨job, hjob⟩ := exists_prepares_of_success hparse hcode
  obtain ⟨hgenerate, hsettles⟩ := settles_of_success hjob hcode
  have hworld : w' = { Sink.after job.sink w job.files with notices := w.notices ++ [.summary
      (job.written w).length (job.files.length - (job.written w).length)] } :=
    congrArg Prod.snd (run_of_settles hjob hgenerate hsettles)
  have hdisk : w'.disk = (Sink.after job.sink w job.files).disk := by rw [hworld]
  refine ⟨job, hjob, by rw [hworld], fun hapart => ?_⟩
  have hagain : Prepares args w' job := by
    refine hjob.again hparse fun path hpath => ?_
    rw [hdisk]
    exact Sink.read?_after (passable_inputs hhome hparse hjob path hpath) (hapart path hpath)
  have hoverwrite := rerun_of_overwrite hagain hgenerate hsettles hdisk
  have hskip := rerun_of_skip hagain hgenerate hsettles hdisk
  have herror := rerun_of_error hagain hgenerate hsettles hdisk
  refine ⟨?_, fun h => (hoverwrite h).2, fun h => (hskip h).2, fun h => (herror h).2⟩
  cases hpolicy : job.policy with
  | overwrite => exact (hoverwrite hpolicy).1
  | skip => exact (hskip hpolicy).1
  | error => exact (herror hpolicy).1

/-- The way to a directory can lead through one that is only made for the run. Then a first
run writes over a file that is there though files are skipped, and a second one skips it. -/
theorem second_run_skips :
    let args := into "gen/../other".toList
    let w' := (runIn args occupied).2
    (runIn args occupied).1 = 0 ∧ w'.notices = [.summary 1 0] ∧
      (runIn args w').1 = 0 ∧ (runIn args w').2.notices = [.summary 1 0, .summary 0 1] ∧
        ∀ p, (runIn args w').2.disk.get? p = w'.disk.get? p := by
  intro args w'
  have hparse : Arguments.parse args = .ok ⟨some "skip.toml".toList,
    .render "s.json".toList (some "gen/../other".toList) false ["T.cs.tmpl".toList]⟩ := rfl
  have hjob : Prepares args occupied (skipping "gen/../other".toList) := prepares_skipping hparse
  have hcode : (runIn args occupied).1 = 0 :=
    (code_eq_zero_iff hjob).2 ⟨⟨1, 0⟩, Steps.toOption_eq_some_iff.1 (by decide +kernel)⟩
  obtain ⟨job, hjob', hnotices, hrepeats⟩ := run_again (w := occupied) rfl hparse hcode
  obtain rfl := hjob.unique hjob'
  have hwritten : ((skipping "gen/../other".toList).written occupied).length = 1 := by
    decide +kernel
  have hfiles : (skipping "gen/../other".toList).files.length = 1 := by decide +kernel
  have hagain := hrepeats (by decide +kernel)
  rw [hwritten, hfiles] at hnotices
  obtain ⟨hcode', hnotices'⟩ := hagain.skip rfl
  rw [hfiles, hnotices] at hnotices'
  exact ⟨hcode, hnotices, hcode', hnotices', hagain.kept⟩

end Program

end Stencil
