import Stencil.Program
import Stencil.Proofs.Touching

/-!
# What command lines do

A command line reads before it writes. Unless it renders into a directory, and unless all is
there that it reads, the disk stays as it is. Otherwise it has a job, and the disk changes as
the files of the job are written to their directory.

## Main definitions

* `World.ReadOnly`, `World.KeepsDisk`: computations that leave the world, or its disk, alone.
* `Program.Prepares`: a command line with the job that it has.
* `Program.Idle`: a command line that has none.
* `Program.Contained`: the effects and the exit code that a command line may have.
-/
namespace Stencil

/-! ## Computations that only read -/

namespace World

variable {α β : Type} {x : ExceptT Error (StateM World) α}
  {f : α → ExceptT Error (StateM World) β} {w : World}

theorem read?_eq (path : Text) (w : World) :
    (Host.read? path : StateM World (Option Text)) w = (w.disk.read? path, w) := rfl

theorem state_bind {σ : Type} (y : StateM σ α) (k : α → StateM σ β) (s : σ) :
    (y >>= k) s = k (y s).1 (y s).2 := rfl

/-- What a computation answers in a world. -/
def answer (x : ExceptT Error (StateM World) α) (w : World) : Except Error α := (x.run w).1

/-- The disk that a computation leaves. -/
def diskAfter (x : ExceptT Error (StateM World) α) (w : World) : Disk := (x.run w).2.disk

/-- A computation that leaves the world as it is. -/
def ReadOnly (x : ExceptT Error (StateM World) α) : Prop := ∀ w, (x.run w).2 = w

/-- A computation that leaves the disk as it is. -/
def KeepsDisk (x : ExceptT Error (StateM World) α) : Prop := ∀ w, diskAfter x w = w.disk

namespace ReadOnly

theorem run_eq (h : ReadOnly x) (w : World) : x.run w = (answer x w, w) := Prod.ext rfl (h w)

theorem keepsDisk (h : ReadOnly x) : KeepsDisk x := fun w => congrArg disk (h w)

theorem run_bind_of_error (h : ReadOnly x) {e : Error} (he : answer x w = .error e) :
    (x >>= f).run w = (.error e, w) := by
  have hrun := h.run_eq w
  rw [he] at hrun
  exact Generator.run_bind_of_error hrun

theorem run_bind_of_ok (h : ReadOnly x) {a : α} (ha : answer x w = .ok a) :
    (x >>= f).run w = (f a).run w := by
  have hrun := h.run_eq w
  rw [ha] at hrun
  exact Generator.run_bind_of_ok hrun

theorem answer_bind_of_error (h : ReadOnly x) {e : Error} (he : answer x w = .error e) :
    answer (x >>= f) w = .error e := congrArg Prod.fst (h.run_bind_of_error he)

theorem answer_bind_of_ok (h : ReadOnly x) {a : α} (ha : answer x w = .ok a) :
    answer (x >>= f) w = answer (f a) w := congrArg Prod.fst (h.run_bind_of_ok ha)

theorem bind (h : ReadOnly x) (hf : ∀ a, ReadOnly (f a)) : ReadOnly (x >>= f) := by
  intro w
  cases hx : answer x w with
  | error e => rw [h.run_bind_of_error hx]
  | ok a => rw [h.run_bind_of_ok hx, hf a w]

theorem mk (a : Except Error α) : ReadOnly (ExceptT.mk (return a)) := fun _ => rfl

theorem run_return_bind_of_error {a? : Except Error α} {e : Error} (h : a? = .error e) :
    (ExceptT.mk (return a?) >>= f).run w = (.error e, w) := by
  rw [h]
  rfl

theorem run_return_bind_of_ok {a? : Except Error α} {a : α} (h : a? = .ok a) :
    (ExceptT.mk (return a?) >>= f).run w = (f a).run w := by
  rw [h]
  rfl

theorem read? (path : Text) : ReadOnly (ExceptT.lift (Host.read? path)) := fun _ => rfl

end ReadOnly

/-- What a computation leaves on the disk stays where what is behind it keeps the disk. -/
theorem diskAfter_bind (x : ExceptT Error (StateM World) α) (hf : ∀ a, KeepsDisk (f a))
    (w : World) : diskAfter (x >>= f) w = diskAfter x w := by
  cases hx : x.run w with
  | mk a v =>
    cases a with
    | error e => rw [diskAfter, diskAfter, Generator.run_bind_of_error hx, hx]
    | ok a => rw [diskAfter, diskAfter, Generator.run_bind_of_ok hx, hx, ← hf a v, diskAfter]

theorem KeepsDisk.bind (h : KeepsDisk x) (hf : ∀ a, KeepsDisk (f a)) : KeepsDisk (x >>= f) :=
  fun w => (diskAfter_bind x hf w).trans (h w)

end World

open World

/-- A run that shows its files leaves the disk as it is. -/
theorem Generator.keepsDisk_run (g : Generator) (templates : List Template)
    (tables : List Table) : KeepsDisk (g.run templates tables Sink.console) := by
  intro w
  exact @runAfter_preserves World Sink.console w (fun v => v.disk = w.disk) g tables templates
    (fun _ _ _ hv => hv) rfl ⟨0, 0⟩

theorem Config.withBuiltins_nil : Config.withBuiltins [] = Config.builtinTypes :=
  List.mergeSort_of_pairwise (by decide)

/-- A document that declares no file types has those that exist without it. -/
theorem Config.fileTypes_of_undeclared {document : Text} {config : Config}
    {entries : List (Text × Toml.Value)} (h : Config.ofText? document = some config)
    (hentries : Toml.ofText? document = some entries)
    (hundeclared : entries.lookup "file_types".toList = none) :
    config.fileTypes = Config.builtinTypes := by
  unfold Config.ofText? at h
  simp only [hentries, Option.bind_eq_bind, Option.bind_some] at h
  split at h
  · simp only [Option.bind_eq_some_iff, hundeclared] at h
    obtain ⟨level, -, output, -, declared, hdeclared, hconfig⟩ := h
    cases hdeclared
    cases hconfig
    exact Config.withBuiltins_nil
  · cases h

namespace Program

variable {w : World} {path : Text} {paths args : List Text} {config : Config}

/-! ## Reading -/

theorem readOnly_load (path : Text) : ReadOnly (discoverConfig.load path) := by
  refine (ReadOnly.read? path).bind fun text? => ?_
  cases text? with
  | none | some text => exact ReadOnly.mk _

theorem answer_load (path : Text) (w : World) :
    answer (discoverConfig.load path) w =
      match w.disk.read? path with
      | some text => Config.ofText text
      | none => .error .config := by
  unfold discoverConfig.load answer
  rw [run_lift_bind, read?_eq]
  cases w.disk.read? path with
  | none | some text => rfl

theorem readOnly_discoverConfig (path? : Option Text) : ReadOnly (discoverConfig path?) := by
  cases path? with
  | some path => exact readOnly_load path
  | none =>
    have hisFile : ReadOnly (ExceptT.lift (Host.isFile Config.defaultPath)) := fun _ => rfl
    refine hisFile.bind fun isThere => ?_
    cases isThere with
    | true => exact readOnly_load _
    | false => exact ReadOnly.mk _

theorem readOnly_loadSchema (path : Text) : ReadOnly (loadSchema path) := by
  refine (ReadOnly.read? path).bind fun text? => ?_
  cases text? with
  | none => exact ReadOnly.mk _
  | some text =>
    dsimp only
    cases Schema.tables? text with
    | none | some tables => exact ReadOnly.mk _

theorem readOnly_loadTemplate (path : Text) : ReadOnly (loadTemplate path) :=
  (ReadOnly.read? path).bind fun _ => ReadOnly.mk _

theorem readOnly_loadTemplates (paths : List Text) : ReadOnly (loadTemplates paths) := by
  induction paths with
  | nil => exact ReadOnly.mk _
  | cons path paths ih =>
    exact (readOnly_loadTemplate path).bind fun t => ih.bind fun ts => ReadOnly.mk _

theorem keepsDisk_check (g : Generator) (paths : List Text) : KeepsDisk (check g paths) := by
  induction paths with
  | nil => exact (ReadOnly.mk _).keepsDisk
  | cons path paths ih =>
    refine (readOnly_loadTemplate path).keepsDisk.bind fun t => ?_
    refine (ReadOnly.mk _).keepsDisk.bind fun commands => ?_
    have hprint : KeepsDisk (ExceptT.lift (Host.print (checkLine path t commands))) :=
      fun _ => rfl
    exact hprint.bind fun _ => ih

/-- Templates are loaded all or none: where some cannot be loaded, one cannot. -/
theorem loadTemplates_fails_iff :
    (∃ e, answer (loadTemplates paths) w = .error e) ↔
      ∃ path ∈ paths, ∃ e, answer (loadTemplate path) w = .error e := by
  induction paths with
  | nil =>
    constructor
    · rintro ⟨e, h⟩
      cases h
    · rintro ⟨path, hpath, -⟩
      cases hpath
  | cons first paths ih =>
    rw [loadTemplates]
    cases hfirst : answer (loadTemplate first) w with
    | error e =>
      rw [(readOnly_loadTemplate first).answer_bind_of_error hfirst]
      exact ⟨fun _ => ⟨first, List.mem_cons_self .., e, hfirst⟩, fun _ => ⟨e, rfl⟩⟩
    | ok t =>
      rw [(readOnly_loadTemplate first).answer_bind_of_ok hfirst]
      have hrest : (∃ path ∈ first :: paths, ∃ e, answer (loadTemplate path) w = .error e) ↔
          ∃ path ∈ paths, ∃ e, answer (loadTemplate path) w = .error e := by
        simp [hfirst]
      rw [hrest, ← ih]
      cases hpaths : answer (loadTemplates paths) w with
      | error e =>
        rw [(readOnly_loadTemplates paths).answer_bind_of_error hpaths]
      | ok ts =>
        rw [(readOnly_loadTemplates paths).answer_bind_of_ok hpaths]
        constructor
        · rintro ⟨e, h⟩
          cases h
        · rintro ⟨e, h⟩
          cases h

/-! ## Jobs -/

/-- What a command line renders into a directory. -/
structure Job where
  generator : Generator
  directory : Text
  policy : OverwritePolicy
  tables : List Table
  templates : List Template

/-- The directory of a job, as a sink. -/
def Job.sink (job : Job) : Sink (StateM World) := Sink.directory job.directory job.policy

/-- The files that a job asks its directory to take. -/
def Job.files (job : Job) : List OutputFile := job.generator.delivered job.tables job.templates

/-- A command line that renders into a directory, and for which all is there that it reads. -/
inductive Prepares (args : List Text) (w : World) : Job → Prop where
  | intro {config? out? : Option Text} {data : Text} {paths : List Text} {config : Config}
    {g : Generator} {tables : List Table} {templates : List Template}
    (hparse : Arguments.parse args = .ok ⟨config?, .render data out? false paths⟩)
    (hconfig : answer (discoverConfig config?) w = .ok config)
    (hpattern : Generator.new config = .ok g)
    (hdata : answer (loadSchema data) w = .ok tables)
    (htemplates : answer (loadTemplates paths) w = .ok templates) :
    Prepares args w ⟨g, out?.getD config.directory, config.overwrite, tables, templates⟩

/-- A command line that renders nothing into a directory. -/
inductive Idle (args : List Text) (w : World) : Prop where
  /-- It is not understood, or asks for help or for the version. -/
  | stops {stop : Arguments.Stop} (hparse : Arguments.parse args = .error stop)
  /-- It checks templates. -/
  | checks {config? : Option Text} {paths : List Text}
    (hparse : Arguments.parse args = .ok ⟨config?, .check paths⟩)
  /-- It shows what it renders. -/
  | shows {config? out? : Option Text} {data : Text} {paths : List Text}
    (hparse : Arguments.parse args = .ok ⟨config?, .render data out? true paths⟩)
  /-- Its configuration is bad. -/
  | config {invocation : Arguments.Invocation} {e : Error}
    (hparse : Arguments.parse args = .ok invocation)
    (h : answer (discoverConfig invocation.config) w = .error e)
  /-- The file name pattern of the configuration is. -/
  | pattern {invocation : Arguments.Invocation} {config : Config} {e : Error}
    (hparse : Arguments.parse args = .ok invocation)
    (hconfig : answer (discoverConfig invocation.config) w = .ok config)
    (h : Generator.new config = .error e)
  /-- Its schema is. -/
  | data {config? out? : Option Text} {data : Text} {toStdout : Bool} {paths : List Text}
    {e : Error} (hparse : Arguments.parse args = .ok ⟨config?, .render data out? toStdout paths⟩)
    (h : answer (loadSchema data) w = .error e)
  /-- One of its templates is. -/
  | template {config? out? : Option Text} {data : Text} {toStdout : Bool} {paths : List Text}
    {path : Text} {e : Error}
    (hparse : Arguments.parse args = .ok ⟨config?, .render data out? toStdout paths⟩)
    (hpath : path ∈ paths) (h : answer (loadTemplate path) w = .error e)

/-- A command line has a job, or it renders nothing into a directory. -/
theorem idle_or_prepares (args : List Text) (w : World) :
    Idle args w ∨ ∃ job, Prepares args w job := by
  cases hparse : Arguments.parse args with
  | error stop => exact .inl (.stops hparse)
  | ok invocation =>
    obtain ⟨config?, action⟩ := invocation
    cases action with
    | check paths => exact .inl (.checks hparse)
    | render data out? toStdout paths =>
      cases toStdout with
      | true => exact .inl (.shows hparse)
      | false =>
        cases hconfig : answer (discoverConfig config?) w with
        | error e => exact .inl (.config hparse hconfig)
        | ok config =>
          cases hpattern : Generator.new config with
          | error e => exact .inl (.pattern hparse hconfig hpattern)
          | ok g =>
            cases hdata : answer (loadSchema data) w with
            | error e => exact .inl (.data hparse hdata)
            | ok tables =>
              cases htemplates : answer (loadTemplates paths) w with
              | error e =>
                obtain ⟨path, hpath, e', h⟩ := loadTemplates_fails_iff.1 ⟨e, htemplates⟩
                exact .inl (.template hparse hpath h)
              | ok templates => exact .inr ⟨_, .intro hparse hconfig hpattern hdata htemplates⟩

/-! ## Runs -/

/-- A command line run in a world: the exit code, and the world behind it. -/
def runIn (args : List Text) (w : World) : Nat × World := (run args : StateM World Nat) w

theorem run_of_stop {stop : Arguments.Stop} (h : Arguments.parse args = .error stop) :
    (runIn args w).2.disk = w.disk ∧ (runIn args w).1 = if stop = .usage then 2 else 0 := by
  unfold runIn run
  rw [h]
  cases stop with
  | usage | help | version => exact ⟨rfl, rfl⟩

theorem run_of_config_error {invocation : Arguments.Invocation} {e : Error}
    (hparse : Arguments.parse args = .ok invocation)
    (h : answer (discoverConfig invocation.config) w = .error e) :
    runIn args w = (2, { w with notices := w.notices ++ [.failed e] }) := by
  have hrun := (readOnly_discoverConfig invocation.config).run_eq w
  rw [h] at hrun
  unfold runIn run
  simp only [hparse]
  rw [state_bind, hrun]
  rfl

theorem run_of_config {invocation : Arguments.Invocation}
    (hparse : Arguments.parse args = .ok invocation)
    (h : answer (discoverConfig invocation.config) w = .ok config) :
    runIn args w =
      match (perform config invocation.action : ExceptT Error (StateM World) Unit).run w with
      | (.ok (), v) => (0, v)
      | (.error e, v) => (1, { v with notices := v.notices ++ [.failed e] }) := by
  have hrun := (readOnly_discoverConfig invocation.config).run_eq w
  rw [h] at hrun
  unfold runIn run
  simp only [hparse]
  rw [state_bind, hrun]
  dsimp only
  rw [state_bind]
  cases (perform config invocation.action : ExceptT Error (StateM World) Unit).run w with
  | mk answer v =>
    cases answer with
    | error e => rfl
    | ok => rfl

/-- What a run leaves on the disk is what its action leaves. -/
theorem disk_run_of_config {invocation : Arguments.Invocation}
    (hparse : Arguments.parse args = .ok invocation)
    (h : answer (discoverConfig invocation.config) w = .ok config) :
    (runIn args w).2.disk = diskAfter (perform config invocation.action) w := by
  rw [run_of_config hparse h, diskAfter]
  split
  · next heq => rw [heq]
  · next heq => rw [heq]

theorem disk_run_of_perform {invocation : Arguments.Invocation}
    (hparse : Arguments.parse args = .ok invocation)
    (h : ∀ config, diskAfter (perform config invocation.action) w = w.disk) :
    (runIn args w).2.disk = w.disk := by
  cases hconfig : answer (discoverConfig invocation.config) w with
  | error e => rw [run_of_config_error hparse hconfig]
  | ok config => exact (disk_run_of_config hparse hconfig).trans (h config)

section
variable {data : Text} {out? : Option Text} {toStdout : Bool} {g : Generator}
  {tables : List Table} {templates : List Template} {e : Error}

theorem keepsDisk_perform_check (config : Config) (paths : List Text) :
    KeepsDisk (perform config (.check paths)) :=
  (ReadOnly.mk _).keepsDisk.bind fun g => keepsDisk_check g paths

theorem keepsDisk_perform_show (config : Config) (data : Text) (out? : Option Text)
    (paths : List Text) : KeepsDisk (perform config (.render data out? true paths)) := by
  refine (ReadOnly.mk _).keepsDisk.bind fun g => ?_
  refine (readOnly_loadSchema data).keepsDisk.bind fun tables => ?_
  refine (readOnly_loadTemplates paths).keepsDisk.bind fun templates => ?_
  exact (g.keepsDisk_run templates tables).bind fun _ => (ReadOnly.mk _).keepsDisk

theorem diskAfter_perform_of_pattern {action : Arguments.Action}
    (h : Generator.new config = .error e) :
    diskAfter (perform config action) w = w.disk := by
  rw [diskAfter, perform, ReadOnly.run_return_bind_of_error h]

theorem diskAfter_perform_of_data (config : Config) (h : answer (loadSchema data) w = .error e) :
    diskAfter (perform config (.render data out? toStdout paths)) w = w.disk := by
  cases hpattern : Generator.new config with
  | error e' => exact diskAfter_perform_of_pattern hpattern
  | ok g =>
    rw [diskAfter, perform, ReadOnly.run_return_bind_of_ok hpattern,
      (readOnly_loadSchema data).run_bind_of_error h]

theorem diskAfter_perform_of_templates (config : Config)
    (h : answer (loadTemplates paths) w = .error e) :
    diskAfter (perform config (.render data out? toStdout paths)) w = w.disk := by
  cases hpattern : Generator.new config with
  | error e' => exact diskAfter_perform_of_pattern hpattern
  | ok g =>
    cases hdata : answer (loadSchema data) w with
    | error e' => exact diskAfter_perform_of_data config hdata
    | ok tables =>
      rw [diskAfter, perform, ReadOnly.run_return_bind_of_ok hpattern,
        (readOnly_loadSchema data).run_bind_of_ok hdata,
        (readOnly_loadTemplates paths).run_bind_of_error h]

end

/-- A command line that renders nothing into a directory leaves the disk as it is. -/
theorem disk_run_of_idle (h : Idle args w) : (runIn args w).2.disk = w.disk := by
  cases h with
  | stops hparse => exact (run_of_stop hparse).1
  | checks hparse =>
    exact disk_run_of_perform hparse fun config => keepsDisk_perform_check config _ w
  | shows hparse =>
    exact disk_run_of_perform hparse fun config => keepsDisk_perform_show config _ _ _ w
  | config hparse h => rw [run_of_config_error hparse h]
  | pattern hparse hconfig h =>
    exact (disk_run_of_config hparse hconfig).trans (diskAfter_perform_of_pattern h)
  | data hparse h =>
    exact disk_run_of_perform hparse fun config => diskAfter_perform_of_data config h
  | template hparse hpath h =>
    obtain ⟨e, he⟩ := loadTemplates_fails_iff.2 ⟨_, hpath, _, h⟩
    exact disk_run_of_perform hparse fun config => diskAfter_perform_of_templates config he

/-- A command line with a job ends as the run of its files does. -/
theorem run_of_prepares {job : Job} (h : Prepares args w job) :
    runIn args w =
      match (job.generator.run job.templates job.tables job.sink).run w with
      | (.ok summary, v) =>
        (0, { v with notices := v.notices ++ [.summary summary.written summary.skipped] })
      | (.error e, v) => (1, { v with notices := v.notices ++ [.failed e] }) := by
  cases h with
  | @intro config? out? data paths config g tables templates hparse hconfig hpattern hdata
      htemplates =>
    rw [run_of_config hparse hconfig, perform, ReadOnly.run_return_bind_of_ok hpattern,
      (readOnly_loadSchema data).run_bind_of_ok hdata,
      (readOnly_loadTemplates paths).run_bind_of_ok htemplates]
    dsimp only [Job.sink]
    cases hrun : (g.run templates tables
        (Sink.directory (out?.getD config.directory) config.overwrite :
          Sink (StateM World))).run w with
    | mk answer v =>
      rw [if_neg (by decide)]
      cases answer with
      | error e => rw [Generator.run_bind_of_error hrun]
      | ok summary =>
        rw [Generator.run_bind_of_ok hrun]
        rfl

/-- It leaves what the files of the job leave. -/
theorem disk_run_of_prepares {job : Job} (h : Prepares args w job) :
    (runIn args w).2.disk =
      diskAfter (job.generator.run job.templates job.tables job.sink) w := by
  rw [run_of_prepares h, diskAfter]
  cases (job.generator.run job.templates job.tables job.sink).run w with
  | mk answer v =>
    cases answer with
    | error e => rfl
    | ok summary => rfl

/-! ## Exit codes -/

theorem code_run (args : List Text) (w : World) :
    (runIn args w).1 =
      match Arguments.parse args with
      | .error stop => if stop = .usage then 2 else 0
      | .ok invocation =>
        match answer (discoverConfig invocation.config) w with
        | .error _ => 2
        | .ok config =>
          match answer (perform config invocation.action) w with
          | .error _ => 1
          | .ok _ => 0 := by
  cases hparse : Arguments.parse args with
  | error stop => exact (run_of_stop hparse).2
  | ok invocation =>
    dsimp only
    cases hconfig : answer (discoverConfig invocation.config) w with
    | error e => rw [run_of_config_error hparse hconfig]
    | ok config =>
      rw [run_of_config hparse hconfig]
      cases hrun : (perform config invocation.action : ExceptT Error (StateM World) Unit).run w with
      | mk a v =>
        have hanswer : answer (perform config invocation.action) w = a := congrArg Prod.fst hrun
        dsimp only
        rw [hanswer]
        cases a with
        | error e => rfl
        | ok => rfl

theorem code_eq_two_iff :
    (runIn args w).1 = 2 ↔
      Arguments.parse args = .error .usage ∨
        ∃ invocation e, Arguments.parse args = .ok invocation ∧
          answer (discoverConfig invocation.config) w = .error e := by
  rw [code_run]
  cases hparse : Arguments.parse args with
  | error stop => cases stop <;> simp
  | ok invocation =>
    cases hconfig : answer (discoverConfig invocation.config) w with
    | error e => simp [hconfig]
    | ok config =>
      cases hperform : answer (perform config invocation.action) w <;> simp [hconfig, hperform]

theorem code_eq_one_iff :
    (runIn args w).1 = 1 ↔
      ∃ invocation config e, Arguments.parse args = .ok invocation ∧
        answer (discoverConfig invocation.config) w = .ok config ∧
          answer (perform config invocation.action) w = .error e := by
  rw [code_run]
  cases hparse : Arguments.parse args with
  | error stop => cases stop <;> simp
  | ok invocation =>
    cases hconfig : answer (discoverConfig invocation.config) w with
    | error e => simp [hconfig]
    | ok config =>
      cases hperform : answer (perform config invocation.action) w <;> simp [hconfig, hperform]

theorem code_le_two (args : List Text) (w : World) : (runIn args w).1 ≤ 2 := by
  rw [code_run]
  split
  · split <;> decide
  · split
    · decide
    · split <;> decide

/-! ## Jobs on disks -/

/-- A job touches the files that it asks its directory to take, and directories above them. -/
theorem frame_run_of_prepares {job : Job} (h : Prepares args w job) :
    Sink.Frame job.directory job.files w.disk (runIn args w).2.disk := by
  rw [disk_run_of_prepares h]
  refine @Generator.runAfter_preserves World job.sink w
    (fun v => Sink.Frame job.directory job.files w.disk v.disk) job.generator job.tables
    job.templates ?_ (Sink.Frame.refl _ _ _) ⟨0, 0⟩
  intro file hfile v hv
  refine hv.trans ((Sink.writes_step job.directory job.policy file v).frame.mono ?_)
  intro f hf
  rwa [List.mem_singleton.1 hf]

/-- Where files are not overwritten, a job whose directory is there, or is not reached by a
step back, leaves every file as it is. -/
theorem kept_run_of_prepares {job : Job} (h : Prepares args w job)
    (hpolicy : job.policy ≠ .overwrite) (hd : w.disk.Lawful)
    (hroot : w.disk.Straight job.directory) {p : List Text} {contents : Text}
    (hp : w.disk.fileAt? p = some contents) :
    (runIn args w).2.disk.fileAt? p = some contents := by
  rw [disk_run_of_prepares h]
  -- Along the run the disk stays lawful and the way to the directory stays open.
  refine (@Generator.runAfter_preserves World job.sink w
    (fun v => v.disk.Lawful ∧ v.disk.Straight job.directory ∧
      v.disk.fileAt? p = some contents) job.generator job.tables job.templates ?_
    ⟨hd, hroot, hp⟩ ⟨0, 0⟩).2.2
  rintro file - v ⟨hlawful, hway, hfile⟩
  have hwrites := Sink.writes_step job.directory job.policy file v
  exact ⟨hwrites.lawful hlawful, hway.grows hwrites.grows,
    hwrites.keeps hpolicy hlawful hway hfile⟩

/-- What a command line may do to a world. -/
structure Contained (args : List Text) (w : World) (code : Nat) (w' : World) : Prop where
  /-- A command line that renders nothing into a directory leaves the disk as it is. -/
  idle : Idle args w → w'.disk = w.disk
  /-- Any other has a job. -/
  job : Idle args w ∨ ∃ job, Prepares args w job
  /-- A job touches only the files that are generated for it, under names that do not lead out
  of its directory, and missing directories above them. -/
  touched : ∀ job, Prepares args w job →
    ∀ p, Sink.Becomes job.directory job.files w.disk w'.disk p
  /-- So every file that is new or changed is one of those. -/
  changed : ∀ job, Prepares args w job →
    ∀ p, w'.disk.fileAt? p ≠ w.disk.fileAt? p →
      ∃ file ∈ job.files, Path.escapes file.name = false ∧
        p = w.disk.place (Path.join job.directory file.name) ∧
          w'.disk.fileAt? p = some file.contents
  /-- Where files are not overwritten, all files stay that were there, if the directory is
  there at the start or its path has no step back. -/
  kept : ∀ job, Prepares args w job → job.policy ≠ .overwrite → w.disk.Lawful →
    w.disk.Straight job.directory →
      ∀ p contents, w.disk.fileAt? p = some contents → w'.disk.fileAt? p = some contents
  /-- The code for arguments that are not understood and for a bad configuration. -/
  misuse : code = 2 ↔ Arguments.parse args = .error .usage ∨
    ∃ invocation e, Arguments.parse args = .ok invocation ∧
      answer (discoverConfig invocation.config) w = .error e
  /-- The code for all other failures. -/
  failure : code = 1 ↔ ∃ invocation config e, Arguments.parse args = .ok invocation ∧
    answer (discoverConfig invocation.config) w = .ok config ∧
      answer (perform config invocation.action) w = .error e
  /-- Otherwise the code says that all went well. -/
  success : code ≠ 2 → code ≠ 1 → code = 0

/-- A world with a schema, a template, a configuration that skips what exists, and in the
directory `other` the file that they would make. -/
def occupied : World := World.ofDisk
  ⟨[(["T.cs.tmpl".toList], .file "!@TableName@!".toList),
    (["s.json".toList], .file "\x7b\"tables\":[\x7b\"name\":\"O\"\x7d]\x7d".toList),
    (["skip.toml".toList], .file "[output]\noverwrite = \"skip\"\n".toList),
    (["other".toList], .directory),
    (["other".toList, "O.cs".toList], .file "mine\n".toList)], []⟩

/-- The command line that renders the template of that world into a directory. -/
def into (out : Text) : List Text :=
  ["-c".toList, "skip.toml".toList, "render".toList, "-d".toList, "s.json".toList, "-o".toList,
    out, "T.cs.tmpl".toList]

theorem lawful_occupied : occupied.disk.Lawful := Disk.Lawful.of_entries rfl (by decide)

/-- The configuration that skips what exists. -/
def skipConfig : Config :=
  ⟨"info".toList, ['.'], .skip, Config.defaultFileName, Config.builtinTypes⟩

/-- The job of that command line. -/
def skipping (out : Text) : Job where
  generator := ⟨skipConfig, Generator.byTable.pattern⟩
  directory := out
  policy := .skip
  tables := [⟨['O'], []⟩]
  templates := [⟨['T'], "cs".toList, ["!@TableName@!".toList]⟩]

theorem ofText_skipping :
    Config.ofText "[output]\noverwrite = \"skip\"\n".toList = .ok skipConfig := by
  have hfields : (Config.ofText? "[output]\noverwrite = \"skip\"\n".toList).map
      (fun c => { c with fileTypes := [] }) = some { skipConfig with fileTypes := [] } := by
    decide +kernel
  have hundeclared : (Toml.ofText? "[output]\noverwrite = \"skip\"\n".toList).map
      (fun entries => (entries.lookup "file_types".toList).isNone) = some true := by
    decide +kernel
  obtain ⟨config, hconfig, hfields⟩ := Option.map_eq_some_iff.1 hfields
  obtain ⟨entries, hentries, hundeclared⟩ := Option.map_eq_some_iff.1 hundeclared
  have htypes := Config.fileTypes_of_undeclared hconfig hentries
    (Option.isNone_iff_eq_none.1 hundeclared)
  have heq : config = skipConfig := by
    obtain ⟨level, directory, policy, fileName, types⟩ := config
    cases hfields
    cases htypes
    rfl
  rw [Config.ofText, hconfig, heq]

theorem prepares_skipping {out : Text} (hparse : Arguments.parse (into out) =
    .ok ⟨some "skip.toml".toList, .render "s.json".toList (some out) false
      ["T.cs.tmpl".toList]⟩) : Prepares (into out) occupied (skipping out) := by
  have hread : occupied.disk.read? "skip.toml".toList =
      some "[output]\noverwrite = \"skip\"\n".toList := by decide +kernel
  have hconfig : answer (discoverConfig (some "skip.toml".toList)) occupied =
      .ok skipConfig := by
    rw [discoverConfig, answer_load, hread]
    exact ofText_skipping
  have hpattern : Generator.new skipConfig = .ok ⟨skipConfig, Generator.byTable.pattern⟩ := by
    have hpieces : NamePattern.ofText? skipConfig.fileName = some Generator.byTable.pattern := by
      cbv
    rw [Generator.new, hpieces]
  have hdata : answer (loadSchema "s.json".toList) occupied = .ok [⟨['O'], []⟩] :=
    Steps.toOption_eq_some_iff.1 (by decide +kernel)
  have htemplates : answer (loadTemplates ["T.cs.tmpl".toList]) occupied =
      .ok [⟨['T'], "cs".toList, ["!@TableName@!".toList]⟩] :=
    Steps.toOption_eq_some_iff.1 (by decide +kernel)
  exact .intro hparse hconfig hpattern hdata htemplates

end Program
end Stencil
