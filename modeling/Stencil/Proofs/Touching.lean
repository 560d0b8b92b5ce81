import Stencil.Proofs.Agreement

/-!
# What runs touch

A write to a directory touches the file of its name and directories above it that were
missing, and so do many writes one after the other. What every write preserves is preserved
by a run, whether it ends well or not.

## Main definitions

* `Sink.Becomes`: what may become of a place where files are written to a directory.
* `Sink.Frame`: disks that differ by that.
-/
namespace Stencil

/-! ## What writing to a directory touches -/

namespace Sink

variable {root : Text} {policy : OverwritePolicy} {file : OutputFile}
  {files more : List OutputFile} {w w' : World} {result : Except Error Bool} {d d' d'' : Disk}
  {p : List Text} {contents : Text}

/-- What may become of a place where files are written to a directory: nothing, one of the
files whose name leads there, or a directory that was missing above one of them. -/
inductive Becomes (root : Text) (files : List OutputFile) (d d' : Disk) (p : List Text) :
    Prop where
  | same (h : d'.get? p = d.get? p)
  | file (file : OutputFile) (hmem : file ∈ files) (hname : Path.escapes file.name = false)
    (hp : p = d.place (Path.join root file.name)) (h : d'.get? p = some (.file file.contents))
  | directory (file : OutputFile) (hmem : file ∈ files) (hname : Path.escapes file.name = false)
    (hway : Disk.OnWay (d.start root) (Path.names (Path.join root file.name)).dropLast p)
    (hnone : d.get? p = none) (h : d'.IsDirectory p)

/-- Disks that differ by what becomes of places where files are written to a directory. -/
structure Frame (root : Text) (files : List OutputFile) (d d' : Disk) : Prop where
  home : d'.home = d.home
  becomes : ∀ p, Becomes root files d d' p

namespace Frame

theorem refl (root : Text) (files : List OutputFile) (d : Disk) : Frame root files d d :=
  ⟨rfl, fun _ => .same rfl⟩

theorem trans (h : Frame root files d d') (h' : Frame root files d' d'') :
    Frame root files d d'' := by
  have hstart (path : Text) : d'.start path = d.start path := by
    rw [Disk.start, Disk.start, h.home]
  refine ⟨h'.home.trans h.home, fun p => ?_⟩
  cases h'.becomes p with
  | file f hmem hname hp hget =>
    refine .file f hmem hname ?_ hget
    rw [hp, Disk.place, hstart, ← Disk.place]
  | directory f hmem hname hway hnone hdirectory =>
    rw [hstart] at hway
    cases h.becomes p with
    | same heq => exact .directory f hmem hname hway (heq ▸ hnone) hdirectory
    | file _ _ _ _ hget =>
      rw [hget] at hnone
      cases hnone
    | directory _ _ _ _ _ hget => exact absurd hnone hget.get?_ne_none
  | same heq =>
    cases h.becomes p with
    | same heq' => exact .same (heq.trans heq')
    | file f hmem hname hp hget => exact .file f hmem hname hp (heq.trans hget)
    | directory f hmem hname hway hnone hdirectory =>
      exact .directory f hmem hname hway hnone (heq.trans hdirectory)

theorem mono (h : Frame root files d d') (hmore : ∀ f ∈ files, f ∈ more) :
    Frame root more d d' := by
  refine ⟨h.home, fun p => ?_⟩
  cases h.becomes p with
  | same heq => exact .same heq
  | file f hmem hname hp hget => exact .file f (hmore f hmem) hname hp hget
  | directory f hmem hname hway hnone hdirectory =>
    exact .directory f (hmore f hmem) hname hway hnone hdirectory

/-- A place at which another file is found is that of one of the files. -/
theorem exists_of_ne (h : Frame root files d d') (hp : d'.fileAt? p ≠ d.fileAt? p) :
    ∃ file ∈ files, Path.escapes file.name = false ∧
      p = d.place (Path.join root file.name) ∧ d'.fileAt? p = some file.contents := by
  cases h.becomes p with
  | same heq =>
    refine absurd ?_ hp
    rw [Disk.fileAt?, heq, Disk.fileAt?]
  | file f hmem hname hplace hget =>
    exact ⟨f, hmem, hname, hplace, Disk.fileAt?_eq_some_iff.2 hget⟩
  | directory f _ _ _ hnone hdirectory =>
    refine absurd ?_ hp
    rw [hdirectory.fileAt?_eq_none, Disk.fileAt?, hnone]

end Frame

/-- Making the directories above a name touches what lies on the way to it. -/
theorem frame_makeDirs (d : Disk) (root : Text) (hname : Path.escapes file.name = false) :
    Frame root [file] d (d.makeDirs (Path.parent (Path.join root file.name))).2 := by
  have hadds := Disk.adds_makeDirs d (Path.parent (Path.join root file.name))
  refine ⟨hadds.home, fun p => ?_⟩
  rcases hadds.get? p with heq | ⟨hnone, hdirectory, hway⟩
  · exact .same heq
  · rw [Path.steps_parent, Disk.start, Path.isAbsolute_parent, ← Disk.start,
      Disk.start_join d root hname] at hway
    exact .directory file (List.mem_singleton_self file) hname hway hnone hdirectory

theorem Writes.frame (h : Writes root policy file w result w') :
    Frame root [file] w.disk w'.disk := by
  cases h with
  | escapes | skipped | existing => exact Frame.refl _ _ _
  | failed hname => exact frame_makeDirs w.disk root hname
  | written disk hname _ hwrite =>
    obtain ⟨hwritable, rfl⟩ := Disk.writable_of_write? hwrite
    refine (frame_makeDirs w.disk root hname).trans ⟨rfl, fun p => ?_⟩
    by_cases hp : p = (w.disk.makeDirs (Path.parent (Path.join root file.name))).2.place
        (Path.join root file.name)
    · refine .file file (List.mem_singleton_self file) hname hp ?_
      rw [Disk.get?_set _ hwritable.place_ne_nil, if_pos hp]
    · exact .same (by rw [Disk.get?_set _ hwritable.place_ne_nil, if_neg hp])

/-- Where files are not overwritten, a file below a directory that is there, or that is not
reached by a step back, stays. -/
theorem Writes.keeps (h : Writes root policy file w result w') (hpolicy : policy ≠ .overwrite)
    (hd : w.disk.Lawful) (hroot : w.disk.Straight root)
    (hp : w.disk.fileAt? p = some contents) : w'.disk.fileAt? p = some contents := by
  by_cases hresult : result = .ok true
  · subst hresult
    obtain ⟨hname, -, hfiles⟩ := h.of_true
    have hnone := h.get?_eq_none hpolicy hd (hroot.downward hd hname)
    rw [hfiles, if_neg]
    · exact hp
    · rintro rfl
      rw [Disk.fileAt?, hnone] at hp
      cases hp
  · rw [h.unchanged hresult, hp]

end Sink

/-! ## What runs preserve -/

namespace Generator

variable {σ : Type} {sink : Sink (StateM σ)} {s : σ} {I : σ → Prop} {g : Generator}
  {tables : List Table} {templates : List Template} {files : List OutputFile}

theorem run_bind_of_error {ε α β : Type} {x : ExceptT ε (StateM σ) α}
    {f : α → ExceptT ε (StateM σ) β} {s t : σ} {e : ε} (h : x.run s = (.error e, t)) :
    (x >>= f).run s = (.error e, t) := by
  change (match x.run s with | (r, u) => ExceptT.bindCont f r u) = _
  rw [h]
  rfl

/-- What every write preserves is preserved by a delivery. -/
theorem deliver_preserves (hstep : ∀ file ∈ files, ∀ s, I s → I (Sink.step sink file s).2)
    (h : I s) (summary : Summary) : I ((deliver sink summary files).run s).2 := by
  induction files generalizing s summary with
  | nil => exact h
  | cons file files ih =>
    have hfirst := hstep file (List.mem_cons_self ..) s h
    have hrest := fun f hf => hstep f (List.mem_cons_of_mem _ hf)
    rw [deliver]
    cases hwrite : (sink.write file).run s with
    | mk answer t =>
      have ht : (Sink.step sink file s).2 = t := congrArg Prod.snd hwrite
      cases answer with
      | error e => rwa [run_bind_of_error hwrite, ← ht]
      | ok written =>
        rw [run_bind_of_ok hwrite, ← ht]
        exact ih hrest hfirst _

/-- What every write of a file that is delivered preserves is preserved by a run. -/
theorem runAfter_preserves
    (hstep : ∀ file ∈ g.delivered tables templates, ∀ s, I s → I (Sink.step sink file s).2)
    (h : I s) (summary : Summary) : I ((g.runAfter tables sink summary templates).run s).2 := by
  induction templates generalizing s summary with
  | nil => exact h
  | cons t templates ih =>
    rw [delivered] at hstep
    rw [runAfter]
    cases hgenerate : g.generate t tables with
    | error e => exact h
    | ok files =>
      rw [hgenerate] at hstep
      have hfiles := deliver_preserves (fun f hf => hstep f (List.mem_append_left _ hf)) h summary
      have hrest := fun f hf => hstep f (List.mem_append_right _ hf)
      cases hdeliver : (deliver sink summary files).run s with
      | mk answer u =>
        rw [hdeliver] at hfiles
        cases answer with
        | error e => simpa only [run_bind_of_error hdeliver] using hfiles
        | ok summary => simpa only [run_bind_of_ok hdeliver] using ih hrest hfiles summary

end Generator

end Stencil
