import Mathlib.Algebra.GroupWithZero.Nat
import Stencil.Proofs.Sharing

/-!
# Delivery to memory

A run generates its templates one by one and writes the files of each as soon as all of
them are there. Memory takes every file, and one of a name that it holds replaces the one
that is there. So it holds each name where it first came, with the file that came last, and
what a template delivers is all of its files or none.

## Main definitions

* `Sink.collect`: the files that memory holds behind some files.
* `Generator.Makes`: the files that templates make.
-/
namespace Stencil

/-! ## What memory holds -/

namespace Sink

variable {file : OutputFile} {files held : List OutputFile} {before : List Text} {n : Text}

/-- Files put one after the other to those that are held. -/
def putAll (files held : List OutputFile) : List OutputFile :=
  files.foldl (fun held file => put file held) held

/-- The files that are held when files are put to none. -/
def collect (files : List OutputFile) : List OutputFile := putAll files []

@[simp] theorem putAll_nil (held : List OutputFile) : putAll [] held = held := rfl

@[simp] theorem putAll_cons (file : OutputFile) (files held : List OutputFile) :
    putAll (file :: files) held = putAll files (put file held) := rfl

theorem putAll_append (files more held : List OutputFile) :
    putAll (files ++ more) held = putAll more (putAll files held) := List.foldl_append

/-- A file replaces the one of its name, or goes behind all of them. -/
theorem names_put (file : OutputFile) (held : List OutputFile) :
    (put file held).map OutputFile.name =
      if file.name ∈ held.map OutputFile.name then held.map OutputFile.name
      else held.map OutputFile.name ++ [file.name] := by
  induction held with
  | nil => simp [put]
  | cons f held ih =>
    by_cases hf : f.name = file.name
    · simp [put, hf]
    · have hne : file.name ≠ f.name := fun h => hf h.symm
      by_cases hmem : file.name ∈ held.map OutputFile.name
      · rw [if_pos hmem] at ih
        simp [put, hf, hmem, ih]
      · rw [if_neg hmem] at ih
        simp [put, hf, hne, hmem, ih]

theorem nodup_names_put (h : (held.map OutputFile.name).Nodup) :
    ((put file held).map OutputFile.name).Nodup := by
  rw [names_put]
  by_cases hmem : file.name ∈ held.map OutputFile.name
  · rwa [if_pos hmem]
  · rw [if_neg hmem, List.nodup_append]
    refine ⟨h, by simp, ?_⟩
    intro a ha b hb
    rw [List.mem_singleton.1 hb]
    intro hab
    exact hmem (hab ▸ ha)

theorem nodup_names_putAll (h : (held.map OutputFile.name).Nodup) :
    ((putAll files held).map OutputFile.name).Nodup := by
  induction files generalizing held with
  | nil => exact h
  | cons file files ih => exact ih (nodup_names_put h)

/-- Behind the files of some names, the names are held in the order in which they first came. -/
theorem names_putAll (h : held.map OutputFile.name = before.eraseDups) :
    (putAll files held).map OutputFile.name =
      (before ++ files.map OutputFile.name).eraseDups := by
  induction files generalizing held before with
  | nil => simpa using h
  | cons file files ih =>
    have hput : (put file held).map OutputFile.name = (before ++ [file.name]).eraseDups := by
      rw [names_put, h, List.eraseDups_append]
      by_cases hmem : file.name ∈ before
      · simp [List.removeAll, hmem]
      · simp [List.removeAll, hmem, List.eraseDups_cons]
    rw [putAll_cons, ih hput]
    simp

/-- The last file of a name is the one that is held. -/
theorem find?_putAll (files held : List OutputFile) (n : Text) :
    (putAll files held).find? (·.name == n) =
      (files.reverse.find? (·.name == n)).or (held.find? (·.name == n)) := by
  induction files generalizing held with
  | nil => simp
  | cons file files ih =>
    rw [putAll_cons, ih, find?_put, List.reverse_cons, List.find?_append, Option.or_assoc]
    by_cases hn : file.name = n
    · simp [hn]
    · simp [hn]

/-- Where names are distinct, a file is found under its name. -/
theorem mem_iff_find? (h : (held.map OutputFile.name).Nodup) :
    file ∈ held ↔ held.find? (·.name == file.name) = some file := by
  refine ⟨?_, List.mem_of_find?_eq_some⟩
  induction held with
  | nil => simp
  | cons f held ih =>
    rw [List.map_cons, List.nodup_cons] at h
    intro hmem
    rcases List.mem_cons.1 hmem with rfl | hmem
    · simp
    · have hne : f.name ≠ file.name := by
        intro hname
        exact h.1 (hname ▸ List.mem_map_of_mem hmem)
      simpa [hne] using ih h.2 hmem

end Sink

/-! ## What runs deliver -/

namespace Generator

variable {g : Generator} {t : Template} {templates before behind : List Template}
  {tables : List Table} {results : List (List OutputFile)} {e : Error}

/-- Memory takes every file. -/
theorem deliver_memory (summary : Summary) (files held : List OutputFile) :
    (deliver Sink.memory summary files).run held =
      (.ok ⟨summary.written + files.length, summary.skipped⟩, Sink.putAll files held) := by
  induction files generalizing summary held with
  | nil => rfl
  | cons file files ih =>
    have hrest := ih { summary with written := summary.written + 1 } (Sink.put file held)
    rw [List.length_cons, Sink.putAll_cons, Nat.add_comm files.length, ← Nat.add_assoc]
    exact hrest

theorem run_bind_of_ok {ε σ α β : Type} {x : ExceptT ε (StateM σ) α}
    {f : α → ExceptT ε (StateM σ) β} {u v : σ} {a : α} (h : x.run u = (.ok a, v)) :
    (x >>= f).run u = (f a).run v := by
  change (match x.run u with | (r, w) => ExceptT.bindCont f r w) = _
  rw [h]
  rfl

/-- Templates that can be generated, with the files that each of them makes. -/
def Makes (g : Generator) (tables : List Table) (templates : List Template)
    (results : List (List OutputFile)) : Prop :=
  templates.map (g.generate · tables) = results.map .ok

theorem makes_cons_iff {files : List OutputFile} :
    g.Makes tables (t :: templates) (files :: results) ↔
      g.generate t tables = .ok files ∧ g.Makes tables templates results := by
  simp [Makes]

/-- Templates that can be generated deliver their files, and the run goes on behind them. -/
theorem runAfter_append (h : g.Makes tables before results) (summary : Summary)
    (held : List OutputFile) :
    (g.runAfter tables Sink.memory summary (before ++ behind)).run held =
      (g.runAfter tables Sink.memory
        ⟨summary.written + (results.map List.length).sum, summary.skipped⟩ behind).run
          (Sink.putAll results.flatten held) := by
  induction before generalizing results summary held with
  | nil =>
    have hnone : results = [] := List.map_eq_nil_iff.1 h.symm
    rw [hnone]
    rfl
  | cons t before ih =>
    cases results with
    | nil => cases h
    | cons files results =>
      obtain ⟨hfiles, hbefore⟩ := makes_cons_iff.1 h
      have hrest := ih hbefore ⟨summary.written + files.length, summary.skipped⟩
        (Sink.putAll files held)
      rw [List.cons_append, runAfter, hfiles, List.flatten_cons, Sink.putAll_append,
        List.map_cons, List.sum_cons, ← Nat.add_assoc, ← hrest]
      exact run_bind_of_ok (deliver_memory summary files held)

/-- **Templates deliver all of their files or none, and the last file of a name stays.** Where
every template can be generated, a run writes as many files as they make and skips none, and
memory holds what they make. A template that cannot be generated ends the run with its
error, and memory holds what the templates before it make. What memory holds of some files
has their names, each of them once and in the order in which they first come, and each with
the last file of the name. -/
theorem run_delivers (g : Generator) (templates : List Template) (tables : List Table) :
    (∀ results, g.Makes tables templates results →
      (g.run templates tables Sink.memory).run [] =
        (.ok ⟨(results.map List.length).sum, 0⟩, Sink.collect results.flatten)) ∧
    (∀ before t behind results e, templates = before ++ t :: behind →
      g.Makes tables before results → g.generate t tables = .error e →
        (g.run templates tables Sink.memory).run [] = (.error e, Sink.collect results.flatten)) ∧
    ∀ files, (Sink.collect files).map OutputFile.name = (files.map OutputFile.name).eraseDups ∧
      ((Sink.collect files).map OutputFile.name).Nodup ∧
      ∀ file, file ∈ Sink.collect files ↔
        files.reverse.find? (·.name == file.name) = some file := by
  refine ⟨?_, ?_, ?_⟩
  · intro results h
    rw [run, ← List.append_nil templates, runAfter_append h, Nat.zero_add]
    rfl
  · intro before t behind results e htemplates h he
    rw [htemplates, run, runAfter_append h, runAfter, he]
    rfl
  · intro files
    have hnodup : ((Sink.collect files).map OutputFile.name).Nodup :=
      Sink.nodup_names_putAll List.nodup_nil
    have hnone : ([] : List OutputFile).map OutputFile.name = [].eraseDups := rfl
    refine ⟨Sink.names_putAll hnone, hnodup, ?_⟩
    intro file
    rw [Sink.mem_iff_find? hnodup, Sink.collect, Sink.find?_putAll]
    simp

/-- A template without markers. -/
def notes (line : Text) : Template := ⟨"Notes".toList, "cs".toList, [line]⟩

/-- The file of a template takes the place of the one that a namesake made before. -/
theorem run_of_namesakes :
    (byTable.run [notes ['a'], notes ['b']] [] Sink.memory).run [] =
      (.ok ⟨2, 0⟩, [⟨"Notes.cs".toList, "b\n".toList⟩]) := by
  have hmakes : byTable.Makes [] [notes ['a'], notes ['b']]
      [[⟨"Notes.cs".toList, "a\n".toList⟩], [⟨"Notes.cs".toList, "b\n".toList⟩]] := by
    refine makes_cons_iff.2 ⟨Steps.toOption_eq_some_iff.1 (by decide +kernel), ?_⟩
    exact makes_cons_iff.2 ⟨Steps.toOption_eq_some_iff.1 (by decide +kernel), rfl⟩
  exact (run_delivers byTable [notes ['a'], notes ['b']] []).1 _ hmakes

end Generator
end Stencil
