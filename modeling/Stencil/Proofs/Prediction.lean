import Stencil.Proofs.Locations
import Stencil.Proofs.Sharing

/-!
# Checking before generating

A template that passes its check can be generated, as far as that can be known without
tables: its type is known and its lines compile, so what is left is a name that cannot be
had, or one of the failures of running. And a template that does not pass cannot be
generated, unless nothing is asked of it.
-/
namespace Stencil

open Steps (Fails)

variable {e : Error}

/-! ## File types -/

namespace Config

variable {c : Config} {name : Text} {fileType : FileType}

theorem exists_newFile_of_fileType (h : c.fileType name = .ok fileType) :
    ∃ file, c.newFile name = .ok file := by
  have hrules : c.indentRules name = .ok (fileType.rules.getD IndentRule.braces) :=
    Steps.map_eq_ok_iff.2 ⟨fileType, h, rfl⟩
  exact ⟨_, Steps.bind_eq_ok_iff.2 ⟨fileType, h, Steps.bind_eq_ok_iff.2 ⟨_, hrules, rfl⟩⟩⟩

theorem exists_extension_of_fileType (h : c.fileType name = .ok fileType) :
    ∃ extension, c.extension name = .ok extension :=
  ⟨_, Steps.map_eq_ok_iff.2 ⟨fileType, h, rfl⟩⟩

theorem newFile_of_fileType_error (h : c.fileType name = .error e) : c.newFile name = .error e :=
  Steps.bind_eq_error_iff.2 (.inl h)

theorem extension_of_fileType_error (h : c.fileType name = .error e) :
    c.extension name = .error e :=
  Steps.map_eq_error_iff.2 h

end Config

/-! ## Rendered files -/

namespace Template

variable {t : Template} {commands : List Command} {table : Table} {tables : List Table}
  {newFile : Text → Except Error CodeFile} {s u : Store} {file : CodeFile} {tr : BlockTree}

theorem fileType_of_renderTable {rendered : RenderedFile}
    (h : t.renderTable commands table file s = .ok rendered u) :
    rendered.fileType = t.fileType := by
  obtain ⟨_, s₁, -, h⟩ := Steps.run_bind_eq_ok_iff.1 h
  obtain ⟨_, s₂, -, h⟩ := Steps.run_bind_eq_ok_iff.1 h
  dsimp only at h
  split at h
  · cases h
    rfl
  · cases h

/-- All files of a template are of its type. -/
theorem fileType_of_renderTables {files : List RenderedFile}
    (h : t.renderTables commands newFile tables s = .ok files u) :
    ∀ file ∈ files, file.fileType = t.fileType := by
  induction tables generalizing s files with
  | nil =>
    cases h
    intro file hmem
    cases hmem
  | cons table tables ih =>
    obtain ⟨file, rendered, v, more, -, hrendered, hmore, rfl⟩ := renderTables_cons_eq_ok_iff.1 h
    exact List.forall_mem_cons.2 ⟨fileType_of_renderTable hrendered, ih hmore⟩

/-- Without an empty file no table is rendered. -/
theorem fails_renderTables_of_newFile_error (h : newFile t.fileType = .error e) :
    Fails (t.renderTables commands newFile (table :: tables)) s e := by
  refine Steps.fails_bind_iff.2 (.inl ⟨s, ?_⟩)
  simp only [h]

/-- Behind a template that compiles, rendering fails as running does. -/
theorem runtime_of_fails_runTable (h : Fails (t.runTable (tr.commands 1) table) ⟨s, file⟩ e) :
    (∃ line cause, e = .located t.name line cause ∧ Runtime cause) ∨ Runtime e := by
  rcases fails_runTable_iff.1 h with ⟨v, k, m, cause, -, hfault, rfl⟩ | ⟨m, -, hfinish⟩
  · exact .inl ⟨_, cause, rfl, hfault.runtime⟩
  · exact .inr (CodeFile.raises_finish _ _ hfinish).runtime

end Template

namespace Generator

variable {g : Generator} {t : Template} {tables : List Table}

/-- The errors that a template can still meet behind its check. -/
inductive Foreseen : Error → Prop
  | fileName (fault : NameFault) : Foreseen (.fileName fault)
  | runtime {e : Error} : Runtime e → Foreseen e
  | located (template : Text) (line : Nat) {cause : Error} :
      Runtime cause → Foreseen (.located template line cause)

theorem generate_eq_error_iff :
    g.generate t tables = .error e ↔
      Fails (t.render tables g.config.newFile) Store.empty e ∨
        ∃ files u, t.render tables g.config.newFile Store.empty = .ok files u ∧
          g.nameAll files = .error e := by
  rw [generate, Fails]
  cases t.render tables g.config.newFile Store.empty with
  | ok files u => simp
  | error cause u => simp

/-- A file of a known type fails to be named for want of a name only. -/
theorem fileName_error {file : RenderedFile} {extension : Text}
    (hextension : g.config.extension file.fileType = .ok extension)
    (h : g.fileName file = .error e) : Foreseen e := by
  rcases Steps.bind_eq_error_iff.1 h with h | ⟨_, -, h⟩
  · rw [hextension] at h
    cases h
  · split at h
    · cases h
    · cases h
      exact .fileName .unrenderable

theorem nameAll_error {files : List RenderedFile} {fileType extension : Text}
    (hextension : g.config.extension fileType = .ok extension)
    (htype : ∀ file ∈ files, file.fileType = fileType) (h : g.nameAll files = .error e) :
    Foreseen e := by
  induction files with
  | nil => cases h
  | cons file files ih =>
    obtain ⟨hfile, hfiles⟩ := List.forall_mem_cons.1 htype
    rcases Steps.bind_eq_error_iff.1 h with h | ⟨name, -, h⟩
    · exact fileName_error (hfile ▸ hextension) h
    · rcases Steps.bind_eq_error_iff.1 h with h | ⟨rest, -, h⟩
      · exact ih hfiles h
      · cases h

theorem exists_of_check {n : Nat} (h : g.check t = .ok n) :
    ∃ fileType commands?, g.config.fileType t.fileType = .ok fileType ∧
      t.compile = .ok commands? := by
  obtain ⟨fileType, hfileType, h⟩ := Steps.bind_eq_ok_iff.1 h
  obtain ⟨commands?, hcompile, -⟩ := Steps.map_eq_ok_iff.1 h
  exact ⟨fileType, commands?, hfileType, hcompile⟩

theorem check_error (h : g.check t = .error e) :
    g.config.fileType t.fileType = .error e ∨ t.compile = .error e := by
  rcases Steps.bind_eq_error_iff.1 h with h | ⟨fileType, -, h⟩
  · exact .inl h
  · exact .inr (Steps.map_eq_error_iff.1 h)

/-- Behind its check, a template meets foreseen errors only. -/
theorem foreseen_of_check {n : Nat} (hcheck : g.check t = .ok n)
    (h : g.generate t tables = .error e) : Foreseen e := by
  obtain ⟨fileType, commands?, hfileType, hcompile⟩ := exists_of_check hcheck
  obtain ⟨file, hfile⟩ := Config.exists_newFile_of_fileType hfileType
  obtain ⟨extension, hextension⟩ := Config.exists_extension_of_fileType hfileType
  cases commands? with
  | none =>
    have hcopy : t.render tables g.config.newFile Store.empty = .ok [t.copy] Store.empty := by
      simp only [Template.render, hcompile]
    rcases generate_eq_error_iff.1 h with h | ⟨files, u, hrender, h⟩
    · exact absurd h (Steps.not_fails_of_ok hcopy)
    · rw [hcopy] at hrender
      cases hrender
      exact nameAll_error hextension (List.forall_mem_singleton.2 rfl) h
  | some commands =>
    obtain ⟨hdynamic, hcommands⟩ := Template.compile_eq_some_iff.1 hcompile
    rw [generate_eq_error_iff, Template.render_of_compile hdynamic hcommands] at h
    rcases h with h | ⟨files, u, hrender, h⟩
    · obtain ⟨table, -, s, hrun⟩ :=
        Template.exists_of_fails_renderTables hfile Template.describable_empty h
      obtain ⟨tr, -, rfl⟩ := BlockTree.exists_reads_of_compile hcommands
      rcases Template.runtime_of_fails_runTable hrun with ⟨line, cause, rfl, hcause⟩ | hruntime
      · exact .located _ line hcause
      · exact .runtime hruntime
    · exact nameAll_error hextension (Template.fileType_of_renderTables hrender) h

/-- A template that does not pass its check cannot be generated for tables, and one without
markers not at all. -/
theorem exists_error_of_check (hcheck : g.check t = .error e)
    (hasked : tables ≠ [] ∨ t.isDynamic = false) : ∃ e, g.generate t tables = .error e := by
  simp only [generate_eq_error_iff]
  cases hcompile : t.compile with
  | error cause =>
    have hrender : t.render tables g.config.newFile Store.empty = .error cause Store.empty := by
      simp only [Template.render, hcompile]
    exact ⟨cause, .inl ⟨_, hrender⟩⟩
  | ok commands? =>
    have hfileType : g.config.fileType t.fileType = .error e := by
      rcases check_error hcheck with h | h
      · exact h
      · rw [hcompile] at h
        cases h
    cases commands? with
    | none =>
      have hcopy : t.render tables g.config.newFile Store.empty = .ok [t.copy] Store.empty := by
        simp only [Template.render, hcompile]
      have hname : g.fileName t.copy = .error e :=
        Steps.bind_eq_error_iff.2 (.inl (Config.extension_of_fileType_error hfileType))
      exact ⟨e, .inr ⟨_, _, hcopy, Steps.bind_eq_error_iff.2 (.inl hname)⟩⟩
    | some commands =>
      obtain ⟨hdynamic, hcommands⟩ := Template.compile_eq_some_iff.1 hcompile
      obtain ⟨table, rest, rfl⟩ : ∃ table rest, tables = table :: rest := by
        refine List.exists_cons_of_ne_nil (hasked.resolve_right ?_)
        simp [hdynamic]
      rw [Template.render_of_compile hdynamic hcommands]
      exact ⟨e, .inl (Template.fails_renderTables_of_newFile_error
        (Config.newFile_of_fileType_error hfileType))⟩

end Generator

end Stencil
