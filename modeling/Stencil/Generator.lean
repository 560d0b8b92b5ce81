import Stencil.NamePattern
import Stencil.Render
import Stencil.Sink

/-!
# Generating files

A generator renders templates with the file types of a configuration and names
the results by its pattern. Every template starts from an empty store. Templates
are delivered one after the other, each one only when all of its files are
rendered and named.

## Main definitions

* `Generator.check`: parses a template without rendering it.
* `Generator.generate`: the named files of one template.
* `Generator.run`: delivers the files of many templates.
-/
namespace Stencil

/-- A configuration with its parsed file name pattern. -/
structure Generator where
  config : Config
  pattern : List NamePattern.Piece

/-- How many files were written, and how many were left alone. -/
structure Summary where
  written : Nat
  skipped : Nat
  deriving DecidableEq, Repr

namespace Generator

def new (config : Config) : Except Error Generator :=
  match NamePattern.ofText? config.fileName with
  | some pattern => .ok ⟨config, pattern⟩
  | none => .error (.fileName .malformed)

/-- Parses a template of a known type, and counts its top-level commands. -/
def check (g : Generator) (t : Template) : Except Error Nat := do
  let _ ← g.config.fileType t.fileType
  t.commandCount

/-- The fields that the pattern sees. The file of a static template has the name
of the template for its table. -/
def nameFields (extension : Text) (file : RenderedFile) : List (Text × Text) :=
  [("table".toList, file.table.getD file.template), ("template".toList, file.template),
    ("extension".toList, extension), ("file_type".toList, file.fileType)]

def fileName (g : Generator) (file : RenderedFile) : Except Error Text := do
  let extension ← g.config.extension file.fileType
  match NamePattern.render? g.pattern (nameFields extension file) with
  | some name => return name
  | none => throw (.fileName .unrenderable)

/-- Rendered files with their names, or the first error. -/
def nameAll (g : Generator) : List RenderedFile → Except Error (List OutputFile)
  | [] => .ok []
  | file :: files => do
    let name ← g.fileName file
    let rest ← nameAll g files
    return ⟨name, file.contents⟩ :: rest

def generate (g : Generator) (t : Template) (tables : List Table) :
    Except Error (List OutputFile) :=
  match t.render tables g.config.newFile Store.empty with
  | .ok files _ => g.nameAll files
  | .error e _ => .error e

section
variable {m : Type → Type} [Monad m]

/-- Writes files to a sink and counts them. -/
def deliver (sink : Sink m) (summary : Summary) : List OutputFile → ExceptT Error m Summary
  | [] => return summary
  | file :: files => do
    let written ← sink.write file
    deliver sink
      (if written then { summary with written := summary.written + 1 }
        else { summary with skipped := summary.skipped + 1 }) files

/-- Generates and delivers templates one by one, behind those counted already. -/
def runAfter (g : Generator) (tables : List Table) (sink : Sink m) (summary : Summary) :
    List Template → ExceptT Error m Summary
  | [] => return summary
  | t :: templates =>
    match g.generate t tables with
    | .error e => throw e
    | .ok files => do
      let summary ← deliver sink summary files
      runAfter g tables sink summary templates

def run (g : Generator) (templates : List Template) (tables : List Table) (sink : Sink m) :
    ExceptT Error m Summary :=
  g.runAfter tables sink ⟨0, 0⟩ templates

end

end Generator
end Stencil
