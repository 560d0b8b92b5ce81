import Stencil.Config
import Stencil.Host

/-!
# Sinks

Generated files go to a sink: the output, a list in memory, or a directory. A
write says whether the file was taken; a directory may leave a file that exists
alone, or refuse it.
-/
namespace Stencil

/-- A file with its final name. -/
structure OutputFile where
  name : Text
  contents : Text
  deriving DecidableEq, Repr

/-- A place for files. -/
structure Sink (m : Type → Type) where
  has : Text → m Bool
  write : OutputFile → ExceptT Error m Bool

namespace Sink

def banner (name : Text) : Text := "==> ".toList ++ name ++ " <==\n".toList

/-- A file as the output shows it: the announcement, the contents, and a line
feed if the contents do not end in one. -/
def display (file : OutputFile) : Text :=
  banner file.name ++ file.contents ++
    if file.contents.getLast? = some '\n' then [] else ['\n']

section
variable {m : Type → Type} [Monad m] [Host m]

/-- The output. Nothing exists there. -/
def console : Sink m where
  has _ := return false
  write file := do
    ExceptT.lift (Host.print (display file))
    return true

/-- A directory. Names that lead out of it are refused. -/
def directory (root : Text) (policy : OverwritePolicy) : Sink m where
  has name :=
    if Path.escapes name then return false else Host.isPresent (Path.join root name)
  write file := do
    if Path.escapes file.name then throw (.fileName (.escapes file.name root))
    let path := Path.join root file.name
    let exists_ ← ExceptT.lift (Host.isPresent path)
    if exists_ && policy == .skip then return false
    if exists_ && policy == .error then throw (.outputExists path)
    let made ← ExceptT.lift (Host.makeDirs (Path.parent path))
    if !made then throw .io
    let written ← ExceptT.lift (Host.write path file.contents)
    if !written then throw .io
    return true

end

/-- The files with one added, or with its contents replaced where its name stands. -/
def put (file : OutputFile) : List OutputFile → List OutputFile
  | [] => [file]
  | f :: files => if f.name = file.name then file :: files else f :: put file files

/-- Putting a file changes what is found under its name and nothing else. -/
theorem find?_put (file : OutputFile) (files : List OutputFile) (name : Text) :
    (put file files).find? (·.name == name) =
      if file.name = name then some file else files.find? (·.name == name) := by
  induction files with
  | nil => by_cases h : file.name = name <;> simp [put, h]
  | cons f files ih =>
    by_cases hf : f.name = file.name
    · by_cases h : file.name = name <;> simp [put, hf, h]
    · by_cases hn : f.name = name
      · subst hn
        simp [put, hf, Ne.symm hf]
      · simp [put, hf, hn, ih]

/-- A list of files with distinct names. -/
def memory : Sink (StateM (List OutputFile)) where
  has name := fun files => (files.any (·.name == name), files)
  write file := ExceptT.lift fun files => (true, put file files)

end Sink
end Stencil
