import Stencil.Program

/-!
# The command line

The program on the real system: files are read and written where their paths
say, output goes to the standard output, notices to the standard error.
-/
namespace Stencil.Main

/-- The result of an action, unless it fails. -/
def attempt {α : Type} (action : IO α) : IO (Option α) := do
  try
    return some (← action)
  catch _ =>
    return none

instance : Host IO where
  isFile path := do
    let first ← attempt do
      let file ← IO.FS.Handle.mk (String.ofList path) .read
      file.read 1
    return first.isSome
  isPresent path := do
    return (← attempt (IO.FS.Handle.mk (String.ofList path) .read)).isSome
  read? path := do
    return (← attempt (IO.FS.readFile (String.ofList path))).map String.toList
  makeDirs path := do
    if path.isEmpty then return true
    return (← attempt (IO.FS.createDirAll (String.ofList path))).isSome
  write path contents := do
    return (← attempt (IO.FS.writeFile (String.ofList path) (String.ofList contents))).isSome
  print text := do
    let out ← IO.getStdout
    out.putStr (String.ofList text)
    out.flush
  report notice := IO.eprintln (String.ofList notice.text)

end Stencil.Main

/-- Runs the command line of the process. -/
def main (args : List String) : IO UInt32 := do
  let code ← (Stencil.Program.run (args.map String.toList) : IO Nat)
  return code.toUInt32
