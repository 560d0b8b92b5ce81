import Stencil.Disk
import Stencil.Error

/-!
# Hosts

What a program needs from the system it runs on: files, an output and a place
for notices. Programs are written for any host. A world is the host that is a
plain value: a disk, and all that was printed and reported.
-/
namespace Stencil

/-- What a program tells the user beside its output. -/
inductive Notice where
  | failed (e : Error)
  | summary (written skipped : Nat)
  | usage
  deriving DecidableEq, Repr

def Notice.text : Notice → Text
  | .failed e => "error: ".toList ++ e.message
  | .summary written skipped =>
    Number.naturalText written ++ " file(s) written, ".toList ++
      Number.naturalText skipped ++ " skipped".toList
  | .usage =>
    "usage: tablegen [-c FILE] [-v] render -d FILE [-o DIR | --stdout] TEMPLATE...\n".toList ++
    "       tablegen [-c FILE] [-v] check TEMPLATE...".toList

/-- The operations of a host. Those that can fail say whether they worked. -/
class Host (m : Type → Type) where
  isFile : Text → m Bool
  isPresent : Text → m Bool
  read? : Text → m (Option Text)
  makeDirs : Text → m Bool
  write : Text → Text → m Bool
  print : Text → m Unit
  report : Notice → m Unit

/-- A host that is a value. -/
structure World where
  disk : Disk
  printed : Text
  notices : List Notice
  deriving DecidableEq, Repr

namespace World

/-- A disk before anything is printed. -/
def ofDisk (disk : Disk) : World := ⟨disk, [], []⟩

instance : Host (StateM World) where
  isFile path := fun w => ((w.disk.read? path).isSome, w)
  isPresent path := fun w => (w.disk.isPresent path, w)
  read? path := fun w => (w.disk.read? path, w)
  makeDirs path := fun w =>
    let (made, disk) := w.disk.makeDirs path
    (made, { w with disk := disk })
  write path contents := fun w =>
    match w.disk.write? path contents with
    | some disk => (true, { w with disk := disk })
    | none => (false, w)
  print text := fun w => ((), { w with printed := w.printed ++ text })
  report notice := fun w => ((), { w with notices := w.notices ++ [notice] })

end World
end Stencil
