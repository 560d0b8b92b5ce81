import Stencil.Text.Search

/-!
# Paths

A path is names separated by slashes. Repeated slashes and the name `.` say
nothing; a slash in front makes the path absolute.
-/
namespace Stencil.Path

/-- The names of a path, without the empty ones and without `.`. -/
def names (path : Text) : List Text :=
  (Text.split ['/'] path).filter fun name => !name.isEmpty && name != ['.']

def isAbsolute : Text → Bool
  | '/' :: _ => true
  | _ => false

/-- The last name of a path, unless it leads upwards. -/
def fileName? (path : Text) : Option Text :=
  match (names path).getLast? with
  | some name => if name = ['.', '.'] then none else some name
  | none => none

/-- A file name cut at its last dot. A dot in front does not count. -/
def cutExtension (name : Text) : Text × Option Text :=
  match Text.cut? ['.'] name.reverse with
  | some (behind, before) =>
    if before.isEmpty then (name, none) else (before.reverse, some behind.reverse)
  | none => (name, none)

def stem (path : Text) : Text := ((fileName? path).map fun name => (cutExtension name).1).getD []

def extension? (path : Text) : Option Text :=
  (fileName? path).bind fun name => (cutExtension name).2

def parent (path : Text) : Text :=
  (if isAbsolute path then ['/'] else []) ++ List.intercalate ['/'] (names path).dropLast

/-- Whether a path leads out of the directory it starts in, or nowhere. -/
def escapes (path : Text) : Bool :=
  path.isEmpty || isAbsolute path || (names path).contains ['.', '.']

/-- A relative path under a directory. -/
def join (directory path : Text) : Text :=
  if directory.isEmpty || directory.getLast? = some '/' then directory ++ path
  else directory ++ '/' :: path

end Stencil.Path
