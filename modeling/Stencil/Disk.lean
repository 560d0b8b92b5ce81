import Stencil.Path

/-!
# Disks

A disk holds files and directories from a root down, and says which of the
directories is the working directory. Paths are looked up name by name as a file
system does it: a path with a slash in front starts at the root and any other in
the working directory, only directories have entries, `..` leads back and at the
root nowhere, and a path that ends in a slash denotes a directory.

## Main definitions

* `Disk.place`: where a path leads.
* `Disk.entryAt?`: what a path denotes.
* `Disk.makeDirs`, `Disk.write?`: making directories and writing files.
-/
namespace Stencil

/-- What a path denotes. -/
inductive Entry where
  | file (contents : Text)
  | directory
  deriving DecidableEq, Repr

/-- Files and directories by their names from the root down, and the working directory. -/
structure Disk where
  entries : List (List Text × Entry)
  home : List Text
  deriving DecidableEq, Repr

namespace Disk

def empty : Disk := ⟨[], []⟩

/-- The entry of given names. The root has none. -/
def get? (d : Disk) (names : List Text) : Option Entry :=
  if names.isEmpty then some .directory else d.entries.lookup names

/-- A list of entries with one added or replaced. -/
def setIn (names : List Text) (entry : Entry) :
    List (List Text × Entry) → List (List Text × Entry)
  | [] => [(names, entry)]
  | (k, e) :: es => if k = names then (k, entry) :: es else (k, e) :: setIn names entry es

def set (d : Disk) (names : List Text) (entry : Entry) : Disk :=
  { d with entries := setIn names entry d.entries }

theorem lookup_setIn (names : List Text) (entry : Entry) (es : List (List Text × Entry))
    (other : List Text) :
    (setIn names entry es).lookup other =
      if other = names then some entry else es.lookup other := by
  induction es with
  | nil =>
    rw [setIn, List.lookup_cons]
    by_cases h : other = names
    · simp [h]
    · simp [h, beq_false_of_ne h]
  | cons p es ih =>
    obtain ⟨k, e⟩ := p
    rw [setIn]
    split
    · next hk =>
      subst hk
      rw [List.lookup_cons, List.lookup_cons]
      by_cases h : other = k
      · simp [h]
      · simp [h, beq_false_of_ne h]
    · next hk =>
      rw [List.lookup_cons, List.lookup_cons, ih]
      by_cases h : other = k
      · subst h; simp [hk]
      · simp [beq_false_of_ne h]

/-- Setting changes one entry and nothing else that can be looked up. -/
theorem get?_set (d : Disk) {names : List Text} (h : names ≠ []) (entry : Entry)
    (other : List Text) :
    (d.set names entry).get? other = if other = names then some entry else d.get? other := by
  unfold get? set
  rw [lookup_setIn]
  by_cases ho : other = []
  · subst ho; simp [Ne.symm h]
  · simp [ho]

/-- The greatest number of bytes of a name. -/
def nameLimit : Nat := 255

/-- The number of bytes that no path reaches. -/
def pathLimit : Nat := 4096

/-- The bytes that a text takes. -/
def bytes (t : Text) : Nat := t.foldr (fun c n => c.utf8Size + n) 0

theorem bytes_cons (c : Char) (t : Text) : bytes (c :: t) = c.utf8Size + bytes t := rfl

theorem bytes_append (s t : Text) : bytes (s ++ t) = bytes s + bytes t := by
  induction s with
  | nil => exact (Nat.zero_add _).symm
  | cons c s ih => rw [List.cons_append, bytes_cons, ih, bytes_cons, Nat.add_assoc]

theorem bytes_replicate (n : Nat) (c : Char) : bytes (List.replicate n c) = n * c.utf8Size := by
  induction n with
  | zero => exact (Nat.zero_mul _).symm
  | succ n ih => rw [List.replicate_succ, bytes_cons, ih, Nat.succ_mul, Nat.add_comm]

/-- Whether a file system can hold a name. -/
def isName (name : Text) : Bool := bytes name ≤ nameLimit && !name.contains (Char.ofNat 0)

/-- The steps of a path, `.` and `..` among them. -/
def steps (path : Text) : List Text := (Text.split ['/'] path).filter (!·.isEmpty)

/-- Whether a path can denote anything on a disk. -/
def isAdmitted (path : Text) : Bool :=
  !path.isEmpty && bytes path < pathLimit && (steps path).all isName

def endsInSlash (path : Text) : Bool := path.getLast? == some '/'

def start (d : Disk) (path : Text) : List Text := if Path.isAbsolute path then [] else d.home

/-- Where a step leads from a place. Above the root is the root. -/
def next (here : List Text) (step : Text) : List Text :=
  if step = ['.'] then here
  else if step = ['.', '.'] then here.dropLast
  else here ++ [step]

/-- Where a path leads, whether its directories are there or not. -/
def place (d : Disk) (path : Text) : List Text := (steps path).foldl next (d.start path)

/-- Follows steps from a place. Every place on the way must be a directory. -/
def walk? (d : Disk) (here : List Text) : List Text → Option (List Text)
  | [] => some here
  | step :: rest =>
    if d.get? here = some .directory then walk? d (next here step) rest else none

/-- What a path denotes. -/
def entryAt? (d : Disk) (path : Text) : Option Entry :=
  if isAdmitted path then
    match (d.walk? (d.start path) (steps path)).bind d.get? with
    | some (.file contents) => if endsInSlash path then none else some (.file contents)
    | entry => entry
  else none

def isPresent (d : Disk) (path : Text) : Bool := (d.entryAt? path).isSome

def read? (d : Disk) (path : Text) : Option Text :=
  match d.entryAt? path with
  | some (.file contents) => some contents
  | _ => none

/-- Makes the directories on the way along some steps, and says whether all of
them are there in the end. What was made before a failure stays. -/
def makeAlong (d : Disk) (here : List Text) : List Text → Bool × Disk
  | [] => (true, d)
  | step :: rest =>
    match d.get? (next here step) with
    | some .directory => makeAlong d (next here step) rest
    | some (.file _) => (false, d)
    | none =>
      if isName step then makeAlong (d.set (next here step) .directory) (next here step) rest
      else (false, d)

/-- Makes the directory of a path, with all directories above it. -/
def makeDirs (d : Disk) (path : Text) : Bool × Disk :=
  if path.contains (Char.ofNat 0) || pathLimit ≤ bytes path then (false, d)
  else d.makeAlong (d.start path) (steps path)

/-- The disk with a file written. Its directory must be there, and no directory
may be in its place. -/
def write? (d : Disk) (path contents : Text) : Option Disk :=
  match isAdmitted path && !endsInSlash path, (steps path).getLast? with
  | true, some name =>
    if name = ['.'] ∨ name = ['.', '.'] then none
    else
      match d.walk? (d.start path) (steps path).dropLast with
      | none => none
      | some directory =>
        if d.get? directory ≠ some .directory ∨ d.get? (directory ++ [name]) = some .directory
        then none
        else some (d.set (directory ++ [name]) (.file contents))
  | _, _ => none

end Disk
end Stencil
