import Stencil.Error

/-!
# Variable stores

A store is a stack of frames over one global frame. A variable belongs to the
frame it was declared in. It can be read from every frame above, and it keeps
the kind it was declared with. Reading and assigning look from the innermost
frame outwards; declaring touches the innermost frame only.

A step on a store either succeeds or fails with an error, and yields a store
in both cases.

## Main definitions

* `Frame`: variables with distinct names.
* `Store`: the global frame and the frames above it.
* `Store.declare`, `Store.assign`, `Store.pop`: the steps that can fail.
-/
namespace Stencil

def Kind.ofText (t : Text) : Except Error Kind :=
  match Kind.ofText? t with
  | some kind => .ok kind
  | none => .error (.unknownKind t)

/-- A variable: its name, the kind of its values, and its value. -/
structure Variable where
  name : Text
  kind : Kind
  value : Value
  deriving DecidableEq, Repr

namespace Variable

/-- Whether a kind admits a value. -/
def checkKind (name : Text) (kind : Kind) (value : Value) : Except Error Unit :=
  if value.kind? = some kind then .ok ()
  else .error (.kindMismatch name kind.type value.type)

/-- A new variable, when its kind admits the value. -/
def new (name : Text) (kind : Kind) (value : Value) : Except Error Variable :=
  (checkKind name kind value).map fun _ => ⟨name, kind, value⟩

/-- The variable with another value of its kind. -/
def write (v : Variable) (value : Value) : Except Error Variable :=
  (checkKind v.name v.kind value).map fun _ => { v with value := value }

end Variable

/-- The variables of one frame. -/
abbrev Frame := List Variable

namespace Frame

def get? (f : Frame) (name : Text) : Option Variable := f.find? (·.name == name)

/-- The frame with the variable of a name assigned, or the error of doing so.
A frame without the name gives nothing. -/
def assign? (name : Text) (value : Value) : Frame → Option (Except Error Frame)
  | [] => none
  | v :: f =>
    if v.name == name then some ((v.write value).map (· :: f))
    else (assign? name value f).map (Except.map (v :: ·))

/-- Assigning changes one value and nothing else that can be read. -/
theorem get?_assign? {f g : Frame} {name : Text} {value : Value}
    (h : f.assign? name value = some (.ok g)) (n : Text) :
    g.get? n = if n = name then (f.get? n).map ({ · with value := value }) else f.get? n := by
  induction f generalizing g with
  | nil => cases h
  | cons v f ih =>
    simp only [assign?] at h
    split at h
    · next hv =>
      simp only [beq_iff_eq] at hv
      simp only [Variable.write, Variable.checkKind] at h
      split at h
      · simp only [Except.map, Option.some.injEq, Except.ok.injEq] at h
        subst h
        by_cases hn : n = name
        · subst hn; simp [get?, hv]
        · have hother : ¬ v.name = n := fun h => hn (h ▸ hv)
          simp [get?, hn, hother]
      · simp [Except.map] at h
    · next hv =>
      simp only [beq_iff_eq] at hv
      obtain ⟨r, hr, he⟩ := Option.map_eq_some_iff.1 h
      cases r with
      | error e => simp [Except.map] at he
      | ok g' =>
        simp only [Except.map, Except.ok.injEq] at he
        subst he
        have hrest := ih hr
        by_cases hvn : v.name = n
        · have hne : ¬ n = name := fun h => hv (h ▸ hvn)
          simp [get?, hvn, hne]
        · simpa [get?, hvn] using hrest

/-- The frame with a variable declared. One that is there already keeps its
kind and takes the value. -/
def declare (f : Frame) (name : Text) (kind : Kind) (value : Value) : Except Error Frame :=
  match assign? name value f with
  | some result => result
  | none => (Variable.new name kind value).map (f ++ [·])

end Frame

/-- A stack of frames, the innermost first, over the global frame. -/
structure Store where
  locals : List Frame
  global : Frame
  deriving DecidableEq, Repr

namespace Store

def empty : Store := ⟨[], []⟩

instance : Inhabited Store := ⟨empty⟩

def depth (s : Store) : Nat := s.locals.length + 1

def frames (s : Store) : List Frame := s.locals ++ [s.global]

/-! ## Reading -/

/-- The variable that a name denotes: the one of the innermost frame that has it. -/
def get? (s : Store) (name : Text) : Option Variable :=
  (s.locals.findSome? (·.get? name)).or (s.global.get? name)

/-- A name denotes the variable of the first frame that has it. -/
theorem get?_eq_findSome? (s : Store) (name : Text) :
    s.get? name = s.frames.findSome? (·.get? name) := by
  simp [get?, frames, List.findSome?_append]

def getGlobal? (s : Store) (name : Text) : Option Variable := s.global.get? name

def value? (s : Store) (name : Text) : Option Value := (s.get? name).map (·.value)

def has (s : Store) (name : Text) : Bool := (s.get? name).isSome

/-! ## Steps -/

abbrev Step := EStateM Error Store

def push (s : Store) : Store := { s with locals := [] :: s.locals }

/-- Drops the innermost frame. The global frame cannot be dropped. -/
def pop : Step Unit := fun s =>
  match s.locals with
  | [] => .error .scopeUnderflow s
  | _ :: locals => .ok () { s with locals := locals }

/-- Declares a variable in the innermost frame. -/
def declare (name : Text) (kind : Kind) (value : Value) : Step Unit := fun s =>
  match s.locals with
  | [] =>
    match s.global.declare name kind value with
    | .ok f => .ok () { s with global := f }
    | .error e => .error e s
  | f :: locals =>
    match f.declare name kind value with
    | .ok f => .ok () { s with locals := f :: locals }
    | .error e => .error e s

def declareGlobal (name : Text) (kind : Kind) (value : Value) : Step Unit := fun s =>
  match s.global.declare name kind value with
  | .ok f => .ok () { s with global := f }
  | .error e => .error e s

def assignGlobal (name : Text) (value : Value) : Step Unit := fun s =>
  match s.global.assign? name value with
  | none => .error (.unknownVariable name) s
  | some (.ok f) => .ok () { s with global := f }
  | some (.error e) => .error e s

/-- Assigns to a name in the first frame of a stack that has it. -/
def assignIn? (name : Text) (value : Value) : List Frame → Option (Except Error (List Frame))
  | [] => none
  | f :: fs =>
    match f.assign? name value with
    | some result => some (result.map (· :: fs))
    | none => (assignIn? name value fs).map (Except.map (f :: ·))

/-- Assigns to the variable that a name denotes. -/
def assign (name : Text) (value : Value) : Step Unit := fun s =>
  match assignIn? name value s.locals with
  | some (.ok locals) => .ok () { s with locals := locals }
  | some (.error e) => .error e s
  | none => assignGlobal name value s

/-- The value of a parameter: a literal itself, or what a reference denotes. -/
def resolve (s : Store) : Param → Except Error Value
  | .literal v => .ok v
  | .variable name =>
    match s.value? name with
    | some v => .ok v
    | none => .error (.unknownVariable name)

end Store
end Stencil
