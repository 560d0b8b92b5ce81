import Stencil.Toml.Document

/-!
# Reading values out of TOML documents

A record is a table with its fields by name, or an array with its fields in
order. A date counts as a table without any known field. One of several named
choices is written as its name, or as a table whose only key is the name and
whose only value is empty.
-/
namespace Stencil.Toml.Value

def text? : Value → Option Text
  | .string t => some t
  | _ => none

def bool? : Value → Option Bool
  | .scalar (.bool b) => some b
  | _ => none

def natural? : Value → Option Nat
  | .scalar (.integer n) => if 0 ≤ n then some n.toNat else none
  | _ => none

/-- The items of an array, when all of them can be read. -/
def listOf? {α : Type} (read : Value → Option α) : Value → Option (List α)
  | .array items => items.mapM read
  | _ => none

def entries? : Value → Option (List (Text × Value))
  | .table entries => some entries
  | _ => none

/-- The choice that a value names. -/
def choice? {α : Type} (ofName? : Text → Option α) : Value → Option α
  | .string t => ofName? t
  | .table [(name, .table [])] => ofName? name
  | .table [(name, .array [])] => ofName? name
  | _ => none

/-- The fields of a record with the given names, where present. -/
def record? (names : List Text) : Value → Option (List (Option Value))
  | .table entries => some (names.map fun name => entries.lookup name)
  | .array items => some ((List.range names.length).map fun i => items[i]?)
  | .scalar .datetime => some (names.map fun _ => none)
  | _ => none

/-- A field that may be missing. -/
def orElse {α : Type} (default : α) (read : Value → Option α) : Option Value → Option α
  | none => some default
  | some v => read v

/-- A field that nothing stands in for when it is missing. -/
def optional {α : Type} (read : Value → Option α) : Option Value → Option (Option α)
  | none => some none
  | some v => (read v).map some

end Stencil.Toml.Value
