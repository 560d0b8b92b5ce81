import Stencil.Number.Decimal

/-!
# Values and variable kinds

A value is an integer, a double, a truth value or a text. A variable is made
for one kind of value and keeps it; there is no kind of variable for doubles.

## Main definitions

* `ValueType`: what a value can be.
* `Value`: the values, with their text.
* `Kind`: what a variable can hold, with the value it starts from.
* `Param`: a literal or a reference to a variable.
-/
namespace Stencil

inductive ValueType where
  | int | double | bool | string
  deriving DecidableEq, Repr, Inhabited

def ValueType.name : ValueType → Text
  | .int => "int".toList
  | .double => "double".toList
  | .bool => "bool".toList
  | .string => "string".toList

/-- A value of the template language. -/
inductive Value where
  | int (n : Int)
  | double (x : Double)
  | bool (b : Bool)
  | string (t : Text)
  deriving DecidableEq, Repr, Inhabited

/-- The kinds of variables. -/
inductive Kind where
  | int | string | bool
  deriving DecidableEq, Repr, Inhabited

namespace Kind

def type : Kind → ValueType
  | .int => .int
  | .string => .string
  | .bool => .bool

def name (k : Kind) : Text := k.type.name

/-- The value of a variable declared without one. -/
def zero : Kind → Value
  | .int => .int 0
  | .string => .string []
  | .bool => .bool false

/-- The kind that a word names, with blanks around it and the case of its
letters ignored. -/
def ofText? (t : Text) : Option Kind :=
  let word := Text.trim t
  [Kind.int, .string, .bool].find? fun k => Text.sameLetters word k.name

end Kind

namespace Value

def type : Value → ValueType
  | .int _ => .int
  | .double _ => .double
  | .bool _ => .bool
  | .string _ => .string

/-- The kind of variable that can hold a value. A double has none. -/
def kind? : Value → Option Kind
  | .int _ => some .int
  | .double _ => none
  | .bool _ => some .bool
  | .string _ => some .string

def text : Value → Text
  | .int n => Number.integerText n
  | .double x => x.text
  | .bool true => "true".toList
  | .bool false => "false".toList
  | .string t => t

end Value

/-- A command parameter: a literal value, or the name of a variable. -/
inductive Param where
  | literal (v : Value)
  | variable (name : Text)
  deriving DecidableEq, Repr, Inhabited

namespace Param

def result : Param → Value
  | .literal v => v
  | .variable name => .string name

/-- The name that a reference holds. -/
def name? : Param → Option Text
  | .literal _ => none
  | .variable name => some name

end Param
end Stencil
