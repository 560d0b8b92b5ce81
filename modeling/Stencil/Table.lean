import Stencil.Text.Blank

/-!
# Tables

The table definitions that templates are rendered for.
-/
namespace Stencil

/-- A column: its name, its type as the schema writes it, and two flags. -/
structure Column where
  name : Text
  type : Text
  nullable : Bool
  primaryKey : Bool
  deriving DecidableEq, Repr

/-- A table: its name and its columns in order. -/
structure Table where
  name : Text
  columns : List Column
  deriving DecidableEq, Repr

end Stencil
