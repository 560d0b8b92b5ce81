import Stencil.CodeFile
import Stencil.Table
import Stencil.Template

/-!
# Rendering

Commands run on a store and an output file. A block runs its body in a frame of
its own, which is gone afterwards, also when the body fails. Failures are
located at the line of the innermost command that they pass.

A template is rendered once per table, with the name of the table and the
number of its columns in the global frame; the store is shared by all tables. A
static template is copied once, whatever the tables are.

## Main definitions

* `Machine`: what commands run on.
* `Command.run`, `Command.runAll`: running commands.
* `Template.render`: the files of a template.
-/
namespace Stencil

/-- What commands run on. -/
structure Machine where
  store : Store
  file : CodeFile
  deriving DecidableEq, Repr

namespace Machine

abbrev Step := EStateM Error Machine

variable {α : Type}

def onStore (step : Store.Step α) : Step α := fun m =>
  match step m.store with
  | .ok a store => .ok a { m with store := store }
  | .error e store => .error e { m with store := store }

def onFile (step : CodeFile.Step α) : Step α := fun m =>
  match step m.file with
  | .ok a file => .ok a { m with file := file }
  | .error e file => .error e { m with file := file }

/-- A step whose failures are reported at a line of a template. -/
def located (template : Text) (line : Nat) (step : Step α) : Step α := fun m =>
  match step m with
  | .ok a m => .ok a m
  | .error e m => .error (e.locate template line) m

/-- A step in a frame of its own. The frame is dropped before a failure of the
step goes on. -/
def inFrame (step : Step Unit) : Step Unit := fun m =>
  match step { m with store := m.store.push } with
  | .ok _ m => onStore Store.pop m
  | .error e m =>
    match onStore Store.pop m with
    | .ok _ m => .error e m
    | .error e m => .error e m

def condition (name : Text) : Store.Step Bool := fun s =>
  match s.value? name with
  | some (.bool b) => .ok b s
  | some v => .error (.kindMismatch name .bool v.type) s
  | none => .error (.unknownVariable name) s

/-- Declares the variables of a column, which is the one at `index` of `count`. -/
def bindColumn (count index : Nat) (column : Column) : Store.Step Unit := do
  Store.declare "ColumnName".toList .string (.string column.name)
  Store.declare "ColumnType".toList .string (.string column.type)
  Store.declare "IsNullable".toList .bool (.bool column.nullable)
  Store.declare "IsPrimaryKey".toList .bool (.bool column.primaryKey)
  Store.declare "ColumnIndex".toList .int (.int index)
  Store.declare "IsLastColumn".toList .bool (.bool (index + 1 == count))

/-- A body for each of the columns from `index` on, in a frame of its own with
the variables of the column. -/
def overColumns (count : Nat) (body : Step Unit) : Nat → List Column → Step Unit
  | _, [] => return ()
  | index, column :: columns => do
    inFrame do
      onStore (bindColumn count index column)
      body
    overColumns count body (index + 1) columns

end Machine

namespace Command
open Machine

mutual

def run (template : Text) (table : Table) : Command → Machine.Step Unit
  | .blank line => located template line (onFile (CodeFile.push ['\n']))
  | .emit line content => located template line do
    let text ← onStore content.render
    onFile (CodeFile.push text)
  | .forEach line body => located template line
    (overColumns table.columns.length (runAll template table body) 0 table.columns)
  | .cond line name negate body => located template line do
    let holds ← onStore (condition name)
    if holds != negate then inFrame (runAll template table body) else return ()

/-- Runs commands in order, up to the first failure. -/
def runAll (template : Text) (table : Table) : List Command → Machine.Step Unit
  | [] => return ()
  | command :: commands => do
    run template table command
    runAll template table commands

end

end Command

/-- A rendered file. A static template is rendered for no table. -/
structure RenderedFile where
  template : Text
  table : Option Text
  fileType : Text
  contents : Text
  deriving DecidableEq, Repr

namespace Template

/-- The global variable that holds the name of the table. -/
def tableName : Text := "TableName".toList

/-- The global variable that holds the number of columns. -/
def columnCount : Text := "ColumnCount".toList

/-- Runs the commands of a template for a table, on a file to be finished. -/
def renderTable (t : Template) (commands : List Command) (table : Table) (file : CodeFile) :
    Store.Step RenderedFile := do
  Store.declareGlobal tableName .string (.string table.name)
  Store.declareGlobal columnCount .int (.int table.columns.length)
  fun s =>
    let run : Machine.Step Unit := do
      Command.runAll t.name table commands
      Machine.onFile CodeFile.finish
    match run ⟨s, file⟩ with
    | .ok _ m => .ok ⟨t.name, some table.name, t.fileType, m.file.contents⟩ m.store
    | .error e m => .error e m.store

def copy (t : Template) : RenderedFile := ⟨t.name, none, t.fileType, Text.unlines t.lines⟩

/-- One file per table, where `newFile` makes the empty files. -/
def renderTables (t : Template) (commands : List Command) (newFile : Text → Except Error CodeFile) :
    List Table → Store.Step (List RenderedFile)
  | [] => return []
  | table :: tables => do
    let file ← ((fun s =>
      match newFile t.fileType with
      | .ok file => .ok file s
      | .error e => .error e s) : Store.Step CodeFile)
    let rendered ← renderTable t commands table file
    let more ← renderTables t commands newFile tables
    return rendered :: more

/-- The files of a template for the given tables, where `newFile` makes the
empty file of a type. -/
def render (t : Template) (tables : List Table) (newFile : Text → Except Error CodeFile) :
    Store.Step (List RenderedFile) := fun s =>
  match t.compile with
  | .error e => .error e s
  | .ok none => .ok [t.copy] s
  | .ok (some commands) => renderTables t commands newFile tables s

end Template
end Stencil
