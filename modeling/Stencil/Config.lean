import Stencil.CodeFile
import Stencil.Toml.Decode

/-!
# Configurations

A configuration says where files go, what happens to files that exist, how
output files are named, and how the files of each type are indented. It is read
from a TOML document in which everything may be left out. The file types `cs`
and `ts` exist unless the document declares others under these names.

## Main definitions

* `Config`: the configuration.
* `Config.ofText`: reads one from a document.
* `Config.newFile`: the empty file of a type.
-/
namespace Stencil

/-- What happens when an output file exists. -/
inductive OverwritePolicy where
  | skip | overwrite | error
  deriving DecidableEq, Repr, Inhabited

namespace OverwritePolicy

def name : OverwritePolicy → Text
  | .skip => "skip".toList
  | .overwrite => "overwrite".toList
  | .error => "error".toList

def ofName? (word : Text) : Option OverwritePolicy :=
  [skip, overwrite, error].find? (·.name == word)

end OverwritePolicy

/-- How the files of one type are made. Without an extension they take the name
of the type, and without rules those for braces. -/
structure FileType where
  extension : Option Text
  indentUnit : Nat
  rules : Option (List IndentRule)
  deriving DecidableEq, Repr

/-- A configuration. The file types are sorted by name. -/
structure Config where
  level : Text
  directory : Text
  overwrite : OverwritePolicy
  fileName : Text
  fileTypes : List (Text × FileType)
  deriving DecidableEq, Repr

namespace Config

/-- The name of the configuration in the working directory. -/
def defaultPath : Text := "tablegen.toml".toList

def defaultFileName : Text := "\x7btable\x7d.\x7bextension\x7d".toList

def defaultUnit : Nat := 4

/-- A file type about which nothing is said. -/
def plainType : FileType := ⟨none, defaultUnit, none⟩

/-! ## Reading -/

open Toml.Value

def rule? (v : Toml.Value) : Option IndentRule :=
  match record? ["match".toList, "text".toList, "action".toList, "case_sensitive".toList] v with
  | some [some kind, some text, some action, caseSensitive] => do
    let kind ← choice? MatchKind.ofName? kind
    let text ← text? text
    let action ← choice? IndentAction.ofName? action
    let caseSensitive ← orElse false bool? caseSensitive
    return ⟨⟨kind, text, caseSensitive⟩, action⟩
  | _ => none

/-- The file type that a value describes. As an array it must say everything. -/
def fileType? (v : Toml.Value) : Option FileType :=
  match v, record? ["extension".toList, "indent_unit".toList, "rules".toList] v with
  | .array _, some [some extension, some unit, some rules] => do
    return ⟨← text? extension, ← natural? unit, ← listOf? rule? rules⟩
  | .array _, _ => none
  | _, some [extension, unit, rules] => do
    let extension ← optional text? extension
    let unit ← orElse defaultUnit natural? unit
    let rules ← optional (listOf? rule?) rules
    return ⟨extension, unit, rules⟩
  | _, _ => none

def fileTypes? : List (Text × Toml.Value) → Option (List (Text × FileType))
  | [] => some []
  | (name, v) :: entries =>
    match fileType? v, fileTypes? entries with
    | some fileType, some rest => some ((name, fileType) :: rest)
    | _, _ => none

def level? (v : Toml.Value) : Option Text :=
  match record? ["level".toList] v with
  | some [level] => orElse "info".toList text? level
  | _ => none

/-- The directory, the policy and the file name pattern that a value asks for. -/
def output? (v : Toml.Value) : Option (Text × OverwritePolicy × Text) :=
  match record? ["directory".toList, "overwrite".toList, "file_name".toList] v with
  | some [directory, policy, fileName] => do
    let directory ← orElse ['.'] text? directory
    let policy ← orElse .overwrite (choice? OverwritePolicy.ofName?) policy
    let fileName ← orElse defaultFileName text? fileName
    return (directory, policy, fileName)
  | _ => none

/-- The types that exist without being declared. -/
def builtinTypes : List (Text × FileType) := [("cs".toList, plainType), ("ts".toList, plainType)]

/-- The declared types and the built-in ones that they leave, sorted by name. -/
def withBuiltins (declared : List (Text × FileType)) : List (Text × FileType) :=
  let left := builtinTypes.filter fun (name, _) => (declared.lookup name).isNone
  (declared ++ left).mergeSort fun a b => !decide (b.1 < a.1)

/-- The configuration in a document. -/
def ofText? (document : Text) : Option Config := do
  let entries ← Toml.ofText? document
  let known := ["logging".toList, "output".toList, "file_types".toList]
  if entries.all fun (key, _) => known.contains key then
    let level ← orElse "info".toList level? (entries.lookup "logging".toList)
    let (directory, policy, fileName) ←
      orElse (['.'], .overwrite, defaultFileName) output? (entries.lookup "output".toList)
    let declared ←
      orElse [] (fun v => (entries? v).bind fileTypes?) (entries.lookup "file_types".toList)
    return ⟨level, directory, policy, fileName, withBuiltins declared⟩
  else none

def ofText (document : Text) : Except Error Config :=
  match ofText? document with
  | some config => .ok config
  | none => .error .config

/-! ## File types -/

def fileType (c : Config) (name : Text) : Except Error FileType :=
  match c.fileTypes.lookup name with
  | some fileType => .ok fileType
  | none => .error (.unknownFileType name)

def extension (c : Config) (name : Text) : Except Error Text :=
  (c.fileType name).map fun t => t.extension.getD name

def indentRules (c : Config) (name : Text) : Except Error (List IndentRule) :=
  (c.fileType name).map fun t => t.rules.getD IndentRule.braces

def newFile (c : Config) (name : Text) : Except Error CodeFile := do
  let fileType ← c.fileType name
  let rules ← c.indentRules name
  return CodeFile.new name fileType.indentUnit rules

end Config
end Stencil
