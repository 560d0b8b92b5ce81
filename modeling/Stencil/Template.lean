import Stencil.Command
import Stencil.Path
import Stencil.Text.Lines

/-!
# Templates

A template has a name, the type of the files it makes, and its lines. Its first
line may declare the file type; otherwise the type comes from the file name. A
template without markers is static: it is copied, not parsed.
-/
namespace Stencil

structure Template where
  name : Text
  fileType : Text
  lines : List Text
  deriving DecidableEq, Repr

namespace Template

/-- The file type that a first line of the form `#filetype name` declares. -/
def declared? (line : Text) : Option Text :=
  match Text.dropFront? "#filetype".toList (Text.trim line) with
  | none => none
  | some rest =>
    let name := Text.trim rest
    if name.isEmpty then none else some name

/-- The template of a source text. A declaration is not part of the body; without
one the type is the given one. -/
def ofSource (name source : Text) (fileType? : Option Text) : Except Error Template :=
  let lines := Text.lines source
  match lines.head?.bind declared?, fileType? with
  | some declared, _ => .ok ⟨name, declared, lines.tail⟩
  | none, some fileType => .ok ⟨name, fileType, lines⟩
  | none, none =>
    .error (.unknownFileType ("<undeclared in ".toList ++ name ++ ['>']))

/-- The template in a file: `Entity.cs.tmpl` is the template `Entity` of type
`cs`, unless it declares another. Without contents the file cannot be read. -/
def ofFile (path : Text) (contents? : Option Text) : Except Error Template :=
  match contents? with
  | none => .error .io
  | some source =>
    let stem := Path.stem path
    ofSource (Path.stem stem) source (Path.extension? stem)

def isDynamic (t : Template) : Bool := t.lines.any Marker.occursIn

/-- The commands of a template. A static one has none. -/
def compile (t : Template) : Except Error (Option (List Command)) :=
  if t.isDynamic then (Command.compile t.name t.lines).map some else .ok none

def commandCount (t : Template) : Except Error Nat :=
  t.compile.map fun commands? => (commands?.getD []).length

end Template

/-- The text of a file's bytes, when they are UTF-8. -/
def Text.ofBytes? (bytes : List UInt8) : Option Text :=
  (String.fromUTF8? ⟨bytes.toArray⟩).map String.toList

end Stencil
