import Stencil.Value

/-!
# Errors

Every way in which reading a template, rendering it or delivering the result
can fail, and the sentence that tells it. A failure inside a template is
reported with the template's name and a line; the innermost location is the one
that stays.
-/
namespace Stencil

inductive BlockKind where
  | forEach | cond
  deriving DecidableEq, Repr, Inhabited

def BlockKind.keyword : BlockKind → Text
  | .forEach => "foreach".toList
  | .cond => "if".toList

/-- The ways in which blocks fail to nest. -/
inductive Imbalance where
  | nothingOpen (closing : BlockKind)
  | wrongKind (closing opened : BlockKind) (openedAt : Nat)
  | neverClosed (opened : BlockKind)
  deriving DecidableEq, Repr

/-- Why an output file gets no name. -/
inductive NameFault where
  /-- The pattern does not parse. -/
  | malformed
  /-- A step of the pattern has no value. -/
  | unrenderable
  /-- The name does not stay inside the output directory. -/
  | escapes (name root : Text)
  deriving DecidableEq, Repr

/-- Why a schema cannot be had. -/
inductive DataFault where
  /-- The file cannot be read. -/
  | unreadable
  /-- The file is read, but it is no schema. -/
  | malformed
  deriving DecidableEq, Repr

/-- The failures of the library. -/
inductive Error where
  | io
  | mismatch (form : Text) (line : Text)
  | unknownVariable (name : Text)
  | kindMismatch (name : Text) (expected found : ValueType)
  | unknownKind (word : Text)
  | scopeUnderflow
  | unterminatedMarker (line : Text)
  | nestedMarker (line : Text)
  | indentUnderflow (line : Text)
  | overflow (name : Text)
  | unknownCommand (line : Text)
  | unbalanced (imbalance : Imbalance)
  | unknownFileType (name : Text)
  | located (template : Text) (line : Nat) (cause : Error)
  | config
  | dataSource (path : Text) (fault : DataFault)
  | fileName (fault : NameFault)
  | outputExists (path : Text)
  deriving DecidableEq, Repr

private def inTicks (t : Text) : Text := "`".toList ++ t ++ "`".toList

def Imbalance.message : Imbalance → Text
  | .nothingOpen closing =>
    inTicks ("end ".toList ++ closing.keyword) ++ " without an open block".toList
  | .wrongKind closing opened openedAt =>
    inTicks ("end ".toList ++ closing.keyword) ++ " closes the ".toList ++
      inTicks opened.keyword ++ " block opened on line ".toList ++ Number.naturalText openedAt
  | .neverClosed opened => inTicks opened.keyword ++ " block is never closed".toList

def NameFault.message : NameFault → Text
  | .malformed => "the pattern is malformed".toList
  | .unrenderable => "a part of the pattern has no value".toList
  | .escapes name root => inTicks name ++ " does not stay inside ".toList ++ root

/-- The sentence for a schema that cannot be had. -/
def DataFault.message : DataFault → Text
  | .unreadable => "the file cannot be read".toList
  | .malformed => "the document is no schema".toList

namespace Error

def message : Error → Text
  | .io => "a file cannot be read or written".toList
  | .mismatch form line =>
    "parser ".toList ++ inTicks form ++ " cannot parse ".toList ++ inTicks line
  | .unknownVariable name => "unknown variable ".toList ++ inTicks name
  | .kindMismatch name expected found =>
    "variable ".toList ++ inTicks name ++ " holds ".toList ++ expected.name ++
      " values, cannot store ".toList ++ found.name
  | .unknownKind word => "unknown variable kind ".toList ++ inTicks word
  | .scopeUnderflow => "cannot destroy the global stack frame".toList
  | .unterminatedMarker line => "unterminated marker in ".toList ++ inTicks line
  | .nestedMarker line => "marker opened inside another marker in ".toList ++ inTicks line
  | .indentUnderflow line => "indent level would drop below zero at ".toList ++ inTicks line
  | .overflow name => "integer overflow stepping ".toList ++ inTicks name
  | .unknownCommand line => "no command matches ".toList ++ inTicks line
  | .unbalanced imbalance => "unbalanced block: ".toList ++ imbalance.message
  | .unknownFileType name => "unknown file type ".toList ++ inTicks name
  | .located template line cause =>
    template ++ ':' :: Number.naturalText line ++ ": ".toList ++ cause.message
  | .config => "failed to parse config file".toList
  | .dataSource path fault =>
    "failed to load data source ".toList ++ inTicks path ++ ": ".toList ++ fault.message
  | .fileName fault => "failed to render output file name: ".toList ++ fault.message
  | .outputExists path => "output file ".toList ++ inTicks path ++ " already exists".toList

/-- The error at a line of a template. An error that has a location keeps it. -/
def locate (template : Text) (line : Nat) : Error → Error
  | .located t l cause => .located t l cause
  | e => .located template line e

end Error
end Stencil
