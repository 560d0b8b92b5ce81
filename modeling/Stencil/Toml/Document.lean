import Stencil.Toml.Scalar
import Stencil.Toml.Token

/-!
# TOML documents

The lexemes of a document become groups, the groups become values, and the
lines become the entries of a tree of tables. A table is defined once: by its
header, by the dotted keys that reach it, or as an inline value. Headers may
pass through tables that exist; dotted keys pass only through tables that dotted
keys made.

## Main definitions

* `Toml.Value`: the values.
* `Toml.Node`: a tree under construction, where tables know how they came to be.
* `Toml.ofText?`: the table that a document describes.
-/
namespace Stencil.Toml

inductive Value where
  | string (text : Text)
  | scalar (s : Scalar)
  | array (items : List Value)
  | table (entries : List (Text × Value))
  deriving Repr

/-- The greatest number of values within one another, and of names in a key. -/
def depthLimit : Nat := 79

/-! ## Trees under construction -/

/-- A value, a table, or the tables of repeated headers. A table is implicit
until a header defines it, and dotted if dotted keys made it. -/
inductive Node where
  | value (v : Value)
  | table (implicit dotted : Bool) (entries : List (Text × Node))
  | tables (elements : List (List (Text × Node)))

abbrev Entries := List (Text × Node)

/-- The entries with one of them replaced, or added at the end. -/
def Entries.set (key : Text) (node : Node) : Entries → Entries
  | [] => [(key, node)]
  | (k, n) :: es => if k = key then (k, node) :: es else (k, n) :: set key node es

/-- Changes the last of some tables. -/
def changeLast? (change : Entries → Option Entries) : List Entries → Option (List Entries)
  | [] => none
  | [t] => (change t).map ([·])
  | t :: ts => (changeLast? change ts).map (t :: ·)

/-- Changes the table at a path. `change` is told whether the table is dotted.
Tables that are missing on the way are made; values are not passed through, and
dotted keys do not pass through tables with a header. -/
def changeAt? (dotted : Bool) (change : Bool → Entries → Option Entries) :
    List Text → Bool → Entries → Option Entries
  | [], isDotted, entries => change isDotted entries
  | key :: path, _, entries =>
    match entries.lookup key with
    | none =>
      (changeAt? dotted change path dotted []).map fun t =>
        Entries.set key (.table true dotted t) entries
    | some (.value _) => none
    | some (.tables elements) =>
      (changeLast? (changeAt? dotted change path false) elements).map fun ts =>
        Entries.set key (.tables ts) entries
    | some (.table implicit isDotted inner) =>
      if dotted && !implicit then none
      else (changeAt? dotted change path isDotted inner).map fun t =>
        Entries.set key (.table implicit isDotted t) entries

/-- Adds a value under a key. All names of the key but the last make tables. -/
def addValue? (path : List Text) (key : Text) (v : Value) (entries : Entries) : Option Entries :=
  let add := fun isDotted (inner : Entries) =>
    if isDotted == path.isEmpty then none
    else
      match inner.lookup key with
      | some _ => none
      | none => some (inner ++ [(key, .value v)])
  changeAt? true add path false entries

/-- Defines the table of a header. It may exist so far only as a table that
other headers passed through. -/
def openTable? (path : List Text) (key : Text) (entries : Entries) : Option Entries :=
  let define := fun (_ : Bool) (inner : Entries) =>
    match inner.lookup key with
    | none => some (inner ++ [(key, .table false false [])])
    | some (.table true false t) => some (Entries.set key (.table false false t) inner)
    | some _ => none
  changeAt? false define path false entries

/-- Adds a table for a repeated header. -/
def openElement? (path : List Text) (key : Text) (entries : Entries) : Option Entries :=
  let define := fun (_ : Bool) (inner : Entries) =>
    match inner.lookup key with
    | none => some (inner ++ [(key, .tables [[]])])
    | some (.tables ts) => some (Entries.set key (.tables (ts ++ [[]])) inner)
    | some _ => none
  changeAt? false define path false entries

mutual

def Node.toValue : Node → Value
  | .value v => v
  | .table _ _ entries => .table (Entries.toValues entries)
  | .tables elements => .array (elementsToValues elements)

def Entries.toValues : List (Text × Node) → List (Text × Value)
  | [] => []
  | (key, node) :: es => (key, node.toValue) :: Entries.toValues es

def elementsToValues : List (List (Text × Node)) → List Value
  | [] => []
  | t :: ts => .table (Entries.toValues t) :: elementsToValues ts

end

/-! ## Keys and values -/

/-- A token, or a value that a group makes. -/
inductive Term where
  | token (t : Token)
  | value (v : Value)

def Term.isGap : Term → Bool
  | .token (.blank _) => true
  | _ => false

def Term.isNewline : Term → Bool
  | .token .newline => true
  | _ => false

/-- Terms without those at the two ends that a test holds of. -/
def trimTerms (skip : Term → Bool) (terms : List Term) : List Term :=
  ((terms.dropWhile skip).reverse.dropWhile skip).reverse

/-- The terms between those that a test holds of. -/
def splitTerms (isBorder : Term → Bool) : List Term → List (List Term)
  | [] => [[]]
  | t :: ts =>
    match isBorder t, splitTerms isBorder ts with
    | true, parts => [] :: parts
    | false, part :: parts => (t :: part) :: parts
    | false, [] => [[t]]

inductive KeyItem where
  | name (text : Text)
  | point
  deriving DecidableEq

def isBareKey (t : Text) : Bool := t.all fun c => c.isAlphanum || c == '_' || c == '-'

/-- The names and points in a word. -/
def wordItems? (t : Text) : Option (List KeyItem) :=
  let names := Text.split ['.'] t
  if names.all isBareKey then
    some ((names.map fun name => if name.isEmpty then [] else [.name name]).intersperse
      [.point]).flatten
  else none

/-- The names and points of a key. -/
def keyItems? : List Term → Option (List KeyItem)
  | [] => some []
  | .token (.blank _) :: ts => keyItems? ts
  | .token (.string t false) :: ts => (keyItems? ts).map (.name t :: ·)
  | .token (.word t) :: ts =>
    match wordItems? t, keyItems? ts with
    | some items, some more => some (items ++ more)
    | _, _ => none
  | _ => none

/-- The names of a key, with a point between each two. -/
def names? : List KeyItem → Option (List Text)
  | [.name t] => some [t]
  | .name t :: .point :: items => (names? items).map (t :: ·)
  | _ => none

/-- The names of a key: those before the last one, and the last one. -/
def key? (terms : List Term) : Option (List Text × Text) :=
  match (keyItems? terms).bind names? with
  | none => none
  | some names =>
    if depthLimit < names.length then none
    else names.getLast?.map (names.dropLast, ·)

/-- The value that terms write. A date and a time may stand apart by one space. -/
def value? (terms : List Term) : Option Value :=
  match terms with
  | [.value v] => some v
  | [.token (.string t _)] => some (.string t)
  | [.token (.word t)] => (scalar? t).map .scalar
  | [.token (.word date), .token (.blank ' '), .token (.word time)] =>
    if isDate date && isTimeOfDay time then some (.scalar .datetime) else none
  | _ => none

def pair? (terms : List Term) : Option (List Text × Text × Value) :=
  let isEquals := fun (t : Term) => match t with
    | .token .equals => true
    | _ => false
  match terms.dropWhile (!isEquals ·) with
  | [] => none
  | _ :: behind =>
    match key? (terms.takeWhile (!isEquals ·)), value? (trimTerms Term.isGap behind) with
    | some (path, key), some v => some (path, key, v)
    | _, _ => none

def Term.isComma : Term → Bool
  | .token .comma => true
  | _ => false

/-- The array in square brackets. Line ends are blanks there, and a comma may
follow the last value. -/
def array? (terms : List Term) : Option Value :=
  let parts := (splitTerms Term.isComma terms).map (trimTerms fun t => t.isGap || t.isNewline)
  let parts := if (parts.getLast?.getD []).isEmpty then parts.dropLast else parts
  (parts.mapM value?).map .array

/-- Adds the pairs of an inline table. -/
def addPairs? (entries : Entries) : List (List Term) → Option Entries
  | [] => some entries
  | part :: parts =>
    match pair? part with
    | none => none
    | some (path, key, v) => (addValue? path key v entries).bind fun es => addPairs? es parts

/-- The inline table in curly brackets, which stands on one line. -/
def inlineTable? (terms : List Term) : Option Value :=
  let parts := (splitTerms Term.isComma terms).map (trimTerms Term.isGap)
  if parts.all (·.isEmpty) && parts.length == 1 then some (.table [])
  else (addPairs? [] parts).map fun es => .table (Entries.toValues es)

mutual

/-- A token as it is, or the value of a group. -/
def term? : Nest Token → Option Term
  | .token t => some (.token t)
  | .group .square inner => (terms? inner).bind fun ts => (array? ts).map .value
  | .group .curly inner => (terms? inner).bind fun ts => (inlineTable? ts).map .value

def terms? : List (Nest Token) → Option (List Term)
  | [] => some []
  | n :: ns =>
    match term? n, terms? ns with
    | some t, some ts => some (t :: ts)
    | _, _ => none

end

/-! ## Documents -/

inductive Entry where
  | header (path : List Text) (key : Text)
  | element (path : List Text) (key : Text)
  | pair (path : List Text) (key : Text) (v : Value)

/-- The lines of a document, as sequences of groups. -/
def splitLines : List (Nest Token) → List (List (Nest Token))
  | [] => [[]]
  | .token .newline :: ns => [] :: splitLines ns
  | n :: ns =>
    match splitLines ns with
    | line :: lines => (n :: line) :: lines
    | [] => [[n]]

def isGapNest : Nest Token → Bool
  | .token (.blank _) => true
  | _ => false

/-- The entry on a line, when there is one. -/
def entryOf? (line : List (Nest Token)) : Option (Option Entry) :=
  match ((line.dropWhile isGapNest).reverse.dropWhile isGapNest).reverse with
  | [] => some none
  | [.group .square [.group .square inner]] =>
    ((terms? inner).bind key?).map fun (path, key) => some (.element path key)
  | [.group .square inner] =>
    ((terms? inner).bind key?).map fun (path, key) => some (.header path key)
  | line => ((terms? line).bind pair?).map fun (path, key, v) => some (.pair path key v)

/-- Adds entries to a tree, where `current` is the path of the last header. -/
def addEntries? (root : Entries) (current : List Text) : List Entry → Option Entries
  | [] => some root
  | .header path key :: es =>
    (openTable? path key root).bind fun root => addEntries? root (path ++ [key]) es
  | .element path key :: es =>
    (openElement? path key root).bind fun root => addEntries? root (path ++ [key]) es
  | .pair path key v :: es =>
    (changeAt? false (fun _ inner => addValue? path key v inner) current false root).bind
      fun root => addEntries? root current es

/-- The entries of the table that a document describes. -/
def ofText? (t : Text) : Option (List (Text × Value)) := do
  let nests ← (lexemes? t).bind Nest.ofLexemes?
  if nests.any fun n => depthLimit < n.depth then none
  else
    let entries ← (splitLines nests).mapM entryOf?
    let root ← addEntries? [] [] (entries.filterMap id)
    return Entries.toValues root

end Stencil.Toml
