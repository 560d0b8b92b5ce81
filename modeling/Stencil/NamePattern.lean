import Stencil.Text.Search

/-!
# File name patterns

A pattern is a text with tags in braces. `{path}` writes a field, `{# .. #}` is
a comment, and `{{ .. }}` opens, divides or closes a block: a condition, a name
for a value, a repetition, or a call of the pattern on one of its values. A
hyphen just inside a tag takes the blanks off the text on that side, and a
backslash before a brace makes the brace text.

Patterns are parsed in two stages: a text becomes a list of tags, and the tags
are folded into pieces by their blocks.

## Main definitions

* `NamePattern.Piece`: the pieces of a pattern.
* `NamePattern.ofText?`: the pattern that a text writes.
* `NamePattern.render?`: the name that a pattern writes for the given fields.
-/
namespace Stencil.NamePattern

/-- Names joined by points, or one keyword that starts with `@`. -/
abbrev Place := List Text

/-- The keywords for the position in a loop and for the whole of the fields. -/
def keywords : List Text :=
  ["@index".toList, "@first".toList, "@last".toList, "@root".toList]

def rootKeyword : Text := "@root".toList

/-- The place that a text names. Behind `@` only a keyword may stand. -/
def place? (t : Text) : Option Place :=
  match t with
  | '@' :: _ => if keywords.contains t then some [t] else none
  | _ => some (Text.split ['.'] t)

/-! ## Tags -/

/-- A tag, or the text between tags. -/
inductive Tag where
  | literal (text : Text)
  | value (place : Place)
  | formatted (place : Place) (formatter : Text)
  | call (pattern : Text) (place : Place)
  | openIf (place : Place) (negated : Bool)
  | orElse
  | closeIf
  | openWith (place : Place) (name : Text)
  | closeWith
  | openFor (place : Place)
  | closeFor
  deriving Repr

/-- Takes the blanks off the end of the last text of a reversed list of tags.
The end of a condition is looked through. -/
def trimLast : List Tag → List Tag
  | .literal text :: tags => .literal (Text.trimEnd text) :: tags
  | .closeIf :: tags => .closeIf :: trimLast tags
  | tags => tags

/-- The inside of a tag without its hyphens, and whether there was one in front
and one at the back. -/
def takeHyphens (inside : Text) : Text × Bool × Bool :=
  let t := Text.trim inside
  let (front, t) := match t with
    | '-' :: rest => (true, Text.trim rest)
    | _ => (false, t)
  if t.getLast? = some '-' then (Text.trim t.dropLast, front, true) else (t, front, false)

def valueTag? (inside : Text) : Option Tag :=
  match Text.cut? ['|'] inside with
  | some (place, formatter) => (place? (Text.trim place)).map (.formatted · (Text.trim formatter))
  | none => (place? inside).map .value

/-- The place of a condition, and whether it is negated. The word `not` takes
the character behind it along. -/
def conditionTag? (rest : Text) : Option Tag :=
  match Text.dropFront? "not".toList rest with
  | some [] => none
  | some (_ :: t) => (place? t).map (.openIf · true)
  | none => (place? rest).map (.openIf · false)

def bareTag? (tag : Tag) (rest : Text) : Option Tag := if rest.isEmpty then some tag else none

/-- The tag of a block, which its first word tells. -/
def blockTag? (inside : Text) : Option Tag :=
  let word := inside.takeWhile (!Text.isBlank ·)
  let rest := Text.trim (inside.dropWhile (!Text.isBlank ·))
  if word = "if".toList then conditionTag? rest
  else if word = "else".toList then bareTag? .orElse rest
  else if word = "endif".toList then bareTag? .closeIf rest
  else if word = "with".toList then do
    let (place, name) ← Text.cut? " as ".toList rest
    return .openWith (← place? (Text.trim place)) (Text.trim name)
  else if word = "endwith".toList then bareTag? .closeWith rest
  else if word = "for".toList then do
    let (_, place) ← Text.cut? " in ".toList rest
    return .openFor (← place? (Text.trim place))
  else if word = "endfor".toList then bareTag? .closeFor rest
  else if word = "call".toList then do
    let (pattern, place) ← Text.cut? " with ".toList rest
    return .call (Text.trim pattern) (← place? (Text.trim place))
  else none

/-- The inside of a tag and the text behind it. A tag closes on its own line. -/
def cutTag? (closing t : Text) : Option (Text × Text) :=
  match Text.cut? closing t with
  | some (inside, rest) => if '\n' ∈ inside then none else some (inside, rest)
  | none => none

theorem length_of_cutTag? {closing t inside rest : Text}
    (h : cutTag? closing t = some (inside, rest)) : rest.length ≤ t.length := by
  unfold cutTag? at h
  split at h
  · next i r hc =>
    split at h
    · cases h
    · have hlength := Text.length_of_cut? hc
      simp only [Option.some.injEq, Prod.mk.injEq] at h
      obtain ⟨rfl, rfl⟩ := h
      omega
  · cases h

/-- The texts up to the next brace: a backslash in front of the brace is
dropped and says that the text goes on behind the brace. -/
def dropBackslash (text : Text) : Text × Bool :=
  if text.getLast? = some '\\' then (text.dropLast, true) else (text, false)

/-- How the scan goes on: whether the next brace is text, and whether the next
text loses the blanks in front. -/
structure Mode where
  braceIsText : Bool
  trimFront : Bool

/-- Where a tag starts nothing is left over from before it. -/
def Mode.fresh : Mode := ⟨false, false⟩

/-- Adds a tag with hyphens to the reversed list `done`. -/
def addTag (done : List Tag) (front : Bool) (tag : Tag) : List Tag :=
  tag :: (if front then trimLast done else done)

/-- Cuts the rest of a text into tags; `done` holds those before it, reversed. -/
def tagsAfter? (done : List Tag) (mode : Mode) (t : Text) : Option (List Tag) :=
  match t with
  | [] => if mode.braceIsText then none else some done.reverse
  | '{' :: t =>
    if mode.braceIsText then
      let (text, more) := dropBackslash ('{' :: t.takeWhile (· != '{'))
      tagsAfter? (.literal text :: done) ⟨more, false⟩ (t.dropWhile (· != '{'))
    else
      match t with
      | '#' :: t =>
        match _h : cutTag? "#\x7d".toList t with
        | none => none
        | some (inside, rest) =>
          let comment := Text.trim inside
          let done := if comment.head? = some '-' then trimLast done else done
          tagsAfter? done ⟨false, comment.getLast? = some '-'⟩ rest
      | '{' :: t =>
        match _h : cutTag? "\x7d\x7d".toList t with
        | none => none
        | some (inside, rest) =>
          let (inside, front, back) := takeHyphens inside
          match blockTag? inside with
          | none => none
          | some tag => tagsAfter? (addTag done front tag) ⟨false, back⟩ rest
      | t =>
        match _h : cutTag? ['}'] t with
        | none => none
        | some (inside, rest) =>
          let (inside, front, back) := takeHyphens inside
          match valueTag? inside with
          | none => none
          | some tag => tagsAfter? (addTag done front tag) ⟨false, back⟩ rest
  | c :: t =>
    let text := c :: t.takeWhile (· != '{')
    let (text, more) := dropBackslash (if mode.trimFront then Text.trimStart text else text)
    tagsAfter? (.literal text :: done) ⟨more, false⟩ (t.dropWhile (· != '{'))
termination_by t.length
decreasing_by
  · have hlength := (List.dropWhile_sublist (fun c => c != '{') (l := t)).length_le
    simp only [List.length_cons]
    omega
  · have hlength := length_of_cutTag? _h
    simp only [List.length_cons]
    omega
  · have hlength := length_of_cutTag? _h
    simp only [List.length_cons]
    omega
  · have hlength := length_of_cutTag? _h
    simp only [List.length_cons]
    omega
  · have hlength := (List.dropWhile_sublist (fun c => c != '{') (l := t)).length_le
    simp only [List.length_cons]
    omega

def tags? (t : Text) : Option (List Tag) := tagsAfter? [] .fresh t

/-! ## Pieces -/

inductive Piece where
  | literal (text : Text)
  | value (place : Place)
  | formatted (place : Place) (formatter : Text)
  | call (pattern : Text) (place : Place)
  /-- The parts between the dividers of a condition. -/
  | branch (place : Place) (negated : Bool) (parts : List (List Piece))
  /-- A name for a value, within the body. -/
  | bind (place : Place) (name : Text) (body : List Piece)
  /-- A repetition. No field can be repeated over. -/
  | loop (place : Place) (body : List Piece)
  deriving Repr

/-- A block that is open. The parts of a condition before the current one are
reversed. -/
inductive Opened where
  | branch (place : Place) (negated : Bool) (parts : List (List Piece))
  | bind (place : Place) (name : Text)
  | loop (place : Place)

/-- Folds tags into pieces. `here` is the innermost open body so far, reversed;
`outer` holds the open blocks, each with what stands before it. -/
def foldTags? : List Piece → List (Opened × List Piece) → List Tag → Option (List Piece)
  | here, [], [] => some here.reverse
  | _, _ :: _, [] => none
  | here, outer, .literal t :: tags => foldTags? (.literal t :: here) outer tags
  | here, outer, .value p :: tags => foldTags? (.value p :: here) outer tags
  | here, outer, .formatted p f :: tags => foldTags? (.formatted p f :: here) outer tags
  | here, outer, .call n p :: tags => foldTags? (.call n p :: here) outer tags
  | here, outer, .openIf p negated :: tags =>
    foldTags? [] ((.branch p negated [], here) :: outer) tags
  | here, outer, .openWith p name :: tags => foldTags? [] ((.bind p name, here) :: outer) tags
  | here, outer, .openFor p :: tags => foldTags? [] ((.loop p, here) :: outer) tags
  | here, (.branch p negated parts, before) :: outer, .orElse :: tags =>
    foldTags? [] ((.branch p negated (here.reverse :: parts), before) :: outer) tags
  | here, (.branch p negated parts, before) :: outer, .closeIf :: tags =>
    foldTags? (.branch p negated (here.reverse :: parts).reverse :: before) outer tags
  | here, (.bind p name, before) :: outer, .closeWith :: tags =>
    foldTags? (.bind p name here.reverse :: before) outer tags
  | here, (.loop p, before) :: outer, .closeFor :: tags =>
    foldTags? (.loop p here.reverse :: before) outer tags
  | _, _, _ :: _ => none

def ofText? (t : Text) : Option (List Piece) := (tags? t).bind (foldTags? [] [])

/-! ## Names -/

/-- What a pattern is written for: named fields, or one text. -/
inductive Root where
  | fields (values : List (Text × Text))
  | text (value : Text)

/-- The names in force, the innermost first, and the root behind them. -/
structure Scope where
  names : List (Text × Text)
  root : Root

/-- The text at a place. A text has no members, and one that is the root has no
name. -/
def Scope.get? (s : Scope) : Place → Option Text
  | [] => none
  | name :: members =>
    let found := match s.names.lookup name, s.root with
      | some value, _ => some value
      | none, .fields values => values.lookup name
      | none, .text _ => none
    if members.isEmpty then found else none

/-- The text that a place writes. Outside a loop there is no position, and the
root is written only when it is a text. -/
def Scope.write? (s : Scope) (place : Place) : Option Text :=
  if place = [rootKeyword] then
    match s.root with
    | .text value => some value
    | .fields _ => none
  else if keywords.any (place = [·]) then none
  else s.get? place

/-- Whether the value at a place counts as true: a text that is not empty, or
the fields as a whole. -/
def Scope.holds? (s : Scope) (place : Place) : Option Bool :=
  if place = [rootKeyword] then
    match s.root with
    | .text value => some (!value.isEmpty)
    | .fields _ => some true
  else (s.write? place).map (!·.isEmpty)

/-- The one formatter that patterns may name. -/
def plainFormatter : Text := "unescaped".toList

/-- The one pattern that can be called. -/
def patternName : Text := "file_name".toList

mutual

/-- What a piece writes, where `call` is the pattern itself on a text. -/
def write? (call : Text → Option Text) (s : Scope) : Piece → Option Text
  | .literal t => some t
  | .value place => s.write? place
  | .formatted place formatter =>
    (s.get? place).bind fun value => if formatter = plainFormatter then some value else none
  | .call pattern place =>
    (s.get? place).bind fun value => if pattern = patternName then call value else none
  | .branch place negated parts =>
    (s.holds? place).bind fun holds => writeEveryOther? call s (holds != negated) parts
  | .bind place name body =>
    (s.get? place).bind fun value =>
      writeAll? call { s with names := (name, value) :: s.names } body
  | .loop _ _ => none

def writeAll? (call : Text → Option Text) (s : Scope) : List Piece → Option Text
  | [] => some []
  | piece :: pieces =>
    (write? call s piece).bind fun t => (writeAll? call s pieces).map (t ++ ·)

/-- What every other part writes, the first one included iff `now`. -/
def writeEveryOther? (call : Text → Option Text) (s : Scope) (now : Bool) :
    List (List Piece) → Option Text
  | [] => some []
  | part :: parts =>
    if now then
      (writeAll? call s part).bind fun t => (writeEveryOther? call s false parts).map (t ++ ·)
    else writeEveryOther? call s true parts

end

/-- The name that a pattern writes for the given fields. A called pattern finds
no fields, so a call within a call writes nothing. -/
def render? (pattern : List Piece) (fields : List (Text × Text)) : Option Text :=
  let call := fun value => writeAll? (fun _ => none) ⟨[], .text value⟩ pattern
  writeAll? call ⟨[], .fields fields⟩ pattern

end Stencil.NamePattern
