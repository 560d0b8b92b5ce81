import Stencil.Number.Integer
import Stencil.Text.Nest

/-!
# JSON documents

A strict reader of JSON. The text is cut into lexemes, brackets are paired, and
the groups are read as arrays and objects. A string keeps the surrogates that
its escapes write; whether they pair up is asked when the string is decoded, so
a string that nobody needs may hold a lone one.

## Main definitions

* `Json`: the values.
* `Json.ofText?`: the value that a text writes.
* `Json.decode?`: the text of a string.
-/
namespace Stencil

namespace Json

/-- One unit of a string: a character, or a surrogate that an escape wrote. -/
inductive CodeUnit where
  | char (c : Char)
  | surrogate (n : Nat)
  deriving DecidableEq, Repr

/-- A string as it is written. -/
abbrev Raw := List CodeUnit

/-- The text of a string. Surrogates must come in pairs of a high and a low one. -/
def decode? : Raw → Option Text
  | [] => some []
  | .char c :: r => (decode? r).map (c :: ·)
  | .surrogate hi :: .surrogate lo :: r =>
    if hi < 0xDC00 ∧ 0xDC00 ≤ lo then
      (decode? r).map (Char.ofNat (0x10000 + (hi - 0xD800) * 0x400 + (lo - 0xDC00)) :: ·)
    else none
  | .surrogate _ :: _ => none

end Json

/-- A JSON value. Numbers are read by nobody and keep their text. -/
inductive Json where
  | null
  | bool (b : Bool)
  | number (text : Text)
  | string (raw : Json.Raw)
  | array (items : List Json)
  | object (members : List (Json.Raw × Json))
  deriving Repr

namespace Json

/-! ## Lexemes -/

inductive Token where
  | comma
  | colon
  | string (raw : Raw)
  | word (text : Text)
  deriving Repr

/-- The unit that a code of four hexadecimal digits writes. -/
def unitOf (n : Nat) : CodeUnit :=
  if 0xD800 ≤ n ∧ n ≤ 0xDFFF then .surrogate n else .char (Char.ofNat n)

def escaped? (c : Char) : Option Char :=
  if c = '"' ∨ c = '\\' ∨ c = '/' then some c
  else if c = 'b' then some (Char.ofNat 8)
  else if c = 'f' then some (Char.ofNat 12)
  else if c = 'n' then some '\n'
  else if c = 'r' then some '\r'
  else if c = 't' then some '\t'
  else none

/-- Where a scan stands. Units and characters read so far are reversed. -/
inductive Scan where
  | between
  | word (read : Text)
  | string (read : Raw)
  | escape (read : Raw)
  | code (read : Raw) (missing : Nat) (n : Nat)

def isSpace (c : Char) : Bool := c == ' ' || c == '\t' || c == '\n' || c == '\r'

/-- A character outside strings: the lexeme it makes, and where the scan goes on. -/
def enter (c : Char) : Option (Lexeme Token) × Scan :=
  if isSpace c then (none, .between)
  else if c = '"' then (none, .string [])
  else if c = ',' then (some (.token .comma), .between)
  else if c = ':' then (some (.token .colon), .between)
  else if c = '[' then (some (.opening .square), .between)
  else if c = ']' then (some (.closing .square), .between)
  else if c = '{' then (some (.opening .curly), .between)
  else if c = '}' then (some (.closing .curly), .between)
  else (none, .word [c])

/-- Scans the rest of a text. -/
def scan : Scan → Text → Option (List (Lexeme Token))
  | .between, [] => some []
  | .word read, [] => some [.token (.word read.reverse)]
  | _, [] => none
  | .between, c :: t =>
    match enter c with
    | (none, s) => scan s t
    | (some l, s) => (scan s t).map (l :: ·)
  | .word read, c :: t =>
    match enter c with
    | (none, .word _) => scan (.word (c :: read)) t
    | (none, s) => (scan s t).map (.token (.word read.reverse) :: ·)
    | (some l, s) => (scan s t).map (.token (.word read.reverse) :: l :: ·)
  | .string read, c :: t =>
    if c = '"' then (scan .between t).map (.token (.string read.reverse) :: ·)
    else if c = '\\' then scan (.escape read) t
    else if c.toNat < 0x20 then none
    else scan (.string (.char c :: read)) t
  | .escape read, c :: t =>
    if c = 'u' then scan (.code read 4 0) t
    else
      match escaped? c with
      | some e => scan (.string (.char e :: read)) t
      | none => none
  | .code read missing n, c :: t =>
    match Number.hexDigit? c with
    | none => none
    | some d =>
      if missing ≤ 1 then scan (.string (unitOf (16 * n + d) :: read)) t
      else scan (.code read (missing - 1) (16 * n + d)) t

/-! ## Values -/

/-- Whether a text is empty or an exponent. -/
def isExponent : Text → Bool
  | [] => true
  | c :: t =>
    (c == 'e' || c == 'E') &&
      (let digits := match t with
        | '+' :: ds => ds
        | '-' :: ds => ds
        | ds => ds
      !digits.isEmpty && digits.all Char.isDigit)

/-- Whether a text is what may follow the whole part of a number. -/
def isFraction : Text → Bool
  | '.' :: t => !(t.takeWhile Char.isDigit).isEmpty && isExponent (t.dropWhile Char.isDigit)
  | t => isExponent t

/-- Whether a text is a number: no zero in front of other digits, and digits
on both sides of a point. -/
def isNumber (t : Text) : Bool :=
  let t := match t with
    | '-' :: rest => rest
    | _ => t
  match t with
  | '0' :: rest => isFraction rest
  | c :: rest => c.isDigit && isFraction (rest.dropWhile Char.isDigit)
  | [] => false

def ofWord? (t : Text) : Option Json :=
  if t = "null".toList then some .null
  else if t = "true".toList then some (.bool true)
  else if t = "false".toList then some (.bool false)
  else if isNumber t then some (.number t)
  else none

mutual

/-- The value of a token or a group. -/
def ofNest? : Nest Token → Option Json
  | .token (.string raw) => some (.string raw)
  | .token (.word t) => ofWord? t
  | .token _ => none
  | .group .square [] => some (.array [])
  | .group .square (n :: ns) => (items? (n :: ns)).map .array
  | .group .curly [] => some (.object [])
  | .group .curly (n :: ns) => (members? (n :: ns)).map .object

/-- One or more values between commas. -/
def items? : List (Nest Token) → Option (List Json)
  | [n] => (ofNest? n).map ([·])
  | n :: .token .comma :: ns =>
    match ofNest? n, items? ns with
    | some v, some vs => some (v :: vs)
    | _, _ => none
  | _ => none

/-- One or more members between commas. -/
def members? : List (Nest Token) → Option (List (Raw × Json))
  | [.token (.string key), .token .colon, n] => (ofNest? n).map fun v => [(key, v)]
  | .token (.string key) :: .token .colon :: n :: .token .comma :: ns =>
    match ofNest? n, members? ns with
    | some v, some vs => some ((key, v) :: vs)
    | _, _ => none
  | _ => none

end

def ofText? (t : Text) : Option Json :=
  match (scan .between t).bind Nest.ofLexemes? with
  | some [n] => ofNest? n
  | _ => none

/-! ## Records -/

def keys? : List (Raw × Json) → Option (List (Text × Json))
  | [] => some []
  | (raw, v) :: ms =>
    match decode? raw, keys? ms with
    | some key, some rest => some ((key, v) :: rest)
    | _, _ => none

/-- The values of a record whose fields have the given names, each field with
all of its names. A record is an object, where other members do not matter and
no field may come twice, or an array of the first fields in order. -/
def record? (fields : List (List Text)) : Json → Option (List (Option Json))
  | .object members =>
    (keys? members).bind fun members =>
      let found := fields.map fun names => members.filter fun (key, _) => names.contains key
      if found.all (·.length ≤ 1) then some (found.map fun ms => ms.head?.map (·.2)) else none
  | .array items =>
    if items.length ≤ fields.length then
      some (items.map some ++ List.replicate (fields.length - items.length) none)
    else none
  | _ => none

def text? : Json → Option Text
  | .string raw => decode? raw
  | _ => none

def bool? : Json → Option Bool
  | .bool b => some b
  | _ => none

/-- The items of an array, when all of them can be read. -/
def listOf? {α : Type} (read : Json → Option α) : Json → Option (List α)
  | .array items => items.mapM read
  | _ => none

/-- A field that may be missing. -/
def orElse {α : Type} (default : α) (read : Json → Option α) : Option Json → Option α
  | none => some default
  | some v => read v

end Json
end Stencil
