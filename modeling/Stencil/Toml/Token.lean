import Stencil.Number.Integer
import Stencil.Text.Nest
import Stencil.Text.Search

/-!
# Tokens of TOML documents

A document is cut into lexemes before anything is known about keys and values.
Quoted strings are decoded here, comments vanish, and the characters of bare
keys, numbers and dates stay together in words. Characters that TOML does not
allow where they stand make the whole document fail.
-/
namespace Stencil.Toml

inductive Token where
  | newline
  | blank (c : Char)
  | equals
  | comma
  | string (text : Text) (multiline : Bool)
  | word (text : Text)
  deriving DecidableEq, Repr

def isWordChar (c : Char) : Bool :=
  c.isAlphanum || c == '_' || c == '-' || c == '+' || c == '.' || c == ':'

/-- The characters that comments and strings may hold. -/
def isPlain (c : Char) : Bool := c == '\t' || (0x20 ≤ c.toNat && c.toNat != 0x7F)

def isGap (c : Char) : Bool := c == ' ' || c == '\t'

/-- Where a scan stands. Words and strings read so far are reversed; `mark` is
the quote of the string. -/
inductive Scan where
  | between
  | word (read : Text)
  | comment
  /-- Behind a carriage return, which a line feed must follow. -/
  | carriage
  /-- Behind the first quote, and behind two of them. -/
  | oneQuote (mark : Char)
  | twoQuotes (mark : Char)
  /-- In a string on one line. -/
  | line (mark : Char) (read : Text)
  /-- At the start of a multi-line string, where one line end is skipped. -/
  | multiStart (mark : Char) (carriage : Bool)
  /-- In a multi-line string, behind some quotes of its kind. -/
  | multi (mark : Char) (read : Text) (quotes : Nat)
  /-- In a multi-line string behind a carriage return. -/
  | multiCarriage (mark : Char) (read : Text)
  /-- Behind a backslash. -/
  | escape (multiline : Bool) (read : Text)
  /-- In a character code. -/
  | code (multiline : Bool) (read : Text) (missing : Nat) (n : Nat)
  /-- Behind a backslash and blanks, before a line end. -/
  | beforeFold (read : Text) (carriage : Bool)
  /-- Behind a folded line end, where all blanks and line ends are skipped. -/
  | folded (read : Text) (carriage : Bool)

/-- The character that a short escape writes. -/
def escaped? (c : Char) : Option Char :=
  if c = '"' ∨ c = '\\' then some c
  else if c = 'b' then some (Char.ofNat 8)
  else if c = 't' then some '\t'
  else if c = 'n' then some '\n'
  else if c = 'f' then some (Char.ofNat 12)
  else if c = 'r' then some '\r'
  else none

/-- The character of a code, which must not be a surrogate or past the last one. -/
def ofCode? (n : Nat) : Option Char := if n.isValidChar then some (Char.ofNat n) else none

/-- A character outside strings: the lexeme that it makes, and where the scan
goes on. -/
def enter? (c : Char) : Option (Option (Lexeme Token) × Scan) :=
  if isWordChar c then some (none, .word [c])
  else if isGap c then some (some (.token (.blank c)), .between)
  else if c = '\n' then some (some (.token .newline), .between)
  else if c = '\r' then some (none, .carriage)
  else if c = '#' then some (none, .comment)
  else if c = '=' then some (some (.token .equals), .between)
  else if c = ',' then some (some (.token .comma), .between)
  else if c = '[' then some (some (.opening .square), .between)
  else if c = ']' then some (some (.closing .square), .between)
  else if c = '{' then some (some (.opening .curly), .between)
  else if c = '}' then some (some (.closing .curly), .between)
  else if c = '"' ∨ c = '\'' then some (none, .oneQuote c)
  else none

/-- A character of a multi-line string that is not one of its quotes. -/
def inMulti? (mark : Char) (read : Text) (c : Char) : Option Scan :=
  if c = '\\' ∧ mark = '"' then some (.escape true read)
  else if c = '\r' then some (.multiCarriage mark read)
  else if c = '\n' ∨ isPlain c then some (.multi mark (c :: read) 0)
  else none

/-- One character: the lexemes that it completes, and where the scan goes on. -/
def advance? : Scan → Char → Option (List (Lexeme Token) × Scan)
  | .between, c => (enter? c).map fun (l?, s) => (l?.toList, s)
  | .word read, c =>
    if isWordChar c then some ([], .word (c :: read))
    else (enter? c).map fun (l?, s) => (.token (.word read.reverse) :: l?.toList, s)
  | .comment, c =>
    if c = '\n' then some ([.token .newline], .between)
    else if c = '\r' then some ([], .carriage)
    else if isPlain c then some ([], .comment)
    else none
  | .carriage, c => if c = '\n' then some ([.token .newline], .between) else none
  | .oneQuote mark, c =>
    if c = mark then some ([], .twoQuotes mark)
    else if c = '\\' ∧ mark = '"' then some ([], .escape false [])
    else if isPlain c then some ([], .line mark [c])
    else none
  | .twoQuotes mark, c =>
    if c = mark then some ([], .multiStart mark false)
    else (enter? c).map fun (l?, s) => (.token (.string [] false) :: l?.toList, s)
  | .line mark read, c =>
    if c = mark then some ([.token (.string read.reverse false)], .between)
    else if c = '\\' ∧ mark = '"' then some ([], .escape false read)
    else if isPlain c then some ([], .line mark (c :: read))
    else none
  | .multiStart mark carriage, c =>
    if c = '\n' then some ([], .multi mark [] 0)
    else if carriage then none
    else if c = '\r' then some ([], .multiStart mark true)
    else if c = mark then some ([], .multi mark [] 1)
    else (inMulti? mark [] c).map ([], ·)
  | .multi mark read quotes, c =>
    if c = mark then
      if quotes = 4 then some ([.token (.string (mark :: mark :: read).reverse true)], .between)
      else some ([], .multi mark read (quotes + 1))
    else if 3 ≤ quotes then
      (enter? c).map fun (l?, s) =>
        (.token (.string (List.replicate (quotes - 3) mark ++ read).reverse true) :: l?.toList, s)
    else (inMulti? mark (List.replicate quotes mark ++ read) c).map ([], ·)
  | .multiCarriage mark read, c =>
    if c = '\n' then some ([], .multi mark ('\n' :: read) 0) else none
  | .escape multiline read, c =>
    if c = 'u' then some ([], .code multiline read 4 0)
    else if c = 'U' then some ([], .code multiline read 8 0)
    else
      match escaped? c with
      | some e => some ([], if multiline then .multi '"' (e :: read) 0 else .line '"' (e :: read))
      | none =>
        if ¬multiline then none
        else if isGap c then some ([], .beforeFold read false)
        else if c = '\n' then some ([], .folded read false)
        else if c = '\r' then some ([], .beforeFold read true)
        else none
  | .code multiline read missing n, c =>
    match Number.hexDigit? c with
    | none => none
    | some d =>
      if 1 < missing then some ([], .code multiline read (missing - 1) (16 * n + d))
      else (ofCode? (16 * n + d)).map fun e =>
        ([], if multiline then .multi '"' (e :: read) 0 else .line '"' (e :: read))
  | .beforeFold read carriage, c =>
    if c = '\n' then some ([], .folded read false)
    else if carriage then none
    else if c = '\r' then some ([], .beforeFold read true)
    else if isGap c then some ([], .beforeFold read false)
    else none
  | .folded read carriage, c =>
    if c = '\n' then some ([], .folded read false)
    else if carriage then none
    else if c = '\r' then some ([], .folded read true)
    else if isGap c then some ([], .folded read false)
    else if c = '"' then some ([], .multi '"' read 1)
    else (inMulti? '"' read c).map ([], ·)

/-- The lexemes that the end of the document completes. -/
def finish? : Scan → Option (List (Lexeme Token))
  | .between | .comment => some []
  | .word read => some [.token (.word read.reverse)]
  | .twoQuotes _ => some [.token (.string [] false)]
  | .multi mark read quotes =>
    if 3 ≤ quotes then
      some [.token (.string (List.replicate (quotes - 3) mark ++ read).reverse true)]
    else none
  | _ => none

def scan? : Scan → Text → Option (List (Lexeme Token))
  | s, [] => finish? s
  | s, c :: t =>
    match advance? s c with
    | none => none
    | some (ls, s) => (scan? s t).map (ls ++ ·)

/-- The lexemes of a document. A byte order mark in front says nothing. -/
def lexemes? (t : Text) : Option (List (Lexeme Token)) :=
  match t with
  | c :: rest => if c.toNat = 0xFEFF then scan? .between rest else scan? .between t
  | [] => some []

end Stencil.Toml
