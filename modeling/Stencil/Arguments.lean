import Stencil.Text.Search

/-!
# Command line arguments

A command line has options, a subcommand, and the options and templates of the
subcommand. An option has a long and a short form, and its value follows it or
is attached; short flags may be written together. Two hyphens end the options.
An option given twice is an error, the verbosity flag excepted.

## Main definitions

* `Arguments.Invocation`: what a command line asks for.
* `Arguments.parse`: reads a command line.
-/
namespace Stencil.Arguments

inductive Flag where
  | config | data | out | stdout | verbose | help | version
  deriving DecidableEq, Repr

inductive Subcommand where
  | render | check
  deriving DecidableEq, Repr

/-- What a command line asks for. -/
inductive Action where
  | render (data : Text) (out : Option Text) (toStdout : Bool) (templates : List Text)
  | check (templates : List Text)
  deriving DecidableEq, Repr

/-- An action and the configuration that it names. -/
structure Invocation where
  config : Option Text
  action : Action
  deriving DecidableEq, Repr

/-- Why a command line asks for no action. -/
inductive Stop where
  | usage
  | help
  | version
  deriving DecidableEq, Repr

def Flag.takesValue : Flag → Bool
  | .config | .data | .out => true
  | _ => false

/-- The options known before a subcommand, or behind it. -/
def Flag.isKnown : Option Subcommand → Flag → Bool
  | none, f => f == .config || f == .verbose || f == .help || f == .version
  | some .check, f => f == .config || f == .verbose || f == .help
  | some .render, f => f != .version

def Flag.ofLong? (level : Option Subcommand) (name : Text) : Option Flag :=
  ([("config".toList, Flag.config), ("data".toList, .data), ("out".toList, .out),
    ("stdout".toList, .stdout), ("verbose".toList, .verbose), ("help".toList, .help),
    ("version".toList, .version)].lookup name).filter (Flag.isKnown level)

def Flag.ofShort? (level : Option Subcommand) (c : Char) : Option Flag :=
  ([('c', Flag.config), ('d', .data), ('o', .out), ('v', .verbose), ('h', .help),
    ('V', .version)].lookup c).filter (Flag.isKnown level)

/-- What one level of a command line has given so far. -/
structure Given where
  config : Option Text
  data : Option Text
  out : Option Text
  stdout : Bool
  templates : List Text
  deriving DecidableEq, Repr

namespace Given

def none : Given := ⟨.none, .none, .none, false, []⟩

/-- Gives an option its value. Values are paths, so they are not empty, and no
option has two. -/
def setValue (g : Given) (flag : Flag) (value : Text) : Except Stop Given :=
  if value.isEmpty then .error .usage
  else
    match flag with
    | .config => if g.config.isSome then .error .usage else .ok { g with config := some value }
    | .data => if g.data.isSome then .error .usage else .ok { g with data := some value }
    | .out => if g.out.isSome then .error .usage else .ok { g with out := some value }
    | _ => .error .usage

def setFlag (g : Given) : Flag → Except Stop Given
  | .stdout => if g.stdout then .error .usage else .ok { g with stdout := true }
  | .verbose => .ok g
  | .help => .error .help
  | .version => .error .version
  | _ => .error .usage

def addTemplate (g : Given) (path : Text) : Except Stop Given :=
  if path.isEmpty then .error .usage else .ok { g with templates := g.templates ++ [path] }

end Given

inductive Shape where
  | escape
  | long (name : Text) (value : Option Text)
  | short (letters : Text)
  | plain (text : Text)
  deriving DecidableEq, Repr

/-- The shape of an argument. A single hyphen is plain. -/
def Shape.of : Text → Shape
  | ['-', '-'] => .escape
  | '-' :: '-' :: t =>
    match Text.cut? ['='] t with
    | some (name, value) => .long name (some value)
    | Option.none => .long t Option.none
  | ['-'] => .plain ['-']
  | '-' :: t => .short t
  | t => .plain t

/-- Reads short options written together. The first that takes a value has the
rest of the argument as its value; when nothing is left it is returned. -/
def shortFlags (level : Option Subcommand) (g : Given) : Text → Except Stop (Given × Option Flag)
  | [] => .ok (g, none)
  | c :: rest =>
    match Flag.ofShort? level c with
    | none => .error .usage
    | some flag =>
      if flag.takesValue then
        match rest with
        | [] => .ok (g, some flag)
        | '=' :: value => (g.setValue flag value).map (·, none)
        | value => (g.setValue flag value).map (·, none)
      else
        match g.setFlag flag with
        | .ok g => shortFlags level g rest
        | .error stop => .error stop

/-- Reads one argument that is an option: what is given then, and the option
that waits for its value. -/
def readOption (level : Option Subcommand) (g : Given) : Shape → Except Stop (Given × Option Flag)
  | .long name value? =>
    match Flag.ofLong? level name, value? with
    | none, _ => .error .usage
    | some flag, some value =>
      if flag.takesValue then (g.setValue flag value).map (·, none) else .error .usage
    | some flag, none =>
      if flag.takesValue then .ok (g, some flag) else (g.setFlag flag).map (·, none)
  | .short letters => shortFlags level g letters
  | _ => .error .usage

/-- Adds templates that stand behind the end of the options. -/
def addTemplates (g : Given) : List Text → Except Stop Given
  | [] => .ok g
  | path :: paths =>
    match g.addTemplate path with
    | .ok g => addTemplates g paths
    | .error stop => .error stop

/-- Reads the arguments of a subcommand, where an option may wait for its value. -/
def readRest (sub : Subcommand) (g : Given) (waiting : Option Flag) : List Text → Except Stop Given
  | [] => if waiting.isSome then .error .usage else .ok g
  | arg :: args =>
    match waiting, Shape.of arg with
    | some flag, .plain value =>
      match g.setValue flag value with
      | .ok g => readRest sub g none args
      | .error stop => .error stop
    | some _, _ => .error .usage
    | none, .plain path =>
      match g.addTemplate path with
      | .ok g => readRest sub g none args
      | .error stop => .error stop
    | none, .escape => addTemplates g args
    | none, shape =>
      match readOption (some sub) g shape with
      | .ok (g, waiting) => readRest sub g waiting args
      | .error stop => .error stop

/-- The action of a subcommand for which something is given. -/
def actionOf (g : Given) : Subcommand → Except Stop Action
  | .check => if g.templates.isEmpty then .error .usage else .ok (.check g.templates)
  | .render =>
    match g.data with
    | none => .error .usage
    | some data =>
      if g.templates.isEmpty || (g.stdout && g.out.isSome) then .error .usage
      else .ok (.render data g.out g.stdout g.templates)

def Subcommand.ofName? (name : Text) : Option Subcommand :=
  [("render".toList, Subcommand.render), ("check".toList, .check)].lookup name

/-- What a request for help on some subcommand comes to. -/
def helpOn : List Text → Stop
  | [] => .help
  | [name] => if (Subcommand.ofName? name).isSome || name = "help".toList then .help else .usage
  | _ => .usage

/-- Reads arguments up to the subcommand, and then those of the subcommand. A
configuration named behind the subcommand wins over one named before it. -/
def readTop (g : Given) (waiting : Option Flag) : List Text → Except Stop Invocation
  | [] => .error .usage
  | arg :: args =>
    match waiting, Shape.of arg with
    | some flag, .plain value =>
      match g.setValue flag value with
      | .ok g => readTop g none args
      | .error stop => .error stop
    | some _, _ => .error .usage
    | none, .plain name =>
      match Subcommand.ofName? name with
      | none => .error (if name = "help".toList then helpOn args else .usage)
      | some sub => do
        let own ← readRest sub Given.none none args
        let action ← actionOf own sub
        return ⟨own.config <|> g.config, action⟩
    | none, .escape => .error .usage
    | none, shape =>
      match readOption none g shape with
      | .ok (g, waiting) => readTop g waiting args
      | .error stop => .error stop

def parse (args : List Text) : Except Stop Invocation := readTop Given.none none args

end Stencil.Arguments
