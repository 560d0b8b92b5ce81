import Stencil.Arguments
import Stencil.Generator
import Stencil.Schema

/-!
# The program

What a command line does on a host. A usage error or a bad configuration ends
with code 2, any other failure with code 1. The configuration is read first,
then the schema, then all templates; only then are files rendered, and each
template's files are written before the next template is rendered.
-/
namespace Stencil.Program

section
variable {m : Type → Type} [Monad m] [Host m]

/-- The configuration at a path, or in the working directory, or the default. -/
def discoverConfig (path? : Option Text) : ExceptT Error m Config := do
  match path? with
  | some path => load path
  | none =>
    let isThere ← ExceptT.lift (Host.isFile Config.defaultPath)
    if isThere then load Config.defaultPath else ExceptT.mk (return Config.ofText [])
where
  /-- The configuration in a file. -/
  load (path : Text) : ExceptT Error m Config := do
    let text? ← ExceptT.lift (Host.read? path)
    match text? with
    | some text => ExceptT.mk (return Config.ofText text)
    | none => throw .config

def loadSchema (path : Text) : ExceptT Error m (List Table) := do
  let text? ← ExceptT.lift (Host.read? path)
  match text? with
  | none => throw (.dataSource path .unreadable)
  | some text =>
    match Schema.tables? text with
    | some tables => return tables
    | none => throw (.dataSource path .malformed)

def loadTemplate (path : Text) : ExceptT Error m Template := do
  let text? ← ExceptT.lift (Host.read? path)
  ExceptT.mk (return Template.ofFile path text?)

def loadTemplates : List Text → ExceptT Error m (List Template)
  | [] => return []
  | path :: paths => do
    let t ← loadTemplate path
    let ts ← loadTemplates paths
    return t :: ts

/-- The line that says that a template parses. -/
def checkLine (path : Text) (t : Template) (commands : Nat) : Text :=
  path ++ ": ok (".toList ++ t.name ++ " `".toList ++ t.fileType ++ "`, ".toList ++
    Number.naturalText commands ++ " commands)\n".toList

def check (g : Generator) : List Text → ExceptT Error m Unit
  | [] => return ()
  | path :: paths => do
    let t ← loadTemplate path
    let commands ← ExceptT.mk (return g.check t)
    ExceptT.lift (Host.print (checkLine path t commands))
    check g paths

/-- Does what a command line asks for. -/
def perform (config : Config) (action : Arguments.Action) : ExceptT Error m Unit := do
  let g ← ExceptT.mk (return Generator.new config)
  match action with
  | .check paths => check g paths
  | .render data out toStdout paths =>
    let tables ← loadSchema data
    let templates ← loadTemplates paths
    if toStdout then
      let _ ← g.run templates tables Sink.console
      return ()
    else
      let sink := Sink.directory (out.getD config.directory) config.overwrite
      let summary ← g.run templates tables sink
      ExceptT.lift (Host.report (.summary summary.written summary.skipped))

def versionLine : Text := "tablegen 0.1.0\n".toList

/-- Runs a command line and yields the exit code. -/
def run (args : List Text) : m Nat := do
  match Arguments.parse args with
  | .error .usage =>
    Host.report .usage
    return 2
  | .error .help =>
    Host.print (Notice.usage.text ++ ['\n'])
    return 0
  | .error .version =>
    Host.print versionLine
    return 0
  | .ok invocation =>
    match ← (discoverConfig invocation.config).run with
    | .error e =>
      Host.report (.failed e)
      return 2
    | .ok config =>
      match ← (perform config invocation.action).run with
      | .error e =>
        Host.report (.failed e)
        return 1
      | .ok () => return 0

end

end Stencil.Program
