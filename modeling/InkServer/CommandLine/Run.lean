import InkServer.CommandLine.Help
import InkServer.CommandLine.Options
import InkServer.Failure.Raised
import InkServer.Log
import InkServer.Server.Setup

/-!
# Runs of the command line

What the program does with its arguments: it says something and exits, or it starts a server. A run is
split where the server begins: `plan` decides what is to be done, and `Serving.conclude` says how the run
ends, given how the server was set up and how its connection ended.
-/

namespace InkServer.CommandLine

/-! ## What is asked for -/

/-- How a server is reached. -/
inductive Transport where
  /-- Over the standard streams. -/
  | streams
  | network (host : String) (socket : Int)
  deriving DecidableEq, Repr

/-- What is asked of a server. -/
structure Options where
  socket : Option Int := none
  host : String := "localhost"
  network : Bool := false
  config : Option String := none
  debug : Bool := false
  deriving DecidableEq, Repr

/-- What the arguments ask for. -/
inductive Request where
  | programHelp
  | version
  | serverHelp
  | serve (options : Options)
  deriving DecidableEq, Repr

/-- An error of usage, in the program or in the command that starts the server. -/
structure Misuse where
  error : UsageError
  ofServer : Bool := false
  deriving DecidableEq, Repr

def programFlags : List Flag := [⟨"--version", false⟩, ⟨"--help", false⟩]

def serverFlags : List Flag := [
  ⟨"--port", true⟩, ⟨"--host", true⟩, ⟨"--tcp", false⟩, ⟨"--config", true⟩, ⟨"--debug", false⟩,
  ⟨"--help", false⟩]

/-- The commands of the program. -/
def commands : List String := ["lsp"]

/-! ## Reading the arguments -/

/-- Takes over the value of an option. `isDirectory` knows the directories. -/
def setOption (isDirectory : Path → Bool) (r : Reading) (o : Options) (name : String) :
    Except UsageError Options :=
  match name, r.value? name with
  | "--port", some value =>
    match Integer.ofText value with
    | .ok socket => .ok { o with socket := some socket }
    | .error _ => .error (.notInteger name value)
  | "--host", some value => .ok { o with host := value }
  | "--tcp", _ => .ok { o with network := true }
  | "--config", some value =>
    if value ≠ "" && isDirectory (.ofText value) then .error (.directory name value)
    else .ok { o with config := some value }
  | "--debug", _ => .ok { o with debug := true }
  | _, _ => .ok o

/-- Reads the arguments of the command that starts the server. -/
def readServer (isDirectory : Path → Bool) (arguments : List String) : Except UsageError Request := do
  let r ← read serverFlags true arguments
  if r.has "--help" then pure .serverHelp
  else
    let options ← r.names.foldlM (setOption isDirectory r) {}
    if r.arguments.isEmpty then pure (.serve options) else throw (.extraArguments r.arguments)

/-- Reads the name of a command and its arguments. -/
def readCommand (isDirectory : Path → Bool) : List String → Except Misuse Request
  | [] => .ok .programHelp
  | "lsp" :: arguments => (readServer isDirectory arguments).mapError fun e => ⟨e, true⟩
  | name :: rest =>
    match (if looksLikeOption name then read programFlags false (name :: rest) else .ok {}) with
    | .error e => .error ⟨e, false⟩
    | .ok _ => .error ⟨.unknownCommand name (Text.closeWords commands name), false⟩

/-- Reads the arguments of the program. -/
def readProgram (isDirectory : Path → Bool) (arguments : List String) : Except Misuse Request :=
  match read programFlags false arguments with
  | .error e => .error ⟨e, false⟩
  | .ok r =>
    match r.names with
    | "--version" :: _ => .ok .version
    | "--help" :: _ => .ok .programHelp
    | _ => readCommand isDirectory r.arguments

/-! ## Planning -/

/-- The variables of the environment that matter. -/
structure Environment where
  home : Path
  config : Option String := none
  deriving DecidableEq, Repr

/-- What a run leaves behind: its texts and its status, and the kind of an error that nobody caught. -/
structure Outcome where
  status : Nat := 0
  output : String := ""
  errors : String := ""
  uncaught : Option String := none
  deriving DecidableEq, Repr

/-- A server that is to be started, and what is to be said before. -/
structure Serving where
  config : Config
  socket : Int
  transport : Transport
  debug : Bool := false
  note : Option String := none

/-- What is to be done. -/
inductive Plan where
  | finish (outcome : Outcome)
  | serve (serving : Serving)

/-- A run that was given up with an error. -/
def aborted (message : String) (debug : Bool) : Outcome where
  status := 1
  errors := "Error: " ++ message ++ "\n" ++ (if debug then "\n<traceback>\n" else "") ++ "Aborted!\n"

/-- A run whose arguments made no sense. -/
def misused (m : Misuse) : Outcome where
  status := 2
  errors :=
    let (usage, command) := if m.ofServer then (serverUsage, "inkls lsp") else (programUsage, "inkls")
    (if m.error.showsUsage then usage ++ "\n" ++ hint command ++ "\n\n" else "") ++
      "Error: " ++ m.error.message ++ "\n"

/-- The kinds of errors that are told to the user as they are. -/
def toldKinds : List String :=
  ["ValueError", "FileNotFoundError", "UnicodeError", "UnicodeDecodeError", "UnicodeEncodeError"]

/-- How a run ends with an error of some kind. -/
def failed (kind message : String) (debug : Bool) : Outcome :=
  if toldKinds.contains kind then aborted message debug else { status := 1, uncaught := some kind }

/-- Plans a server. -/
def planServer (environment : Environment) (o : Options) : StateM FileSystem Plan := do
  let sources : Config.Sources := {
    argument := o.config
    environment := environment.config
    home := environment.home }
  match ← (Config.load sources).run with
  | .error e =>
    let f := Failure.config e
    return .finish (failed f.kindName f.message o.debug)
  | .ok (config, note) =>
    let socket := socketOf o.socket
    return .serve {
      config, socket, note
      transport := if o.network then .network o.host socket else .streams
      debug := o.debug }

/-- Plans a run. -/
def plan (environment : Environment) (arguments : List String) : StateM FileSystem Plan := do
  let files ← get
  let isDirectory (p : Path) : Bool := files.stat p matches .ok .directory
  match readProgram isDirectory arguments with
  | .error m => return .finish (misused m)
  | .ok .programHelp => return .finish { output := programHelp }
  | .ok .version => return .finish { output := versionText }
  | .ok .serverHelp => return .finish { output := serverHelp }
  | .ok (.serve options) => planServer environment options

/-! ## How a server ends -/

namespace Serving

/-- The part of the server that notes a missing configuration. -/
def configOrigin : String := "inkls.config.server_config"

/-- The part of the server that notes an error of the connection. -/
def serverOrigin : String := "inkls.lsp.server"

/-- A line of the log, which is kept out of the way while faults are searched for. -/
def logged (s : Serving) (r : Log.Record) : String := if s.debug then "" else r.line ++ "\n"

/-- What is noted before anything else. -/
def notes (s : Serving) : String :=
  match s.note with
  | some note => s.logged ⟨Log.warning, configOrigin, note⟩
  | none => ""

/-- What is said when the server starts. -/
def announcement (s : Serving) : String :=
  match s.transport with
  | .streams => ""
  | .network host socket => s!"Starting Ink LSP server on {host}:{socket}\n"

/-- The kind of an interruption by the user. -/
def interruption : String := "KeyboardInterrupt"

/-- The kind of an error about the end of the input. -/
def endOfInput : String := "EOFError"

/-- Errors that only say that the connection is over. -/
def quietKinds : List String := [interruption, "SIGINT", "SIGTERM", "BrokenPipeError", endOfInput]

/-- How a run ends whose server could not be set up. -/
def unmade (s : Serving) (e : Raised) : Outcome :=
  if e.kind = interruption then { errors := s.notes ++ "\nLSP server stopped\n" }
  else if e.kind = endOfInput then { status := 1, errors := s.notes ++ "\nAborted!\n" }
  else
    let outcome := failed e.kind e.message s.debug
    { outcome with errors := s.notes ++ outcome.errors }

/-- What is noted about the error that a connection ended with. -/
def ended (s : Serving) (e : Raised) : String :=
  if quietKinds.contains e.kind then ""
  else
    s.logged ⟨Log.error, serverOrigin, "Error in LSP server"⟩ ++
      "<traceback>\n" ++ e.kind ++ ": " ++ e.message ++ "\n"

/-- How a run ends whose connection ended, with an error or without. -/
def served (s : Serving) (e : Option Raised) : Outcome where
  errors := s.notes ++ s.announcement ++ (e.map s.ended).getD ""

/-- How a run ends, given what went wrong when the server was set up, and what went wrong with its
connection. -/
def conclude (s : Serving) (setup connection : Option Raised) : Outcome :=
  match setup with
  | some e => s.unmade e
  | none => s.served connection

end Serving

end InkServer.CommandLine
