import InkServer.Client.Handling

/-!
# Setting up a server

A server is made from its configuration. Errors that it meets while it is set up do not stop it: they are
kept with the component they came from, and can be told in one line.
-/

namespace InkServer

/-! ## Errors of the setup -/

/-- The errors of the setup by component, in the order in which they came. -/
abbrev SetupErrors := List (String × String)

/-- The errors of a setup in one line. -/
def SetupErrors.summary (errors : SetupErrors) : String :=
  if errors.isEmpty then "No initialization errors"
  else
    "Initialization errors: " ++
      String.intercalate "; " (errors.map fun (component, text) => component ++ ": " ++ text)

/-! ## Parts of a server -/

/-- Which files are mirrored, and where mirrors go: to the directory for temporary files unless another is
named. Something has to be mirrored. -/
def MirrorPolicy.make (extensions : List String) (tempRoot : Option String) (temporary : Path) :
    Except Failure MirrorPolicy :=
  if extensions.isEmpty then .error (.value "At least one source extension is required")
  else
    .ok {
      extensions
      tempRoot := match tempRoot with
        | none => temporary
        | some "" => temporary
        | some root => .ofText root }

/-- The mirrors that a configuration asks for. -/
def MirrorPolicy.ofSection (section_ : Value) (temporary : Path) : MirrorPolicy :=
  let extensions := (section_.field "extensions").textItems
  let extensions := if extensions.isEmpty then Config.defaultExtensions else extensions
  let root := ((section_.field "temp_root").text?.filter (· ≠ "")).elim temporary .ofText
  { extensions, tempRoot := root }

/-- The compiler that a configuration asks for. -/
def Compiler.ofSection (section_ : Value) : Compiler :=
  let timeout := section_.field "timeout"
  { executable := section_.get? "executable"
    launcher := (section_.field "launcher").textItems
    timeout := if timeout.isTruthy then Seconds.ofValue? timeout else some .default }

/-- The socket that a server listens at unless another is asked for. -/
def defaultSocket : Nat := 3000

/-- The socket that a server listens at; zero stands for the usual one. -/
def socketOf (asked : Option Int) : Int :=
  match asked with
  | none => defaultSocket
  | some 0 => defaultSocket
  | some socket => socket

/-! ## Servers -/

/-- The component that the features of a server belong to. -/
def featureComponent : String := "Feature Registration"

namespace ServerState

/-- A server that has no features yet. -/
def bare (config : Config) (temporary : Path) : ServerState :=
  let sections := config.toValue
  { policy := .ofSection (sections.field "mirror") temporary
    compiler := .ofSection (sections.field "compiler")
    settings := { source := .client }
    publisher := some { isConnected := true }
    folders := .client
    featuresRegistered := false }

/-- Registers the features of a server. -/
def registerFeatures (s : ServerState) : Except Failure ServerState := do
  let subscribers ← (s.subscribers.register Handling.compilationHandler).wire
  pure { s with subscribers, featuresRegistered := true }

/-- A server of a configuration; `failure` is what keeps the features from being registered, if anything
does. -/
def ofConfig (config : Config) (temporary : Path) (failure : Option Failure) : ServerState :=
  let s := bare config temporary
  let registered : Except Failure ServerState := match failure with
    | some f => .error f
    | none => s.registerFeatures
  match registered with
  | .ok s => s
  | .error f => { s with setupErrors := [(featureComponent, f.message)] }

end ServerState

end InkServer
