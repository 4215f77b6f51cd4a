import InkServer.Client.Handling

/-!
# Receiving messages

What happens at once when a message of the client arrives. Everything that takes time is left to a task.
After a shutdown only the end of the connection is taken notice of.
-/

namespace InkServer

/-- The capabilities that a client tells. What it does not mention it does not support. -/
def Capabilities.ofClient (told : Value) : Capabilities :=
  let workspace := told.field "workspace"
  { configuration := (workspace.field "configuration").isTruthy
    workspaceFolder := (workspace.field "workspaceFolders").isTruthy
    diagnostic := !((told.field "textDocument").field "publishDiagnostics").isNull }

namespace Reception

open ServerAct

def updateClient (f : Client → Client) : ServerAct Unit :=
  Act.modifyState fun s => { s with client := f s.client }

/-- Leaves a message to a task. -/
def handle (operation : Operation) : ServerAct Unit := do
  let task ← Act.create operation
  updateClient fun c => { c with handlers := c.handlers ++ [task] }

/-! ## Notifications -/

/-- Changes what is known of the client's workspace, which has to be known by then. -/
def changeWorkspace (f : ClientWorkspace → Except Failure ClientWorkspace) :
    ServerAct (Except Failure Unit) := do
  match (← Act.state).client.workspace with
  | none =>
    pure (.error (.runtime "The workspace is not available - has the server been initialized?"))
  | some w =>
    match f w with
    | .error e => pure (.error e)
    | .ok w =>
      updateClient fun c => { c with workspace := some w }
      pure (.ok ())

/-- What a notification says about the client's workspace. -/
def takeNote (method : String) (params : Value) : ServerAct (Except Failure Unit) :=
  let document := params.field "textDocument"
  let uri := (document.field "uri").textD
  let version := (document.field "version").int?
  match method with
  | "textDocument/didOpen" =>
    changeWorkspace fun w => .ok (w.openText uri (document.field "text").textD version)
  | "textDocument/didChange" =>
    changeWorkspace fun w =>
      match w.changeText uri (Handling.changedTexts params) version with
      | some w => .ok w
      | none => .error (.key (ClientWorkspace.key uri))
  | "textDocument/didClose" => changeWorkspace fun w => .ok (w.closeText uri)
  | "workspace/didChangeWorkspaceFolders" =>
    let event := params.field "event"
    changeWorkspace fun w =>
      .ok (w.changeFolders (ClientWorkspace.foldersOf (event.field "added"))
        (ClientWorkspace.foldersOf (event.field "removed")))
  | _ => pure (.ok ())

/-- The notifications that tasks handle once the features are registered. -/
def workspaceEvents : List String :=
  ["workspace/didChangeWorkspaceFolders", "workspace/didChangeWatchedFiles"]

/-- Whether a task handles a notification. -/
def isHandled (s : ServerState) (method : String) : Bool :=
  method = "initialized" || s.subscribers.wiredEvents.contains method ||
    (s.featuresRegistered && workspaceEvents.contains method)

/-- Tells the user that something went wrong with a message. -/
def complain (f : Failure) : ServerAct Unit :=
  tell (.error ("Error in server: " ++ f.kindName ++ ": " ++ f.message))

/-- Has a notification handled. -/
def dispatch (method : String) (params : Value) : ServerAct Unit := do
  let s ← Act.state
  if isHandled s method then handle (.notification method params)
  else if s.featuresRegistered && method = "workspace/didChangeConfiguration" then invalidateSettings

/-- Receives a notification. -/
def notification (method : String) (params : Value) : ServerAct Unit := do
  let s ← Act.state
  if method = "exit" then
    updateClient fun c => { c with exitCode := some (if c.isShutDown then 0 else 1) }
  else if !s.client.isShutDown then
    match ← takeNote method params with
    | .ok () => dispatch method params
    | .error f => complain f

/-! ## Requests -/

/-- What the server says of itself when it is initialized. -/
def introduction (s : ServerState) (version : String) : Value :=
  let commands := if s.featuresRegistered then [Handling.compileCommand] else []
  .object [
    ("capabilities", .object [("change", .int 1), ("commands", .texts commands)]),
    ("serverInfo", .object [("name", .str "inkls"), ("version", .str version)])]

/-- The version of the server. -/
def version : String := "0.3.0"

/-- Gets to know the client. -/
def initialize_ (id params : Value) : ServerAct Unit := do
  match ClientWorkspace.ofParams params with
  | .error e =>
    let f := Failure.uri e
    note (.sent (Message.failure id Message.internalError (f.kindName ++ ": " ++ f.message)))
  | .ok w =>
    updateClient fun c =>
      { c with workspace := some w, announced := .ofClient (params.field "capabilities") }
    note (.sent (Message.response id (introduction (← Act.state) version)))

/-- Gives everything up that is under way, and listens no longer. -/
def shutdown (id : Value) : ServerAct Unit := do
  let s ← Act.state
  s.client.handlers.forM Act.cancel
  s.client.requests.forM fun r => Act.cancel r.task
  Act.modifyState fun s =>
    { s with
      subscribers := s.subscribers.clear
      client := { s.client with
        handlers := []
        requests := s.client.requests.map fun r => { r with abandoned := true }
        isShutDown := true } }
  note (.sent (Message.response id .null))

/-- Has a command carried out. -/
def command (id params : Value) : ServerAct Unit := do
  let name := (params.field "command").textD
  if (← Act.state).featuresRegistered && name = Handling.compileCommand then
    handle (.request id "workspace/executeCommand" params)
  else
    note (.sent (Message.failure id Message.invalidParams
      ("Invalid Params: Command name '" ++ name ++ "' is not defined")))

/-- Receives a request. -/
def request (id : Value) (method : String) (params : Value) : ServerAct Unit := do
  if !(← Act.state).client.isShutDown then
    match method with
    | "initialize" => initialize_ id params
    | "shutdown" => shutdown id
    | "workspace/executeCommand" => command id params
    | method =>
      note (.sent (Message.failure id Message.methodNotFound ("Method Not Found: " ++ method)))

/-- Receives a request and numbers it. -/
def nextRequest (method : String) (params : Value) : ServerAct Unit := do
  updateClient fun c => { c with received := c.received + 1 }
  request (.nat (← Act.state).client.received) method params

/-! ## Answers -/

/-- What became of an answer of the client. -/
inductive Reply where
  | answered
  | unexpected
  /-- Nobody waits for the answer any longer. -/
  | cancelled
  deriving DecidableEq, Repr

/-- Receives the answer to the request that is at some place among those that were not answered. -/
def reply (index : Nat) (answer : Except Failure Value) : ServerAct Reply := do
  let c := (← Act.state).client
  match c.requests[index]? with
  | none => pure .unexpected
  | some r =>
    updateClient fun c => { c with requests := c.requests.eraseIdx index }
    if r.abandoned then pure .cancelled
    else
      updateClient fun c => { c with answers := c.answers.insert r.task answer }
      Act.wake r.task .go 0
      pure .answered

end Reception

end InkServer
