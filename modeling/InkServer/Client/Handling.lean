import InkServer.Client.Message
import InkServer.Workspace.Target
import InkServer.Service.Document
import InkServer.Service.Folder

/-!
# Handling messages of the client

What the server does about a notification or a command, as a task of its own. Events of documents go
through the subscribers. Whatever goes wrong while a message is handled ends with that message.
-/

namespace InkServer

open ServerAct

/-- Where the handling of a message waits. -/
inductive Handling where
  | distributing (event : Subscribers.Distribution Edit Value)
  | welcoming (state : JointInitialization)
  | changingFolders (state : FolderChange)
  | copying (state : CreatedFiles)
  | compiling (id : Value) (state : TargetCompile)
  /-- A command is over and its answer is to be sent. -/
  | answering (id : Value) (result : Except Failure Value)

namespace Handling

/-! ## Events of documents -/

/-- The name of the handler that compiles. -/
def compilationHandler : String := "compilation"

/-- The document that the parameters of an event are about. -/
def documentUri (params : Value) : String := ((params.field "textDocument").field "uri").textD

def documentVersion (params : Value) : Int :=
  (((params.field "textDocument").field "version").int?).getD 0

/-- The texts that a change consists of. -/
def changedTexts (params : Value) : List String :=
  (params.field "contentChanges").items.map fun c => (c.field "text").textD

/-- What an edit comes to does not matter to who sent the event. -/
def edited (part : ServerAct (Step Edit SyncStatus)) : ServerAct (Step Edit Unit) :=
  Act.andThen part id fun _ => pure (.done ())

/-- What the compilation handler does about an event. -/
def compileOn (method : String) (params : Value) : ServerAct (Option (Step Edit Unit)) := do
  let uri := documentUri params
  match method with
  | "handle_document_open" =>
    let text := ((params.field "textDocument").field "text").textD
    return some (← edited (DocumentService.opened ⟨uri, documentVersion params, text⟩))
  | "handle_document_change" =>
    return some (← edited (DocumentService.changed uri (documentVersion params) (changedTexts params)))
  | "handle_document_save" =>
    return some (← edited (DocumentService.saved uri (params.field "text").text?))
  | "handle_document_close" =>
    closeDocument uri
    return some (.done ())
  | _ => return none

/-- The handlers of the server. -/
def handlers : Subscribers.Handlers ServerState Operation Edit Value where
  get s := s.subscribers
  call _ method params := compileOn method params
  resume state signal := edited (Edit.resume state signal)

def afterDistributing (part : ServerAct (Step (Subscribers.Distribution Edit Value) Unit)) :
    ServerAct (Step Handling Unit) :=
  Act.andThen part .distributing fun _ => pure (.done ())

/-! ## A client that is ready -/

/-- Keeps an error of the setup. -/
def noteSetupError (component : String) (f : Failure) : ServerAct Unit :=
  Act.modifyState fun s => { s with setupErrors := s.setupErrors ++ [(component, f.message)] }

def afterWelcoming (part : ServerAct (Step JointInitialization (Dict String Bool))) :
    ServerAct (Step Handling Unit) :=
  Act.afterwards part .welcoming fun r =>
    match r with
    | .ok _ => pure (.done ())
    | .error .cancelled => pure (.fail .cancelled)
    | .error f => do
      noteSetupError "Workspace Initialization" f
      pure (.done ())

/-- Goes by what the client can do from now on, and sets up its folders. -/
def welcome : ServerAct (Step Handling Unit) := do
  Act.modifyState fun s =>
    { s with
      client := { s.client with capabilities := s.client.announced }
      settings := { s.settings with isCapable := s.client.announced.configuration } }
  let s ← Act.state
  if s.featuresRegistered then
    match s.clientFolders with
    | .ok folders => afterWelcoming (JointInitialization.start folders)
    | .error f => afterWelcoming (pure (.fail f))
  else pure (.done ())

/-! ## Folders and files -/

/-- Goes on whatever the outcome, unless it was cancelled. -/
def regardless {τ α : Type} (part : ServerAct (Step τ α)) (wrap : τ → Handling) :
    ServerAct (Step Handling Unit) :=
  Act.afterwards part wrap fun r =>
    match r with
    | .error .cancelled => pure (.fail .cancelled)
    | _ => pure (.done ())

/-- The type of a change that created a file. -/
def createdType : Int := 1

/-- The changes of files as the client writes them. -/
def fileChanges (params : Value) : List FileChange :=
  (params.field "changes").items.map fun c =>
    ⟨(c.field "uri").textD, (c.field "type").int? = some createdType⟩

/-! ## Commands -/

/-- The command that compiles a story. -/
def compileCommand : String := "ink.compileStory"

def afterCompiling (id : Value) (part : ServerAct (Step TargetCompile (Option CompileSummary))) :
    ServerAct (Step Handling Unit) :=
  Act.afterwards part (.compiling id) fun r => do
    let result ← match r with
      | .ok summary => pure (.ok ((summary.map CompileSummary.toValue).getD .null))
      | .error .cancelled => pure (.error .cancelled)
      | .error f => do
        tell (.serverError (some f.message))
        pure (.ok .null)
    Act.wake (← Act.self) .go 0
    pure (.waits (.answering id result))

/-- Compiles the story that the first argument is about. -/
def compile (id : Value) (arguments : List Value) : ServerAct (Step Handling Unit) :=
  match DocumentTarget.ofArgument (.value (arguments.headD .null)) with
  | .ok (target, _) => afterCompiling id (TargetCompile.start target)
  | .error f => afterCompiling id (pure (.fail f))

/-- Sends the answer to a command. -/
def answer (id : Value) : Except Failure Value → ServerAct (Step Handling Unit)
  | .ok result => do
    note (.sent (Message.response id result))
    pure (.done ())
  | .error f => do
    note (.sent (Message.failure id Message.requestCancelled
      ("Request with id \"" ++ id.plain ++ "\" is canceled")))
    pure (.fail f)

/-! ## All messages -/

/-- Handles a notification. -/
def notification (method : String) (params : Value) : ServerAct (Step Handling Unit) :=
  match method with
  | "initialized" => welcome
  | "workspace/didChangeWorkspaceFolders" =>
    let event := params.field "event"
    regardless (FolderChange.start (ClientWorkspace.foldersOf (event.field "removed"))
      (ClientWorkspace.foldersOf (event.field "added"))) .changingFolders
  | "workspace/didChangeWatchedFiles" =>
    regardless (CreatedFiles.watched (fileChanges params)) .copying
  | method =>
    match Subscribers.events.find? fun e => e.1 = method with
    | some (_, handlerMethod) => afterDistributing (handlers.distribute handlerMethod params)
    | none => pure (.done ())

/-- Handles a request that takes time. -/
def request (id : Value) (params : Value) : ServerAct (Step Handling Unit) :=
  compile id (params.field "arguments").items

/-- Goes on with a message after a wait. -/
def resume (state : Handling) (signal : Signal) : ServerAct (Step Handling Unit) :=
  match state with
  | .distributing event => afterDistributing (handlers.resumeDistribution event signal)
  | .welcoming state => afterWelcoming (JointInitialization.resume state signal)
  | .changingFolders state => regardless (FolderChange.resume state signal) .changingFolders
  | .copying state => regardless (CreatedFiles.resume state signal) .copying
  | .compiling id state => afterCompiling id (TargetCompile.resume state signal)
  | .answering id result => answer id result

end Handling

end InkServer
