import InkServer.Compiler
import InkServer.Compiler.Process
import InkServer.Subscribers
import InkServer.Documents.Target
import InkServer.Notice
import InkServer.Publisher
import InkServer.Workspace

/-!
# The state of the server

Everything that the operations of the server share, what they can be asked to do, and what they come to.
What the server does to the outside is kept as a list of events, in order; some events are only for the
record.
-/

namespace InkServer

/-! ## What can be seen from outside -/

/-- Something that happened. -/
inductive Event where
  /-- A compiler was started, or an attempt was made. -/
  | spawned (words : List String) (directory : Path)
  | killed
  /-- For the record: a compiler was seen to have ended. -/
  | exited
  /-- For the record: the end of a compiler was waited for. -/
  | reaped
  /-- The settings of a document were asked for. -/
  | fetched (uri : String)
  /-- Diagnostics were sent to the client. -/
  | published (publication : Publication)
  /-- Diagnostics were handed on without a publisher in between. -/
  | handed (uri : String) (diagnostics : List Diagnostic)
  | noticed (notice : Notice)
  /-- A message was sent to the client. -/
  | sent (message : Value)
  /-- For the record: a task was told that a document was opened. -/
  | opened (task : TaskId) (document : OpenDocument)
  /-- For the record: a task took in a document. -/
  | received (task : TaskId) (document : OpenDocument)
  /-- For the record: the text that a task took in was brought into the mirror of its workspace. -/
  | applied (task : TaskId) (workspace : WorkspaceId)
  /-- For the record: a task was admitted as a compile. -/
  | admitted (task : TaskId) (workspace : WorkspaceId) (request : CompileRequest)
  /-- For the record: the turn of a request came while it was still the latest; the mirror is the one that
  the workspace had. -/
  | called (workspace : WorkspaceId) (request : CompileRequest) (mirror : Option Mirror)
  /-- For the record: the compiler was started for a request. -/
  | started (workspace : WorkspaceId) (request : CompileRequest)
  /-- For the record: the directory of the mirror of a workspace was found to be missing. -/
  | missed (workspace : WorkspaceId)
  /-- For the record: an initialization of a workspace began; the mirror is the one that the workspace had. -/
  | initializing (workspace : WorkspaceId) (generation : Nat) (mirror : Option Mirror)
  /-- For the record: an initialization made a mirror. -/
  | made (workspace : WorkspaceId) (generation : Nat) (mirror : Mirror)
  /-- For the record: the mirror of an initialization, which holds the open documents, is that of the workspace
  from now on. -/
  | installed (workspace : WorkspaceId) (generation : Nat) (mirror : Mirror)
  /-- For the record: an initialization came too late with its mirror. -/
  | superseded (workspace : WorkspaceId) (generation : Nat) (mirror : Mirror)
  /-- For the record: a workspace was removed and its diagnostics were cleared. -/
  | removed (workspace : WorkspaceId)
  /-- For the record: the report of a compile counts and is to be published. -/
  | reported (workspace : WorkspaceId) (request : CompileRequest) (report : CompilerReport)
  /-- For the record: the report of a compile was published as so many diagnostics. -/
  | delivered (workspace : WorkspaceId) (request : CompileRequest) (count : Nat)

/-! ## Settings of documents -/

/-- A request for the settings of a document. Those who need them wait for it together. -/
structure SettingsFetch where
  uri : String
  outcome : Option (Except Failure Settings) := none
  waiting : List TaskId := []

/-- Where settings come from. -/
inductive SettingsSource where
  /-- There is nobody to ask. -/
  | nobody
  /-- The answers are known beforehand, by URI or for all documents. -/
  | answers (byUri : Dict String Value)
  /-- The client is asked. -/
  | client

/-- The settings asked for so far. `current` are the requests whose settings still hold. -/
structure SettingsCache where
  source : SettingsSource := .nobody
  /-- Whether the client can be asked. -/
  isCapable : Bool := false
  current : Dict String TaskId := {}
  fetches : Dict TaskId SettingsFetch := {}

/-! ## The client -/

/-- What the client said about itself. -/
structure Capabilities where
  configuration : Bool := false
  workspaceFolder : Bool := false
  diagnostic : Bool := false
  deriving DecidableEq, Repr

/-- A request that the server sent to the client and that was not answered. -/
structure ClientRequest where
  task : TaskId
  /-- Whether the server no longer waits for the answer. -/
  abandoned : Bool := false
  deriving DecidableEq, Repr

/-- The text of a document that the client has open. -/
structure ClientText where
  text : String
  version : Option Int := none
  deriving DecidableEq, Repr

/-- What the server knows of the client's workspace. -/
structure ClientWorkspace where
  rootUri : Option String := none
  /-- The folders by their URI without escapes. -/
  folders : Dict String Folder := {}
  /-- The open texts by their URI without escapes. -/
  texts : Dict String ClientText := {}

/-- The client of a connection. -/
structure Client where
  /-- Nothing is known of its workspace before it is initialized. -/
  workspace : Option ClientWorkspace := none
  /-- What the client said when it was initialized. -/
  announced : Capabilities := {}
  /-- What the server goes by, which is nothing before the client is ready. -/
  capabilities : Capabilities := {}
  /-- How many requests the client has sent. -/
  received : Nat := 0
  requests : List ClientRequest := []
  /-- Answers that came for tasks that wait for them. -/
  answers : Dict TaskId (Except Failure Value) := {}
  /-- The tasks that handle messages of the client. -/
  handlers : List TaskId := []
  isShutDown : Bool := false
  exitCode : Option Nat := none

/-- Where the folders of the client are learned from when a document belongs to no workspace. -/
inductive FolderSource where
  | nobody
  | listed (folders : List Folder)
  | client

/-! ## The server -/

/-- The state that all operations share. -/
structure ServerState where
  disk : Disk := {}
  policy : MirrorPolicy
  compiler : Compiler := {}
  /-- All workspaces that ever were, by their identity. -/
  workspaces : List Workspace := []
  /-- Those that are registered, by URI. -/
  registered : Dict String WorkspaceId := {}
  /-- What was written to each mirror. -/
  indexes : Dict Path Mirror.Index := {}
  documents : Documents := {}
  settings : SettingsCache := {}
  /-- Who publishes diagnostics; with nobody they are handed on as they are. -/
  publisher : Option Publisher := none
  folders : FolderSource := .nobody
  /-- How the next processes behave; one without a behaviour does as the story asks. -/
  behaviours : List (Option Behaviour) := []
  /-- The tasks whose compiler runs against a short time limit. -/
  timers : List TaskId := []
  subscribers : Subscribers := {}
  /-- What went wrong while the server was set up, by component. -/
  setupErrors : List (String × String) := []
  featuresRegistered : Bool := true
  client : Client := {}
  events : List Event := []

/-! ## Operations and results -/

/-- What happened to a document or a file. -/
inductive SyncStatus where
  | compiled
  | applied
  | notReady
  | unknownWorkspace
  | failed
  deriving DecidableEq, Repr

def SyncStatus.text : SyncStatus → String
  | .compiled => "compiled"
  | .applied => "applied"
  | .notReady => "not_ready"
  | .unknownWorkspace => "unknown_workspace"
  | .failed => "failed"

/-- What happened to a compile. -/
structure CompileSummary where
  workspace : String
  generation : Int
  published : Bool
  diagnostics : Nat := 0
  error : Option String := none
  deriving DecidableEq, Repr

def CompileSummary.toValue (s : CompileSummary) : Value :=
  .object [("workspace", .str s.workspace), ("generation", .int s.generation),
    ("published", .bool s.published), ("diagnostics", .nat s.diagnostics),
    ("error", .ofText? s.error)]

/-- A change of a watched file. -/
structure FileChange where
  uri : String
  isCreation : Bool
  deriving DecidableEq, Repr

/-- What the server can be asked to do that takes time. -/
inductive Operation where
  /-- Makes a mirror of a directory that belongs to no workspace of the client. -/
  | createMirror (root : Path)
  /-- Writes documents over the files of the mirror of a directory. -/
  | overlay (root : Path) (documents : List (Path × ByteArray))
  | writeDocument (root : Path) (path : Path) (content : ByteArray)
  | copyCreated (root : Path) (path : Path)
  /-- Deletes the mirror with a number, counted in the order in which mirrors were made. -/
  | deleteMirror (number : Nat)
  | fetchSettings (uri : String)
  | resolveSettings (uri : String)
  | invoke (mirror : Path) (settings : Settings) (entry output : Option Path)
  | add (folder : Folder)
  | initialize_ (workspace : WorkspaceId)
  /-- Initializes the workspace that came last under a URI. -/
  | initializeLast (uri : String)
  | initializeAll (folders : List Folder)
  | remove (uri : String)
  | shutdown
  /-- Hands out no more events and shuts down, whatever goes wrong with it. -/
  | stop
  | update (document : OpenDocument)
  | edit (document : OpenDocument)
  | copyAllCreated (paths : List Path)
  | compileTarget (target : Option DocumentTarget)
  /-- Compiles the workspace that came last under a URI. -/
  | compile (uri : String) (settings : Settings) (entry : Option Path)
  | didOpen (document : OpenDocument)
  | didChange (uri : String) (version : Int) (texts : List String)
  | didSave (uri : String) (text : Option String)
  | changeFolders (added removed : List Folder)
  | watchFiles (changes : List FileChange)
  /-- A notification of the client. -/
  | notification (method : String) (params : Value)
  /-- A request of the client. -/
  | request (id : Value) (method : String) (params : Value)

/-- What operations come to. -/
inductive Result where
  | nothing
  | truth (b : Bool)
  | created (mirror : Mirror) (index : Mirror.Index)
  | entries (entries : List MirrorEntry)
  | entry (entry : MirrorEntry)
  | settings (settings : Settings)
  | report (report : CompilerReport)
  | readiness (ready : Dict String Bool)
  | status (status : SyncStatus)
  | statuses (statuses : Dict Path SyncStatus)
  | summary (summary : Option CompileSummary)

/-- What an operation of the server does without waiting. -/
abbrev ServerAct := Act ServerState Operation

namespace ServerAct

def note (e : Event) : ServerAct Unit :=
  Act.modifyState fun s => { s with events := s.events ++ [e] }

/-- Takes the events that happened since they were taken the last time. -/
def takeEvents : ServerAct (List Event) := do
  let s ← Act.state
  Act.setState { s with events := [] }
  pure s.events

/-- Tells the user something. -/
def tell (n : Notice) : ServerAct Unit := note (.noticed n)

/-- Does work on mirrors; its failure is a value. -/
def onDisk {α : Type} (work : DiskWork α) : ServerAct (Except Failure α) := do
  let s ← Act.state
  let (r, disk) := work.run s.disk
  Act.setState { s with disk }
  pure r

/-- The workspace of an identity. -/
def workspace? (id : WorkspaceId) : ServerAct (Option Workspace) :=
  return (← Act.state).workspaces[id]?

/-- Changes a workspace. -/
def updateWorkspace (id : WorkspaceId) (f : Workspace → Workspace) : ServerAct Unit :=
  Act.modifyState fun s => { s with workspaces := s.workspaces.modify id f }

/-- Does something with a workspace. An identity is never given to anybody before its workspace is
there. -/
def withWorkspace {α : Type} (id : WorkspaceId) (absent : ServerAct α) (f : Workspace → ServerAct α) :
    ServerAct α := do
  match ← workspace? id with
  | some w => f w
  | none => absent

/-- The entries of a mirror. -/
def index (m : Mirror) : ServerAct Mirror.Index := return ((← Act.state).indexes.get? m.path).getD {}

/-- Notes what was written into a mirror. -/
def record (m : Mirror) (entries : List MirrorEntry) : ServerAct Unit :=
  Act.modifyState fun s =>
    let index := (s.indexes.get? m.path).getD {}
    { s with indexes := s.indexes.insert m.path (index.record entries) }

/-- Hands diagnostics of a document to whoever publishes them. -/
def publish (uri : String) (diagnostics : List Diagnostic) : ServerAct Unit := do
  let s ← Act.state
  match s.publisher with
  | none => note (.handed uri diagnostics)
  | some p =>
    let (publication?, p) := p.publish s.documents uri diagnostics
    Act.setState { s with publisher := some p }
    match publication? with
    | some publication => note (.published publication)
    | none => pure ()

end ServerAct

end InkServer
