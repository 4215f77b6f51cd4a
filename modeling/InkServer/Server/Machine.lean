import InkServer.Client.Handling
import InkServer.Task.Session

/-!
# The operations of the server

How each operation begins and how it goes on after a wait. An operation that was cancelled before it began
does nothing, except that a request for settings tells those who wait for it.
-/

namespace InkServer

open ServerAct

/-- Where an operation waits. -/
inductive Waiting where
  | creatingMirror (root : Path)
  | overlaying (workspace : WorkspaceId) (mirror : Mirror) (documents : List (Path × ByteArray))
  | writing (state : DocumentWrite)
  | copying (state : CreatedCopy)
  | deletingMirror (mirror : Mirror)
  | fetching (state : SettingsRequest)
  | lookingUp (state : SettingsLookup)
  | invoking (state : Invocation)
  | initializing (state : Initialization)
  | initializingAll (state : JointInitialization)
  | removing (state : Removal)
  | shuttingDown (state : Shutdown)
  | stopping (state : Shutdown)
  | updating (state : Applying)
  | editing (state : Edit)
  | copyingAll (state : CreatedFiles)
  | compilingTarget (state : TargetCompile)
  | compiling (state : Compilation)
  | changingFolders (state : FolderChange)
  | handling (state : Handling)

namespace Waiting

/-- A part of an operation, and what its result means for the whole. -/
def ending {τ α : Type} (part : ServerAct (Step τ α)) (wrap : τ → Waiting) (f : α → Result) :
    ServerAct (Step Waiting Result) :=
  Act.andThen part wrap fun a => pure (.done (f a))

/-! ## Mirrors on their own -/

/-- Keeps a workspace for a directory, which is known under the path of the directory. -/
def keep (root : Path) (mirror : Option Mirror) : ServerAct Unit := do
  let s ← Act.state
  let uri := (Uri.ofPath root).toOption.getD ""
  let w : Workspace := { uri, root, mirror, state := .ready, scheduler := { workspace := uri } }
  Act.setState { s with
    workspaces := s.workspaces ++ [w]
    registered := s.registered.insert root.text s.workspaces.length }

/-- Does something with the workspace that was kept for a directory. -/
def withKept (root : Path) (f : WorkspaceId → ServerAct (Step Waiting Result)) :
    ServerAct (Step Waiting Result) := do
  match (← Act.state).registered.get? root.text with
  | some id => f id
  | none => pure (.fail (.key root.text))

/-- The mirror with a number, counted in the order in which mirrors were made. -/
def mirrorAt? (number : Nat) : ServerAct (Option Mirror) := do
  return ((← Act.state).indexes.keys[number]?).map Mirror.mk

/-- Whether the directory of a mirror is there. -/
def isThere (number : Nat) : ServerAct (Except Failure Bool) := do
  match ← mirrorAt? number with
  | some mirror => onDisk mirror.isThere
  | none => pure (.ok false)

/-- Makes a mirror of a directory. -/
def createMirror (root : Path) : ServerAct (Step Waiting Result) := do
  match ← Initialization.makeMirror root with
  | .error f => pure (.fail f)
  | .ok mirror =>
    keep root (some mirror)
    pure (.done (.created mirror (← index mirror)))

/-- Writes documents over the files of a mirror. -/
def overlay (id : WorkspaceId) (mirror : Mirror) (documents : List (Path × ByteArray)) :
    ServerAct (Step Waiting Result) :=
  withWorkspace id (pure (.fail .cancelled)) fun w => do
    match ← onDisk (mirror.overlay w.root documents) with
    | .error f => pure (.fail f)
    | .ok entries =>
      record mirror entries
      pure (.done (.entries entries))

/-- Writes documents over the files of the mirror of a workspace. -/
def overlayAll (documents : List (Path × ByteArray)) (id : WorkspaceId) :
    ServerAct (Step Waiting Result) :=
  withWorkspace id (pure (.fail .cancelled)) fun w => do
    let overlays := Mirror.overlays (← Act.state).policy w.root documents
    match overlays, w.mirror with
    | [], _ => pure (.done (.entries []))
    | _, none => pure (.fail (.attribute "NoneType" "path"))
    | overlays, some mirror =>
      Act.through "overlay" (.overlaying id mirror overlays) (overlay id mirror overlays)

/-- Deletes a mirror. -/
def deleteMirror (mirror : Mirror) : ServerAct (Step Waiting Result) := do
  let gone ← Initialization.delete mirror
  pure (.done (.truth gone))

/-- Deletes the mirror with a number. -/
def deleteAt (number : Nat) : ServerAct (Step Waiting Result) := do
  match ← mirrorAt? number with
  | some mirror => Act.through "delete" (.deletingMirror mirror) (deleteMirror mirror)
  | none => pure (.done (.truth false))

/-! ## Workspaces -/

/-- Registers a folder and initializes it. -/
def add (folder : Folder) : ServerAct (Step Waiting Result) := do
  match ← JointInitialization.register folder with
  | .error f => pure (.fail f)
  | .ok id => ending (Initialization.start id) .initializing .truth

/-- Does something with the workspace that came last under a URI. -/
def withLast (uri : String) (f : WorkspaceId → ServerAct (Step Waiting Result)) :
    ServerAct (Step Waiting Result) := do
  match (← Act.state).lastWorkspace? uri with
  | some id => f id
  | none => pure (.fail (.key uri))

/-- Goes on with the end of everything, which nothing but a cancellation can fail. -/
def afterStopping (part : ServerAct (Step Shutdown Unit)) : ServerAct (Step Waiting Result) :=
  Act.afterwards part .stopping fun r =>
    match r with
    | .error .cancelled => pure (.fail .cancelled)
    | _ => pure (.done .nothing)

/-- Hands out no more events and shuts down. -/
def stop : ServerAct (Step Waiting Result) := do
  Act.modifyState fun s => { s with subscribers := s.subscribers.clear }
  afterStopping Shutdown.start

/-- Begins an operation. -/
def begin : Operation → ServerAct (Step Waiting Result)
  | .createMirror root => Act.through "create" (.creatingMirror root) (createMirror root)
  | .overlay root documents => withKept root (overlayAll documents)
  | .writeDocument root path content => withKept root fun id =>
    ending (DocumentWrite.start id path content) .writing .entry
  | .copyCreated root path => withKept root fun id =>
    ending (CreatedCopy.start id path) .copying .entries
  | .deleteMirror number => deleteAt number
  | .fetchSettings uri => ending (SettingsRequest.start uri .go) .fetching .settings
  | .resolveSettings uri => ending (SettingsLookup.start uri) .lookingUp .settings
  | .invoke mirror settings entry output =>
    ending (Invocation.start mirror settings entry output) .invoking .report
  | .add folder => add folder
  | .initialize_ id => ending (Initialization.start id) .initializing .truth
  | .initializeLast uri => withLast uri fun id => ending (Initialization.start id) .initializing .truth
  | .initializeAll folders => ending (JointInitialization.start folders) .initializingAll .readiness
  | .remove uri => ending (Removal.start uri) .removing .truth
  | .shutdown => ending Shutdown.start .shuttingDown fun _ => .nothing
  | .stop => stop
  | .update document => ending (Applying.start document) .updating fun a => .status a.status
  | .edit document => ending (Edit.start document) .editing .status
  | .copyAllCreated paths => ending (CreatedFiles.start paths) .copyingAll .statuses
  | .compileTarget target => ending (TargetCompile.start target) .compilingTarget .summary
  | .compile uri settings entry => withLast uri fun id =>
    ending (Compilation.start id settings entry) .compiling fun s => .summary (some s)
  | .didOpen document => ending (DocumentService.opened document) .editing .status
  | .didChange uri version texts => ending (DocumentService.changed uri version texts) .editing .status
  | .didSave uri text => ending (DocumentService.saved uri text) .editing .status
  | .changeFolders added removed =>
    ending (FolderChange.start removed added) .changingFolders fun _ => .nothing
  | .watchFiles changes => ending (CreatedFiles.watched changes) .copyingAll fun _ => .nothing
  | .notification method params => ending (Handling.notification method params) .handling fun _ => .nothing
  | .request id _ params => ending (Handling.request id params) .handling fun _ => .nothing

/-- Begins an operation unless it was cancelled. -/
def start (operation : Operation) (signal : Signal) : ServerAct (Step Waiting Result) :=
  match signal, operation with
  | .go, operation => begin operation
  | signal, .fetchSettings uri => ending (SettingsRequest.start uri signal) .fetching .settings
  | _, _ => pure (.fail .cancelled)

/-- Goes on with work on a mirror, unless it was cancelled. -/
def onGo (signal : Signal) (next : ServerAct (Step Waiting Result)) : ServerAct (Step Waiting Result) :=
  match signal with
  | .go => next
  | _ => pure (.fail .cancelled)

/-- Goes on with an operation after a wait. -/
def resume (state : Waiting) (signal : Signal) : ServerAct (Step Waiting Result) :=
  match state with
  | .creatingMirror root => onGo signal (createMirror root)
  | .overlaying id mirror documents => onGo signal (overlay id mirror documents)
  | .writing state => ending (DocumentWrite.resume state signal) .writing .entry
  | .copying state => ending (CreatedCopy.resume state signal) .copying .entries
  | .deletingMirror mirror => onGo signal (deleteMirror mirror)
  | .fetching state => ending (SettingsRequest.resume state signal) .fetching .settings
  | .lookingUp state => ending (SettingsLookup.resume state signal) .lookingUp .settings
  | .invoking state => ending (Invocation.resume state signal) .invoking .report
  | .initializing state => ending (Initialization.resume state signal) .initializing .truth
  | .initializingAll state =>
    ending (JointInitialization.resume state signal) .initializingAll .readiness
  | .removing state => ending (Removal.resume state signal) .removing .truth
  | .stopping state => afterStopping (Shutdown.resume state signal)
  | .shuttingDown state => ending (Shutdown.resume state signal) .shuttingDown fun _ => .nothing
  | .updating state => ending (Applying.resume state signal) .updating fun a => .status a.status
  | .editing state => ending (Edit.resume state signal) .editing .status
  | .copyingAll state => ending (CreatedFiles.resume state signal) .copyingAll .statuses
  | .compilingTarget state => ending (TargetCompile.resume state signal) .compilingTarget .summary
  | .compiling state => ending (Compilation.resume state signal) .compiling fun s => .summary (some s)
  | .changingFolders state =>
    ending (FolderChange.resume state signal) .changingFolders fun _ => .nothing
  | .handling state => ending (Handling.resume state signal) .handling fun _ => .nothing

end Waiting

/-- How the operations of the server are run. -/
def serverMachine : Machine ServerState Operation Waiting Result where
  start := Waiting.start
  resume := Waiting.resume

end InkServer
