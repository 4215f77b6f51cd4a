import InkServer.Workspace.Lookup

/-!
# Initializing workspaces

An initialization makes a new mirror from the files on disk and writes the open documents over it, so that
edits that were not saved survive. A later initialization of the same workspace supersedes it: the mirror
made here is then thrown away. A failure leaves the previous mirror in place.
-/

namespace InkServer

open ServerAct

/-- Where an initialization waits. -/
inductive Initialization where
  | creating (id : WorkspaceId) (generation : Nat)
  | overlaying (id : WorkspaceId) (generation : Nat) (mirror : Mirror)
      (documents : List (Path × ByteArray))
  /-- The directory of a mirror that could not be filled is to be deleted. -/
  | discardingFailed (id : WorkspaceId) (generation : Nat) (scratch : Mirror) (error : MirrorError)
  | discardingSuperseded (id : WorkspaceId) (mirror : Mirror)
  | deletingPrevious (previous : Mirror)

namespace Initialization

/-- Deletes a mirror. -/
def delete (m : Mirror) : ServerAct Bool :=
  modifyGet fun l =>
    let (gone, disk) := (m.delete).run l.state.disk
    (gone, { l with state := { l.state with disk } })

/-- Whether the workspace can be compiled. -/
def readiness (id : WorkspaceId) : ServerAct (Step Initialization Bool) := do
  return .done ((← workspace? id).any Workspace.isReady)

/-- Whether an initialization is the latest one of a workspace that is still there. -/
def isLatest (id : WorkspaceId) (generation : Nat) : ServerAct Bool := do
  return (← workspace? id).any fun w => generation = w.initializations && w.state ≠ .removed

/-- Whether the mirror of a workspace is there. -/
def hasMirror (id : WorkspaceId) : ServerAct (Except Failure Bool) := do
  match (← workspace? id).bind (·.mirror) with
  | none => pure (.ok false)
  | some m => onDisk m.isThere

/-- Tells about a mirror that could not be made. -/
def giveUp (id : WorkspaceId) (generation : Nat) (error : MirrorError) :
    ServerAct (Step Initialization Bool) := do
  if ← isLatest id generation then
    match ← hasMirror id with
    | .error f => pure (.fail f)
    | .ok there =>
      unless there do updateWorkspace id fun w => w.enter .mirrorPending
      tell (.serverError (some error.message))
      readiness id
  else readiness id

/-- Goes on after a mirror could not be made. -/
def afterFailure (id : WorkspaceId) (generation : Nat) :
    Failure → ServerAct (Step Initialization Bool)
  | .mirror e =>
    match e.scratch with
    | some path =>
      Act.through "delete" (.discardingFailed id generation ⟨path⟩ e) do
        let _ ← delete ⟨path⟩
        giveUp id generation e
    | none => giveUp id generation e
  | f => pure (.fail f)

/-- Puts a new mirror in the place of the previous one. -/
def install (id : WorkspaceId) (generation : Nat) (mirror : Mirror) :
    ServerAct (Step Initialization Bool) := do
  if ← isLatest id generation then
    let previous := (← workspace? id).bind (·.mirror)
    note (.installed id generation mirror)
    updateWorkspace id fun w =>
      { w.enter (if w.state = .compileInFlight then w.state else .ready) with mirror := some mirror }
    match previous.filter (· ≠ mirror) with
    | some previous =>
      Act.through "delete" (.deletingPrevious previous) do
        let _ ← delete previous
        pure (.done true)
    | none => pure (.done true)
  else
    note (.superseded id generation mirror)
    Act.through "delete" (.discardingSuperseded id mirror) do
      let _ ← delete mirror
      readiness id

/-- Writes documents over the copies in a new mirror. -/
def writeOver (id : WorkspaceId) (generation : Nat) (mirror : Mirror)
    (documents : List (Path × ByteArray)) : ServerAct (Step Initialization Bool) :=
  withWorkspace id (pure (.done false)) fun w => do
    match ← onDisk (mirror.overlay w.root documents) with
    | .ok entries =>
      record mirror entries
      install id generation mirror
    | .error f => afterFailure id generation f

/-- Goes on with a mirror that holds a copy of the files on disk. -/
def overlay (id : WorkspaceId) (generation : Nat) (mirror : Mirror) :
    ServerAct (Step Initialization Bool) :=
  withWorkspace id (pure (.done false)) fun w => do
    let s ← Act.state
    let documents := Mirror.overlays s.policy w.root (s.openDocumentsOf id)
    if documents.isEmpty then install id generation mirror
    else
      Act.through "overlay" (.overlaying id generation mirror documents)
        (writeOver id generation mirror documents)

/-- Makes a mirror of a directory. -/
def makeMirror (root : Path) : ServerAct (Except Failure Mirror) := do
  match ← onDisk (Mirror.create (← Act.state).policy root) with
  | .ok (mirror, index) =>
    Act.modifyState fun s => { s with indexes := s.indexes.insert mirror.path index }
    pure (.ok mirror)
  | .error f => pure (.error f)

/-- Copies the files on disk. -/
def create (id : WorkspaceId) (generation : Nat) : ServerAct (Step Initialization Bool) :=
  withWorkspace id (pure (.done false)) fun w => do
    match ← makeMirror w.root with
    | .ok mirror =>
      note (.made id generation mirror)
      overlay id generation mirror
    | .error f => afterFailure id generation f

/-- Initializes a workspace; says whether it can be compiled afterwards. -/
def start (id : WorkspaceId) : ServerAct (Step Initialization Bool) :=
  withWorkspace id (pure (.done false)) fun w => do
    if w.state = .removed then pure (.done false)
    else
      let generation := w.initializations + 1
      note (.initializing id generation w.mirror)
      updateWorkspace id fun w =>
        { w.enter (if w.mirror.isNone then .mirrorPending else w.state) with initializations := generation }
      Act.through "create" (.creating id generation) (create id generation)

/-- Goes on with an initialization after a wait. -/
def resume (state : Initialization) (signal : Signal) : ServerAct (Step Initialization Bool) :=
  match signal with
  | .go =>
    match state with
    | .creating id generation => create id generation
    | .overlaying id generation mirror documents => writeOver id generation mirror documents
    | .discardingFailed id generation scratch error => do
      let _ ← delete scratch
      giveUp id generation error
    | .discardingSuperseded id mirror => do
      let _ ← delete mirror
      readiness id
    | .deletingPrevious previous => do
      let _ ← delete previous
      pure (.done true)
  | _ => pure (.fail .cancelled)

end Initialization

/-! ## Several workspaces at once -/

/-- The initializations of several workspaces under way. -/
structure JointInitialization where
  workspaces : List WorkspaceId

namespace JointInitialization

/-- Registers a folder; one that is registered already stays as it is. -/
def register (folder : Folder) : ServerAct (Except Failure WorkspaceId) := do
  let s ← Act.state
  match s.registered.get? folder.uri with
  | some id => pure (.ok id)
  | none =>
    match Workspace.ofFolder folder with
    | .error e => pure (.error (.uri e))
    | .ok w =>
      let id := s.workspaces.length
      Act.setState { s with
        workspaces := s.workspaces ++ [w]
        registered := s.registered.insert folder.uri id }
      pure (.ok id)

/-- Registers folders one after the other, up to the first that has no path. -/
def registerAll : List Folder → ServerAct (Except Failure (List WorkspaceId))
  | [] => pure (.ok [])
  | folder :: rest => do
    match ← register folder with
    | .error f => pure (.error f)
    | .ok id => return (← registerAll rest).map fun ids => id :: ids

/-- Which of the workspaces can be compiled. -/
def readiness (ids : List WorkspaceId) : ServerAct (Dict String Bool) := do
  let s ← Act.state
  pure (.ofList (ids.filterMap fun id => s.workspaces[id]?.map fun w => (w.uri, w.isReady)))

/-- Registers folders and initializes those that are not ready, side by side. -/
def start (folders : List Folder) : ServerAct (Step JointInitialization (Dict String Bool)) := do
  match ← registerAll folders with
  | .error f => pure (.fail f)
  | .ok ids =>
    let s ← Act.state
    let pending := ids.filter fun id => !(s.workspaces[id]?.any Workspace.isReady)
    Act.gather (pending.map .initialize_) ⟨ids⟩ (return .done (← readiness ids))

/-- Goes on once all are initialized. -/
def resume (state : JointInitialization) (signal : Signal) :
    ServerAct (Step JointInitialization (Dict String Bool)) :=
  match signal with
  | .go => return .done (← readiness state.workspaces)
  | .failed f => pure (.fail f)
  | _ => pure (.fail .cancelled)

end JointInitialization

end InkServer
