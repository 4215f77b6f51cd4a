import InkServer.Workspace.Writing

/-!
# Taking in documents

A document that arrives is tracked, its workspace is found, and its text is written into the mirror of
that workspace. If no workspace is known the client is asked for its folders once; a workspace whose
mirror is missing gets a new one first.
-/

namespace InkServer

open ServerAct

/-! ## Finding the workspace -/

/-- The search for the workspace of a path, while workspaces are set up anew. -/
structure Locating where
  path : Path
  restoring : JointInitialization

namespace Locating

/-- The workspace of a path as things are. -/
def look {τ : Type} (path : Path) : ServerAct (Step τ WorkspaceId) := do
  match (← Act.state).findWorkspace path with
  | some id => pure (.done id)
  | none => pure (.fail (.noWorkspace path))

/-- Goes on once the workspaces are set up. -/
def afterRestoring (path : Path) (part : ServerAct (Step JointInitialization (Dict String Bool))) :
    ServerAct (Step Locating WorkspaceId) :=
  Act.andThen part (Locating.mk path) fun _ => look path

/-- Finds the workspace of a path. -/
def start (path : Path) : ServerAct (Step Locating WorkspaceId) := do
  let s ← Act.state
  match s.findWorkspace path with
  | some id => pure (.done id)
  | none =>
    match s.knownFolders with
    | .error f => pure (.fail f)
    | .ok none => look path
    | .ok (some folders) => afterRestoring path (JointInitialization.start folders)

def resume (state : Locating) (signal : Signal) : ServerAct (Step Locating WorkspaceId) :=
  afterRestoring state.path (JointInitialization.resume state.restoring signal)

end Locating

/-- Sees to it that a workspace can be compiled: a mirror that is pending is tried again, and one that has
vanished from disk is made anew. Says whether it can be compiled afterwards. -/
def ensureReady (id : WorkspaceId) : ServerAct (Step Initialization Bool) :=
  withWorkspace id (pure (.done false)) fun w => do
    match w.state with
    | .uninitialized => pure (.done false)
    | .mirrorPending => Initialization.start id
    | _ =>
      match w.mirror with
      | none => pure (.done w.isReady)
      | some mirror =>
        match ← onDisk mirror.isThere with
        | .error f => pure (.fail f)
        | .ok true => pure (.done w.isReady)
        | .ok false =>
          note (.missed id)
          updateWorkspace id fun w => w.enter .mirrorPending
          Initialization.start id

/-! ## Taking in a document -/

/-- Where a document that is taken in waits. -/
inductive Applying where
  | locating (document : OpenDocument) (state : Locating)
  | preparing (document : OpenDocument) (path : Path) (id : WorkspaceId) (state : Initialization)
  | writing (id : WorkspaceId) (state : DocumentWrite)

/-- What became of a document, and its workspace if it has one. -/
structure Applied where
  status : SyncStatus
  workspace : Option WorkspaceId := none

namespace Applying

/-- Goes on after the text was written. -/
def afterWriting (id : WorkspaceId) (part : ServerAct (Step DocumentWrite MirrorEntry)) :
    ServerAct (Step Applying Applied) :=
  Act.afterwards part (.writing id) fun r =>
    match r with
    | .ok _ => do
      note (.applied (← Act.self) id)
      pure (.done ⟨.applied, some id⟩)
    | .error (.copy e) => do
      tell (.serverError (some e.message))
      pure (.done ⟨.failed, some id⟩)
    | .error f => pure (.fail f)

/-- Goes on with a workspace that was to be prepared. -/
def afterPreparing (document : OpenDocument) (path : Path) (id : WorkspaceId)
    (part : ServerAct (Step Initialization Bool)) : ServerAct (Step Applying Applied) :=
  Act.andThen part (.preparing document path id) fun ready => do
    if !ready then pure (.done ⟨.notReady, some id⟩)
    else
      match ((← workspace? id).bind fun w => path.relativeTo? w.root) with
      | none => pure (.done ⟨.unknownWorkspace, none⟩)
      | some relative => afterWriting id (DocumentWrite.start id relative document.content)

/-- Goes on with the workspace that was found. -/
def afterLocating (document : OpenDocument) (path : Path)
    (part : ServerAct (Step Locating WorkspaceId)) : ServerAct (Step Applying Applied) :=
  Act.afterwards part (.locating document) fun r =>
    match r with
    | .ok id => afterPreparing document path id (ensureReady id)
    | .error (.noWorkspace p) => do
      tell (.error (Failure.noWorkspace p).message)
      pure (.done ⟨.unknownWorkspace, none⟩)
    | .error f => pure (.fail f)

/-- Takes in a document. -/
def start (document : OpenDocument) : ServerAct (Step Applying Applied) := do
  note (.received (← Act.self) document)
  let s ← Act.state
  match Uri.toPath document.uri with
  | .error e => pure (.fail (.uri e))
  | .ok path =>
    match s.documents.change document with
    | .error e => pure (.fail (.uri e))
    | .ok (_, documents) =>
      Act.setState { s with documents }
      if s.policy.isSource path then afterLocating document path (Locating.start path)
      else pure (.done ⟨.failed, none⟩)

/-- Goes on with a document after a wait. -/
def resume (state : Applying) (signal : Signal) : ServerAct (Step Applying Applied) :=
  match state with
  | .locating document state => afterLocating document state.path (Locating.resume state signal)
  | .preparing document path id state =>
    afterPreparing document path id (Initialization.resume state signal)
  | .writing id state => afterWriting id (DocumentWrite.resume state signal)

end Applying

end InkServer
