import InkServer.Workspace.Initialization

/-!
# Writing into mirrors

The text of a document, or a created file, is brought into the mirror of its workspace. Writes into one
mirror take turns in the order in which they came, so that the last one wins. A text that the mirror holds
already is not written again.
-/

namespace InkServer

open ServerAct

/-- The lock that writes into the mirror of a workspace take turns with. -/
def writingLock (id : WorkspaceId) : Act.LockPlace ServerState where
  get s := (s.workspaces[id]?.map (·.writing)).getD {}
  set lock s := { s with workspaces := s.workspaces.modify id fun w => { w with writing := lock } }

/-- Where the write of a document waits. -/
inductive DocumentWrite where
  | queued (id : WorkspaceId) (mirror : Mirror) (relative : Path) (content : ByteArray)
  | writing (id : WorkspaceId) (mirror : Mirror) (relative : Path) (content : ByteArray)

namespace DocumentWrite

/-- Ends a write and lets the next one take its turn. -/
def finish {τ α : Type} (id : WorkspaceId) (r : Except Failure α) : ServerAct (Step τ α) := do
  Act.unlock (writingLock id)
  pure (.ends r)

/-- Writes a text. -/
def write (id : WorkspaceId) (mirror : Mirror) (relative : Path) (content : ByteArray) :
    ServerAct (Step DocumentWrite MirrorEntry) := do
  match ← onDisk (mirror.update relative content) with
  | .ok entry =>
    record mirror [entry]
    finish id (.ok entry)
  | .error f => finish id (.error f)

/-- Writes a text unless the mirror holds it already. -/
def takeTurn (id : WorkspaceId) (mirror : Mirror) (relative : Path) (content : ByteArray) :
    ServerAct (Step DocumentWrite MirrorEntry) := do
  let index ← index mirror
  match ← onDisk (mirror.isUpToDate index relative content) with
  | .error f => finish id (.error f)
  | .ok true =>
    finish id (.ok ((index.get? relative).getD (.ofContent relative content)))
  | .ok false =>
    Act.through "write" (.writing id mirror relative content) (write id mirror relative content)

/-- Brings the text of a document into the mirror of its workspace. -/
def start (id : WorkspaceId) (path : Path) (content : ByteArray) :
    ServerAct (Step DocumentWrite MirrorEntry) :=
  withWorkspace id (pure (.fail (.copy (.noMirror "")))) fun w => do
    match w.mirror with
    | none => pure (.fail (.copy (.noMirror w.uri)))
    | some mirror =>
      match Mirror.checkedRelative (← Act.state).policy w.root path with
      | .error e => pure (.fail (.copy e))
      | .ok relative =>
        Act.acquire (writingLock id) (.queued id mirror relative content)
          (takeTurn id mirror relative content)

/-- Goes on with a write after a wait. -/
def resume (state : DocumentWrite) (signal : Signal) : ServerAct (Step DocumentWrite MirrorEntry) :=
  match state, signal with
  | .queued id mirror relative content, .go => takeTurn id mirror relative content
  | .queued id _ _ _, _ => do
    Act.abandon (writingLock id)
    pure (.fail .cancelled)
  | .writing id mirror relative content, .go => write id mirror relative content
  | .writing id _ _ _, _ => finish id (.error .cancelled)

end DocumentWrite

/-- Where the copy of a created file or directory waits. -/
inductive CreatedCopy where
  | queued (id : WorkspaceId) (mirror : Mirror) (path : Path)
  | copying (id : WorkspaceId) (mirror : Mirror) (path : Path)

namespace CreatedCopy

/-- Copies what was created. -/
def copy (id : WorkspaceId) (mirror : Mirror) (path : Path) :
    ServerAct (Step CreatedCopy (List MirrorEntry)) :=
  withWorkspace id (pure (.fail (.copy (.noMirror "")))) fun w => do
    let r ← onDisk (mirror.copyCreated (← Act.state).policy w.root path)
    if let .ok entries := r then record mirror entries
    DocumentWrite.finish id r

/-- The turn of a copy has come. -/
def takeTurn (id : WorkspaceId) (mirror : Mirror) (path : Path) :
    ServerAct (Step CreatedCopy (List MirrorEntry)) :=
  Act.through "copy" (.copying id mirror path) (copy id mirror path)

/-- Brings a created file, or the files of a created directory, into the mirror of its workspace. -/
def start (id : WorkspaceId) (path : Path) : ServerAct (Step CreatedCopy (List MirrorEntry)) :=
  withWorkspace id (pure (.fail (.copy (.noMirror "")))) fun w =>
    match w.mirror with
    | none => pure (.fail (.copy (.noMirror w.uri)))
    | some mirror => Act.acquire (writingLock id) (.queued id mirror path) (takeTurn id mirror path)

/-- Goes on with a copy after a wait. -/
def resume (state : CreatedCopy) (signal : Signal) :
    ServerAct (Step CreatedCopy (List MirrorEntry)) :=
  match state, signal with
  | .queued id mirror path, .go => takeTurn id mirror path
  | .queued id _ _, _ => do
    Act.abandon (writingLock id)
    pure (.fail .cancelled)
  | .copying id mirror path, .go => copy id mirror path
  | .copying id _ _, _ => DocumentWrite.finish id (.error .cancelled)

end CreatedCopy

end InkServer
