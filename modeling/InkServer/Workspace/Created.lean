import InkServer.Workspace.Writing

/-!
# Created files

Files and directories that were created outside the editor are copied into the mirrors of their
workspaces, one after the other.
-/

namespace InkServer

open ServerAct

/-- The copies of created paths, one of which is under way. -/
structure CreatedFiles where
  path : Path
  rest : List Path
  results : Dict Path SyncStatus
  copying : CreatedCopy

namespace CreatedFiles

/-- What becomes of a path whose copy has ended; failures of other kinds end everything. -/
def statusAfter : Except Failure (List MirrorEntry) → Except Failure SyncStatus
  | .ok _ => .ok .applied
  | .error (.copy _) => .ok .failed
  | .error f => .error f

/-- What becomes of a path: it is settled, or a workspace is to copy it. -/
def examine (path : Path) : ServerAct (Except Failure (SyncStatus ⊕ WorkspaceId)) := do
  let s ← Act.state
  match s.findWorkspace path with
  | none =>
    tell (.serverError (some s!"No workspace contains {path.text}"))
    pure (.ok (.inl .unknownWorkspace))
  | some id =>
    if !((← workspace? id).any Workspace.isReady) then pure (.ok (.inl .notReady))
    else
      match ← onDisk (DiskWork.plainly (FileWork.isDirectory path)) with
      | .error f => pure (.error f)
      | .ok isDirectory =>
        if !isDirectory && !s.policy.isSource path then pure (.ok (.inl .failed))
        else pure (.ok (.inr id))

/-- Copies paths one after the other. -/
def copyAll (results : Dict Path SyncStatus) :
    List Path → ServerAct (Step CreatedFiles (Dict Path SyncStatus))
  | [] => pure (.done results)
  | path :: rest => do
    match ← examine path with
    | .error f => pure (.fail f)
    | .ok (.inl status) => copyAll (results.insert path status) rest
    | .ok (.inr id) =>
      match ← CreatedCopy.start id path with
      | .waits state => pure (.waits ⟨path, rest, results, state⟩)
      | .ends r =>
        match statusAfter r with
        | .error f => pure (.fail f)
        | .ok status => copyAll (results.insert path status) rest

/-- Copies created paths; says what became of each. -/
def start (paths : List Path) : ServerAct (Step CreatedFiles (Dict Path SyncStatus)) :=
  copyAll {} paths

/-- Goes on with the copies after a wait. -/
def resume (state : CreatedFiles) (signal : Signal) :
    ServerAct (Step CreatedFiles (Dict Path SyncStatus)) := do
  match ← CreatedCopy.resume state.copying signal with
  | .waits copying => pure (.waits { state with copying })
  | .ends r =>
    match statusAfter r with
    | .error f => pure (.fail f)
    | .ok status => copyAll (state.results.insert state.path status) state.rest

end CreatedFiles

end InkServer
