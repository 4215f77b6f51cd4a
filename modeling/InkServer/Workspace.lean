import InkServer.Mirror
import InkServer.Scheduler

/-!
# Workspaces

A folder that the client has opened, with everything that is its own: its mirror, its scheduler, and the
documents it last published diagnostics for. Its lifecycle runs from `uninitialized` over `mirrorPending`
to `ready`, from there to `compileInFlight` and back, and ends in `removed`.
-/

namespace InkServer

/-- Where a workspace is in its life. -/
inductive Lifecycle where
  | uninitialized
  | mirrorPending
  | ready
  | compileInFlight
  | removed
  deriving DecidableEq, Repr

def Lifecycle.text : Lifecycle → String
  | .uninitialized => "uninitialized"
  | .mirrorPending => "mirror_pending"
  | .ready => "ready"
  | .compileInFlight => "compile_in_flight"
  | .removed => "removed"

/-- One folder of the client. A removed workspace and one that is added later under the same URI are two
workspaces. -/
structure Workspace where
  uri : String
  root : Path
  name : String := ""
  /-- The mirror, once one was made. -/
  mirror : Option Mirror := none
  state : Lifecycle := .uninitialized
  /-- The documents that the last accepted compile published diagnostics for. -/
  published : List String := []
  /-- Who may write into the mirror. -/
  writing : Lock := {}
  scheduler : Scheduler
  /-- How many initializations were started. -/
  initializations : Nat := 0
  /-- For the record: the states that the workspace has left, in this order. -/
  past : List Lifecycle := []
  deriving DecidableEq

/-- Identifies a workspace. -/
abbrev WorkspaceId := Nat

/-- A folder as the client names it: its URI and its display name. -/
structure Folder where
  uri : String
  name : String := ""
  deriving DecidableEq, Repr

namespace Workspace

/-- A workspace of a folder. -/
def ofFolder (folder : Folder) : Except Uri.Error Workspace := do
  let root ← Uri.toPath folder.uri
  pure { uri := folder.uri, root, name := folder.name, scheduler := { workspace := folder.uri } }

/-- Puts the workspace into a state. -/
def enter (w : Workspace) (state : Lifecycle) : Workspace :=
  { w with state, past := if state = w.state then w.past else w.past ++ [w.state] }

/-- Whether the workspace can be compiled. -/
def isReady (w : Workspace) : Bool :=
  w.mirror.isSome && (w.state = .ready || w.state = .compileInFlight)

end Workspace

end InkServer
