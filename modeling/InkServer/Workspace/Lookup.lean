import InkServer.State

/-!
# Finding workspaces

A path belongs to the innermost registered workspace that contains it. Where workspaces are equally deep,
the one registered first counts.
-/

namespace InkServer.ServerState

/-- The registered workspaces in the order of their registration. -/
def registeredWorkspaces (s : ServerState) : List (WorkspaceId × Workspace) :=
  s.registered.values.filterMap fun id => s.workspaces[id]?.map fun w => (id, w)

/-- The better of two places for a path: the deeper one, and of equally deep ones the first. -/
def deeper (best : Option (WorkspaceId × Workspace)) (candidate : WorkspaceId × Workspace) :
    Option (WorkspaceId × Workspace) :=
  match best with
  | none => some candidate
  | some b => if b.2.root.parts.length < candidate.2.root.parts.length then some candidate else some b

/-- The innermost registered workspace that contains a path. -/
def findWorkspace (s : ServerState) (p : Path) : Option WorkspaceId :=
  (((s.registeredWorkspaces.filter fun w => p.isInside w.2.root).foldl deeper none)).map Prod.fst

/-- The open documents whose innermost workspace is a given one, with their contents. -/
def openDocumentsOf (s : ServerState) (id : WorkspaceId) : List (Path × ByteArray) :=
  s.documents.contents.filter fun d => s.findWorkspace d.1 = some id

/-- The workspace that came last under a URI, registered or not. -/
def lastWorkspace? (s : ServerState) (uri : String) : Option WorkspaceId :=
  ((List.range s.workspaces.length).filter fun id => (s.workspaces[id]?.any fun w => w.uri = uri)).getLast?

/-- The lifecycle state of a URI; what is not registered counts as removed. -/
def lifecycleOf (s : ServerState) (uri : String) : Lifecycle :=
  match (s.registered.get? uri).bind fun id => s.workspaces[id]? with
  | some w => w.state
  | none => .removed

/-- The folders that the client of a connection has open, or its root if it has none. -/
def clientFolders (s : ServerState) : Except Failure (List Folder) :=
  match s.client.workspace with
  | none => .error (.runtime "The workspace is not available - has the server been initialized?")
  | some w =>
    match w.folders.values, w.rootUri.filter (· ≠ "") with
    | [], some root =>
      match Uri.toPath root with
      | .ok p => .ok [⟨root, p.name⟩]
      | .error e => .error (.uri e)
    | folders, _ => .ok folders

/-- The folders that can be learned from the client; `none` if there is nobody to ask. -/
def knownFolders (s : ServerState) : Except Failure (Option (List Folder)) :=
  match s.folders with
  | .nobody => .ok none
  | .listed folders => .ok (some folders)
  | .client => s.clientFolders.map some

end InkServer.ServerState
