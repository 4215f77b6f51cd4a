import InkServer.Workspace.Created
import InkServer.Workspace.Removal

/-!
# Folder and file events

The client opens and closes workspace folders and reports files that were created.
-/

namespace InkServer

open ServerAct

/-- Where a change of folders waits: removals come first, one after the other. -/
inductive FolderChange where
  | removing (rest added : List Folder) (state : Removal)
  | adding (state : JointInitialization)

namespace FolderChange

def afterAdding (part : ServerAct (Step JointInitialization (Dict String Bool))) :
    ServerAct (Step FolderChange Unit) :=
  Act.andThen part .adding fun _ => pure (.done ())

/-- Initializes the folders that were added. -/
def add (added : List Folder) : ServerAct (Step FolderChange Unit) :=
  if added.isEmpty then pure (.done ()) else afterAdding (JointInitialization.start added)

/-- Removes folders, then adds others. -/
def start (removed added : List Folder) : ServerAct (Step FolderChange Unit) :=
  match removed with
  | [] => add added
  | folder :: rest =>
    Act.andThen (Removal.start folder.uri) (.removing rest added) fun _ => start rest added

/-- Goes on with a change of folders after a wait. -/
def resume (state : FolderChange) (signal : Signal) : ServerAct (Step FolderChange Unit) :=
  match state with
  | .removing rest added state =>
    Act.andThen (Removal.resume state signal) (.removing rest added) fun _ => start rest added
  | .adding state => afterAdding (JointInitialization.resume state signal)

end FolderChange

namespace CreatedFiles

/-- The paths of the files that were created. Other changes, and what is no file, are left alone. -/
def createdPaths (changes : List FileChange) : List Path :=
  (changes.filter (·.isCreation)).filterMap fun c => (Uri.toPath c.uri).toOption

/-- Copies the files that were created. -/
def watched (changes : List FileChange) : ServerAct (Step CreatedFiles (Dict Path SyncStatus)) :=
  start (createdPaths changes)

end CreatedFiles

end InkServer
