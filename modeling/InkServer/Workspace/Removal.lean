import InkServer.Workspace.Initialization

/-!
# Removing workspaces

A workspace that is removed is no longer registered from the first moment on; its diagnostics are cleared
and its mirror is deleted. At shutdown this happens to all, one after the other.
-/

namespace InkServer

open ServerAct

/-- A removal whose mirror is being deleted. -/
structure Removal where
  id : WorkspaceId
  mirror : Mirror

namespace Removal

/-- Texts in order. -/
def sorted (texts : List String) : List String := Text.inOrder texts

/-- Takes a workspace out of the registered ones. -/
def unregister (uri : String) : ServerAct (Option WorkspaceId) :=
  modifyGet fun l =>
    (l.state.registered.get? uri,
      { l with state := { l.state with registered := l.state.registered.erase uri } })

/-- Publishes empty lists for documents. -/
def clearAll (uris : List String) : ServerAct Unit := (sorted uris).forM fun uri => publish uri []

/-- Deletes the mirror of a workspace that was removed. -/
def deleteMirror (id : WorkspaceId) (mirror : Mirror) : ServerAct Unit := do
  let _ ← Initialization.delete mirror
  updateWorkspace id fun w => { w with mirror := none }

/-- Removes a workspace; says whether it was known. -/
def start (uri : String) : ServerAct (Step Removal Bool) := do
  match ← unregister uri with
  | none => pure (.done false)
  | some id =>
    updateWorkspace id fun w =>
      { w.enter .removed with initializations := w.initializations + 1 }
    withWorkspace id (pure (.done true)) fun w => do
      clearAll w.published
      updateWorkspace id fun w => { w with published := [] }
      note (.removed id)
      match w.mirror with
      | some mirror =>
        Act.through "delete" ⟨id, mirror⟩ do
          deleteMirror id mirror
          pure (.done true)
      | none => pure (.done true)

/-- Goes on with a removal after a wait. -/
def resume (state : Removal) (signal : Signal) : ServerAct (Step Removal Bool) :=
  match signal with
  | .go => do
    deleteMirror state.id state.mirror
    pure (.done true)
  | _ => pure (.fail .cancelled)

end Removal

/-- A shutdown that is deleting a mirror, and the workspaces that come after. -/
structure Shutdown where
  id : WorkspaceId
  mirror : Mirror
  rest : List String

namespace Shutdown

/-- Removes workspaces one after the other. One that is gone already ends the shutdown. -/
def removeAll : List String → ServerAct (Step Shutdown Unit)
  | [] => pure (.done ())
  | uri :: rest => do
    match ← Removal.unregister uri with
    | none => pure (.fail (.key uri))
    | some id =>
      updateWorkspace id fun w => w.enter .removed
      match (← workspace? id).bind (·.mirror) with
      | some mirror =>
        if ← Act.isClosed "delete" then Act.waitAt "delete" ⟨id, mirror, rest⟩
        else
          Removal.deleteMirror id mirror
          removeAll rest
      | none => removeAll rest

/-- Deletes the mirrors of all workspaces. -/
def start : ServerAct (Step Shutdown Unit) := do
  removeAll (← Act.state).registered.keys

/-- Goes on with a shutdown after a wait. -/
def resume (state : Shutdown) (signal : Signal) : ServerAct (Step Shutdown Unit) :=
  match signal with
  | .go => do
    Removal.deleteMirror state.id state.mirror
    removeAll state.rest
  | _ => pure (.fail .cancelled)

end Shutdown

end InkServer
