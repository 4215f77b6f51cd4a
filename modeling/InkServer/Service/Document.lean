import InkServer.Client.Workspace
import InkServer.Workspace.Edit

/-!
# Document events

What the server does when a document is opened, changed, saved or closed: it keeps the mirror in step with
the editor and compiles. What a closed document had published stays, since the project still has it.
-/

namespace InkServer.DocumentService

open ServerAct

/-- The text of a file on disk. -/
def textOnDisk (uri : String) : ServerAct (Except Failure String) := do
  match Uri.pathText uri with
  | .error e => pure (.error (.uri e))
  | .ok cs => onDisk (DiskWork.plainly (FileWork.readText (.ofText (String.ofList cs))))

/-- The current text of a document, `none` if there is no client to know it. A document that is not open
has the text of its file. -/
def currentText (uri : String) : ServerAct (Except Failure (Option String)) := do
  let s ← Act.state
  match s.folders with
  | .client =>
    match s.client.workspace with
    | none =>
      pure (.error (.runtime "The workspace is not available - has the server been initialized?"))
    | some w =>
      match w.texts.get? (ClientWorkspace.key uri) with
      | some t => pure (.ok (some t.text))
      | none => return (← textOnDisk uri).map some
  | _ => pure (.ok none)

/-- A document was opened. -/
def opened (document : OpenDocument) : ServerAct (Step Edit SyncStatus) := do
  note (.opened (← Act.self) document)
  let s ← Act.state
  match s.documents.open_ document with
  | .error e => pure (.fail (.uri e))
  | .ok (_, documents) =>
    Act.setState { s with documents }
    Edit.start document

/-- A document was changed. The last change carries the whole text. -/
def changed (uri : String) (version : Int) (texts : List String) : ServerAct (Step Edit SyncStatus) := do
  match ← currentText uri with
  | .error f => pure (.fail f)
  | .ok text? => Edit.start ⟨uri, version, text?.getD (texts.getLastD "")⟩

/-- A document was saved, with its text if the client sends it. -/
def saved (uri : String) (text : Option String) : ServerAct (Step Edit SyncStatus) := do
  let current ← match text with
    | some text => pure (.ok (some text))
    | none => currentText uri
  match current with
  | .error f => pure (.fail f)
  | .ok none => pure (.done .failed)
  | .ok (some text) =>
    let version := (((← Act.state).documents.get? uri).map (·.version)).getD 0
    Edit.start ⟨uri, version, text⟩

end InkServer.DocumentService
