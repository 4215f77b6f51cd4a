import InkServer.Workspace.Compilation
import InkServer.Settings.Lookup

/-!
# Edits

An edit is a document that is taken in and then compiled with its workspace.
-/

namespace InkServer

open ServerAct

/-- Where an edit waits. -/
inductive Edit where
  | applying (document : OpenDocument) (state : Applying)
  | configuring (id : WorkspaceId) (state : SettingsLookup)
  | compiling (state : Compilation)

namespace Edit

def afterCompiling (part : ServerAct (Step Compilation CompileSummary)) :
    ServerAct (Step Edit SyncStatus) :=
  Act.andThen part .compiling fun _ => pure (.done .compiled)

def afterConfiguring (id : WorkspaceId) (part : ServerAct (Step SettingsLookup Settings)) :
    ServerAct (Step Edit SyncStatus) :=
  Act.andThen part (.configuring id) fun settings =>
    afterCompiling (Compilation.start id settings none)

def afterApplying (document : OpenDocument) (part : ServerAct (Step Applying Applied)) :
    ServerAct (Step Edit SyncStatus) :=
  Act.andThen part (.applying document) fun a =>
    match a.status, a.workspace with
    | .applied, some id => afterConfiguring id (SettingsLookup.start document.uri)
    | status, _ => pure (.done status)

/-- Takes in a document and compiles its workspace. -/
def start (document : OpenDocument) : ServerAct (Step Edit SyncStatus) :=
  afterApplying document (Applying.start document)

/-- Goes on with an edit after a wait. -/
def resume (state : Edit) (signal : Signal) : ServerAct (Step Edit SyncStatus) :=
  match state with
  | .applying document state => afterApplying document (Applying.resume state signal)
  | .configuring id state => afterConfiguring id (SettingsLookup.resume state signal)
  | .compiling state => afterCompiling (Compilation.resume state signal)

end Edit

end InkServer
