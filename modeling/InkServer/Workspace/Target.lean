import InkServer.Workspace.Edit

/-!
# Compiling the story of a document

A command compiles the story of the document it names. Without one, the main story of the first workspace
is compiled.
-/

namespace InkServer

open ServerAct

/-- Where the compile of a target waits. -/
inductive TargetCompile where
  | restoring (state : JointInitialization)
  | choosing (id : WorkspaceId) (state : SettingsLookup)
  | applying (uri : String) (state : Applying)
  | locating (uri : String) (state : Locating)
  | preparing (uri : String) (id : WorkspaceId) (state : Initialization)
  | configuring (id : WorkspaceId) (entry : Option Path) (state : SettingsLookup)
  | compiling (state : Compilation)

namespace TargetCompile

abbrev Outcome := ServerAct (Step TargetCompile (Option CompileSummary))

/-- Nothing could be compiled. -/
def nothing : Outcome := pure (.done none)

def afterCompiling (part : ServerAct (Step Compilation CompileSummary)) : Outcome :=
  Act.andThen part .compiling fun summary => pure (.done (some summary))

def afterConfiguring (id : WorkspaceId) (entry : Option Path)
    (part : ServerAct (Step SettingsLookup Settings)) : Outcome :=
  Act.andThen part (.configuring id entry) fun settings =>
    afterCompiling (Compilation.start id settings entry)

/-- Compiles the story of a document whose workspace is ready. -/
def compile (uri : String) (id : WorkspaceId) : Outcome :=
  match Uri.toPath uri with
  | .error e => pure (.fail (.uri e))
  | .ok path => do
    let entry := (← workspace? id).bind fun w => path.relativeTo? w.root
    afterConfiguring id entry (SettingsLookup.start uri)

def afterPreparing (uri : String) (id : WorkspaceId) (part : ServerAct (Step Initialization Bool)) :
    Outcome :=
  Act.andThen part (.preparing uri id) fun ready => do
    if ready then compile uri id
    else
      tell (.warning "The workspace is not ready yet, try again in a few seconds.")
      nothing

def afterLocating (uri : String) (part : ServerAct (Step Locating WorkspaceId)) : Outcome :=
  Act.afterwards part (.locating uri) fun r =>
    match r with
    | .ok id => afterPreparing uri id (ensureReady id)
    | .error (.noWorkspace p) => do
      tell (.error (Failure.noWorkspace p).message)
      nothing
    | .error f => pure (.fail f)

def afterApplying (uri : String) (part : ServerAct (Step Applying Applied)) : Outcome :=
  Act.andThen part (.applying uri) fun a =>
    match a.status, a.workspace with
    | .applied, some id => compile uri id
    | _, _ => nothing

/-- Compiles the story of a target. -/
def compileTarget : DocumentTarget → Outcome
  | .document document => afterApplying document.uri (Applying.start document)
  | .uri uri =>
    match Uri.toPath uri with
    | .error e => pure (.fail (.uri e))
    | .ok path => afterLocating uri (Locating.start path)

/-- Compiles the main story that the settings of a workspace name. -/
def afterChoosing (id : WorkspaceId) (part : ServerAct (Step SettingsLookup Settings)) : Outcome :=
  Act.andThen part (.choosing id) fun settings => do
    match settings.mainStory with
    | .error e => pure (.fail (.story e))
    | .ok story =>
      let root := ((← workspace? id).map (·.root)).getD Path.here
      match (← Act.state).documents.uriForPath (root / Path.ofText story) with
      | .error e => pure (.fail (.uri e))
      | .ok uri => compileTarget (.uri uri)

/-- Compiles the main story of the first workspace. -/
def compileFirst : Outcome := do
  match (← Act.state).registeredWorkspaces with
  | [] =>
    tell (.error "No workspace is open, cannot compile the story.")
    nothing
  | (id, w) :: _ => afterChoosing id (SettingsLookup.start w.uri)

def afterRestoring (part : ServerAct (Step JointInitialization (Dict String Bool))) : Outcome :=
  Act.andThen part .restoring fun _ => compileFirst

/-- Compiles the story of a target, or the main story if there is none. -/
def start : Option DocumentTarget → Outcome
  | some target => compileTarget target
  | none => do
    let s ← Act.state
    if s.registered.isEmpty then
      match s.knownFolders with
      | .error f => pure (.fail f)
      | .ok none => compileFirst
      | .ok (some folders) => afterRestoring (JointInitialization.start folders)
    else compileFirst

/-- Goes on with the compile of a target after a wait. -/
def resume (state : TargetCompile) (signal : Signal) : Outcome :=
  match state with
  | .restoring state => afterRestoring (JointInitialization.resume state signal)
  | .choosing id state => afterChoosing id (SettingsLookup.resume state signal)
  | .applying uri state => afterApplying uri (Applying.resume state signal)
  | .locating uri state => afterLocating uri (Locating.resume state signal)
  | .preparing uri id state => afterPreparing uri id (Initialization.resume state signal)
  | .configuring id entry state => afterConfiguring id entry (SettingsLookup.resume state signal)
  | .compiling state => afterCompiling (Compilation.resume state signal)

end TargetCompile

end InkServer
