import InkServer.Compiler.Invocation
import InkServer.Workspace.Applying
import InkServer.Workspace.Delivery
import InkServer.Scheduler.Run

/-!
# Compiling a workspace

A compile of a workspace that is ready is admitted as a request, waits for its turn, runs the compiler in
the mirror that the workspace has by then, and delivers the report if nothing newer was admitted
meanwhile.
-/

namespace InkServer

open ServerAct

/-- What a compile is about: the workspace, the settings of the document that triggered it, and the entry
file. -/
structure CompileJob where
  id : WorkspaceId
  settings : Settings
  entry : Path

/-- Where a compile waits. -/
inductive Compilation where
  | preparing (job : CompileJob) (state : Initialization)
  | running (job : CompileJob) (request : CompileRequest) (state : Scheduler.Run Invocation)

namespace Compilation

/-- Where the scheduler of a workspace is kept. -/
def schedulerOf (s : ServerState) (id : WorkspaceId) : Scheduler :=
  (s.workspaces[id]?.map (·.scheduler)).getD { workspace := "" }

/-- A compiler has ended: the workspace is no longer being compiled. -/
def afterInvocation (id : WorkspaceId) (part : ServerAct (Step Invocation CompilerReport)) :
    ServerAct (Step Invocation CompilerReport) := do
  match ← part with
  | .waits state => pure (.waits state)
  | .ends r =>
    updateWorkspace id fun w =>
      w.enter (if w.state = .compileInFlight then .ready else w.state)
    pure (.ends r)

/-- Runs the compiler in the mirror that the workspace has now. -/
def invoke (job : CompileJob) (request : CompileRequest) :
    ServerAct (Step Invocation CompilerReport) :=
  withWorkspace job.id (pure (.fail .cancelled)) fun w => do
    note (.called job.id request w.mirror)
    match w.mirror with
    | none => pure (.fail (.compiler (.lostMirror w.uri)))
    | some mirror =>
      updateWorkspace job.id fun w => w.enter .compileInFlight
      note (.started job.id request)
      afterInvocation job.id
        (Invocation.start mirror.path job.settings (some job.entry) (some mirror.outputPath))

/-- What the requests of a workspace are made of. -/
def invocations (job : CompileJob) :
    Scheduler.Invocations ServerState Operation Invocation CompilerReport Nat where
  get s := schedulerOf s job.id
  set scheduler s :=
    { s with workspaces := s.workspaces.modify job.id fun w => { w with scheduler } }
  invoke := invoke job
  resume state signal := afterInvocation job.id (Invocation.resume state signal)
  deliver outcome := Delivery.deliver job.id outcome

/-- What became of a request. -/
def summary (uri : String) (c : Scheduler.Conclusion CompilerReport Nat) : CompileSummary where
  workspace := uri
  generation := c.outcome.request.generation
  published := c.outcome.accepted && c.outcome.error.isNone
  diagnostics := c.delivered.getD 0
  error := c.outcome.error.map CompilerError.message

/-- Goes on with a request that runs. -/
def afterRunning (job : CompileJob) (request : CompileRequest)
    (part : ServerAct (Step (Scheduler.Run Invocation) (Scheduler.Conclusion CompilerReport Nat))) :
    ServerAct (Step Compilation CompileSummary) :=
  Act.andThen part (.running job request) fun c =>
    pure (.done (summary request.workspace c))

/-- Admits a compile as a request. -/
def admission (job : CompileJob) : ServerAct CompileRequest := do
  let request ← (invocations job).issue
  note (.admitted (← Act.self) job.id request)
  pure request

/-- Goes on with a workspace that was to be prepared. -/
def afterPreparing (job : CompileJob) (part : ServerAct (Step Initialization Bool)) :
    ServerAct (Step Compilation CompileSummary) :=
  Act.andThen part (.preparing job) fun ready => do
    if ready then
      withWorkspace job.id (pure (.fail .cancelled)) fun _ => do
        let request ← admission job
        afterRunning job request ((invocations job).run request)
    else
      let scheduler := schedulerOf (← Act.state) job.id
      pure (.done {
        workspace := scheduler.workspace
        generation := scheduler.latest
        published := false
        error := some "The workspace is not ready" })

/-- Compiles a workspace. Without an entry file the main story of the settings is compiled. -/
def start (id : WorkspaceId) (settings : Settings) (entry : Option Path) :
    ServerAct (Step Compilation CompileSummary) :=
  match Compiler.entryPath settings entry with
  | .error f => pure (.fail f)
  | .ok entry => afterPreparing ⟨id, settings, entry⟩ (ensureReady id)

/-- Goes on with a compile after a wait. -/
def resume (state : Compilation) (signal : Signal) : ServerAct (Step Compilation CompileSummary) :=
  match state with
  | .preparing job state => afterPreparing job (Initialization.resume state signal)
  | .running job request state =>
    afterRunning job request ((invocations job).resumeRun state signal)

end Compilation

end InkServer
