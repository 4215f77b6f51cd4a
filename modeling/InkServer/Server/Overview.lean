import InkServer.Server.Machine

/-!
# A server at a glance

How workspaces, mirrors, documents, diagnostics, results and events are written as values, for whoever
wants to look at a server from outside.
-/

namespace InkServer

/-! ## Single things -/

def Path.toValue (p : Path) : Value := .str p.text

/-- A value that may be missing. -/
def Value.ofOption {α : Type} (f : α → Value) : Option α → Value
  | some a => f a
  | none => .null

/-- Bytes as text, or as hexadecimal digits if they are no text. -/
def Value.ofBytes (bytes : ByteArray) : Value :=
  match Text.Utf8.decodeStrict? bytes with
  | some s => .str s
  | none =>
    .object [("hex", .str (String.ofList (bytes.toList.flatMap fun b => Text.hexDigits 2 b.toNat)))]

def FileNode.toValue : FileNode → Value
  | .directory => .null
  | .file content => .ofBytes content
  | .link target => .object [("symlink", .str target)]

/-- The kind and the message of a failure. -/
def Failure.fields (f : Failure) : List (String × Value) :=
  [("error", .str f.kindName), ("message", .str f.message)]

def Failure.toValue (f : Failure) : Value := .object f.fields

/-- What the failures of mirrors tell beside their message. -/
def Failure.pathFields : Failure → List (String × Value)
  | .mirror e => [("root_path", e.root.toValue), ("mirror_path", .ofOption Path.toValue e.scratch)]
  | .copy e => [("path", .ofOption Path.toValue e.path)]
  | .noWorkspace p => [("path", p.toValue)]
  | _ => []

/-- Whether a failure was one of time; cancelled operations tell nothing. -/
def Failure.timeoutFields : Failure → List (String × Value)
  | .cancelled => []
  | .compiler e => [("timed_out", .bool e.isTimeout)]
  | _ => [("timed_out", .null)]

def Severity.toValue (s : Severity) : Value := .nat s.code

/-- The four coordinates of a range. -/
def Range.toValue (r : Range) : Value :=
  .list [.nat r.start.line, .nat r.start.character, .nat r.stop.line, .nat r.stop.character]

def Diagnostic.fields (d : Diagnostic) : List (String × Value) :=
  [("range", d.range.toValue), ("message", .str d.message),
    ("severity", .ofOption Severity.toValue d.severity), ("source", .ofText? d.source)]

def Diagnostic.toValue (d : Diagnostic) : Value := .object d.fields

def AddressedDiagnostic.toValue (d : AddressedDiagnostic) : Value :=
  .object (("uri", .str d.uri) :: d.diagnostic.fields)

def MirrorEntry.toValue (e : MirrorEntry) : Value :=
  .object [("path", e.path.toValue), ("sha256", .str e.fingerprint), ("size", .nat e.size)]

def MirrorEntry.listValue (es : List MirrorEntry) : Value := .list (es.map toValue)

def CompilerReport.toValue (r : CompilerReport) : Value :=
  .object [("output", .str r.output), ("exit", .int r.exitStatus), ("entry", r.entry.toValue),
    ("mirror", r.mirror.toValue)]

def TrackedDocument.toValue (t : TrackedDocument) : Value :=
  .object [("uri", .str t.uri), ("version", .int t.version), ("path", t.path.toValue),
    ("content", .ofBytes t.content)]

def Capabilities.toValue (c : Capabilities) : Value :=
  .object [("configuration", .bool c.configuration), ("workspace_folder", .bool c.workspaceFolder),
    ("diagnostic", .bool c.diagnostic)]

def CompileOutcome.toValue (o : CompileOutcome Value) : Value :=
  .object [("workspace", .str o.request.workspace), ("generation", .int o.request.generation),
    ("accepted", .bool o.accepted), ("skipped", .bool o.skipped), ("result", .ofOption id o.result),
    ("error", .ofText? (o.error.map CompilerError.message)),
    ("timed_out", .ofOption (fun (e : CompilerError) => .bool e.isTimeout) o.error)]

/-- The generation of a request. -/
def CompileRequest.generationValue (r : CompileRequest) : Value := .int r.generation

def DocumentTarget.toValue : DocumentTarget → Value
  | .uri u => .object [("uri", .str u)]
  | .document d => .object [("document", .list [.str d.uri, .int d.version, .str d.text])]

/-! ## Results and events -/

def Result.toValue : Result → Value
  | .nothing => .null
  | .truth b => .bool b
  | .created m index =>
    .object [("mirror", m.path.toValue), ("output", m.outputPath.toValue),
      ("entries", MirrorEntry.listValue index.values)]
  | .entries es => MirrorEntry.listValue es
  | .entry e => e.toValue
  | .settings s => s.toValue
  | .report r => r.toValue
  | .readiness ready => .object (ready.entries.map fun (uri, b) => (uri, .bool b))
  | .status s => .str s.text
  | .statuses ss => .list (ss.entries.map fun (p, s) => .list [p.toValue, .str s.text])
  | .summary s => .ofOption CompileSummary.toValue s

/-- An event; nothing for those that are only for the record. -/
def Event.toValue? : Event → Option Value
  | .spawned words directory =>
    some (.object [("spawn", .texts words), ("cwd", directory.toValue)])
  | .killed => some (.object [("kill", .bool true)])
  | .fetched uri => some (.object [("fetch", .str uri)])
  | .published p =>
    some (.object [("publish", .str p.uri), ("version", .ofOption .int p.version),
      ("diagnostics", .list (p.diagnostics.map Diagnostic.toValue))])
  | .handed uri ds =>
    some (.object [("publish", .str uri), ("diagnostics", .list (ds.map Diagnostic.toValue))])
  | .noticed (.error text) => some (.object [("error", .str text)])
  | .noticed (.warning text) => some (.object [("warning", .str text)])
  | .noticed (.information text) => some (.object [("info", .str text)])
  | .noticed (.serverError text) => some (.object [("server_error", .ofText? text)])
  | .sent message => some message
  | _ => none

/-! ## Workspaces -/

def Workspace.toValue (w : Workspace) : Value :=
  .object [("uri", .str w.uri), ("name", .str w.name), ("state", .str w.state.text),
    ("ready", .bool w.isReady), ("mirror", .ofOption (fun (m : Mirror) => m.path.toValue) w.mirror),
    ("init", .nat w.initializations), ("latest", .nat w.scheduler.latest),
    ("accepted", .nat w.scheduler.accepted),
    ("in_flight", .ofOption CompileRequest.generationValue w.scheduler.inFlight),
    ("published", .texts (Removal.sorted w.published))]

namespace ServerState

/-- The registered workspaces in the order of their registration. -/
def workspacesValue (s : ServerState) : Value :=
  .list (s.registeredWorkspaces.map fun w => w.2.toValue)

/-- What was written to the mirror that a workspace has. -/
def entriesOf (s : ServerState) (id : Option WorkspaceId) : List MirrorEntry :=
  let mirror := (id.bind fun id => s.workspaces[id]?).bind (·.mirror)
  ((mirror.bind fun m => s.indexes.get? m.path).getD {}).values

/-- The state that a URI is in, whether a workspace is registered under it, and how many are registered. -/
def stateValue (s : ServerState) (uri : String) : Value :=
  .object [("state", .str (s.lifecycleOf uri).text), ("known", .bool (s.registered.contains uri)),
    ("count", .nat s.registered.size)]

/-- What the server was set up with, and what it knows of its client. -/
def setupValue (s : ServerState) (socket : Int) : Value :=
  .object [("capabilities", s.client.capabilities.toValue),
    ("executable", .ofOption id s.compiler.executable), ("launcher", .texts s.compiler.launcher),
    ("timeout", .ofOption Seconds.toValue s.compiler.timeout),
    ("extensions", .texts s.policy.extensions), ("temp_root", s.policy.tempRoot.toValue),
    ("port", .int socket)]

end ServerState

end InkServer
