import InkServer.Workspace.Removal

/-!
# Delivering reports

The report of an accepted compile becomes the diagnostics of the workspace, in place of those that were
published before: documents that no longer have any get an empty list.
-/

namespace InkServer

open ServerAct

namespace Delivery

/-- Publishes the diagnostics of a workspace in place of the earlier ones. -/
def replace (id : WorkspaceId) (diagnostics : List AddressedDiagnostic) : ServerAct Unit := do
  let groups := groupByUri diagnostics
  let earlier := ((← workspace? id).map (·.published)).getD []
  Removal.clearAll (earlier.filter fun uri => !groups.contains uri)
  groups.entries.forM fun (uri, items) => publish uri items
  updateWorkspace id fun w => { w with published := groups.keys }

/-- The diagnostics of a report. One without findings after a failure is told to the user and stands for
one diagnostic. -/
def diagnosticsOf (root : Path) (report : CompilerReport) :
    ServerAct (Except Failure (List AddressedDiagnostic)) := do
  let documents := (← Act.state).documents
  match report.diagnostics documents.uriForPath root with
  | .ok ds => pure (.ok ds)
  | .error (.unrecognized u) =>
    tell (.warning ("inklecate returned an unexpected report: " ++ u.message))
    match u.toDiagnostic documents.uriForPath root report.entry with
    | .ok d => pure (.ok [d])
    | .error e => pure (.error (.report e))
  | .error e => pure (.error (.report e))

/-- Delivers an accepted outcome; the result is the number of diagnostics. Nothing is published for a
workspace that was removed. -/
def deliver (id : WorkspaceId) (outcome : CompileOutcome CompilerReport) :
    ServerAct (Except Failure Nat) :=
  withWorkspace id (pure (.ok 0)) fun w =>
    if w.state = .removed then pure (.ok 0)
    else
      match outcome.error, outcome.result with
      | some e, _ => do
        tell (.serverError (some e.message))
        pure (.ok 0)
      | none, none => pure (.ok 0)
      | none, some report => do
        note (.reported id outcome.request report)
        match ← diagnosticsOf w.root report with
        | .error f => pure (.error f)
        | .ok ds =>
          replace id ds
          note (.delivered id outcome.request ds.length)
          pure (.ok ds.length)

end Delivery

end InkServer
