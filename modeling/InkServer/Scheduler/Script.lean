import InkServer.Scheduler.Run
import InkServer.Task.Session

/-!
# A scheduler on its own

Invocations that do nothing but follow a script: they may wait at a gate and then end in a given way. With
them a scheduler can be watched without a compiler, a mirror or a client.
-/

namespace InkServer.Scheduler

/-- How a scripted invocation ends. -/
inductive Ending where
  /-- It yields a value, or its usual text. -/
  | yields (result : Option Value)
  /-- The compiler fails. -/
  | fails (text : String) (expired : Bool)
  /-- Something else goes wrong. -/
  | breaks (text : String)

/-- What a scripted invocation does: it may wait at a gate, then it ends; and its delivery may fail. -/
structure Script where
  held : Bool := false
  ending : Ending := .yields none
  deliveryFailure : Option String := none

/-- What there is to be seen of a scheduler. -/
inductive Event where
  | invoked (request : CompileRequest)
  | delivered (outcome : CompileOutcome Value)

/-- A scheduler and what was seen of it. -/
structure Bench where
  scheduler : Scheduler
  events : List Event := []

namespace Bench

/-- What is asked of a scheduler that takes time. -/
inductive Operation where
  | submit (script : Script)
  /-- Runs the request of a generation, by default of the workspace of the scheduler. -/
  | run (workspace : Option String) (generation : Int) (script : Script)

/-- A request that waits, and the script of its invocation, which waits at its gate. -/
structure Waiting where
  script : Script
  run : Run CompileRequest

abbrev BenchAct := Act Bench Operation

def note (e : Event) : BenchAct Unit :=
  Act.modifyState fun b => { b with events := b.events ++ [e] }

/-- Takes the events that happened since they were taken the last time. -/
def takeEvents : BenchAct (List Event) := do
  let b ← Act.state
  Act.setState { b with events := [] }
  pure b.events

/-- The gate of the invocation of a request. -/
def gate (r : CompileRequest) : String := toString r.generation

/-- The end of a scripted invocation. -/
def finish (script : Script) (r : CompileRequest) : BenchAct (Step CompileRequest Value) :=
  match script.ending with
  | .fails text expired => pure (.fail (.compiler (.failed text expired)))
  | .breaks text => pure (.fail (.runtime text))
  | .yields (some v) => pure (.done v)
  | .yields none => pure (.done (.str s!"output of {r.generation}"))

/-- The invocations of a script. -/
def invocations (script : Script) : Invocations Bench Operation CompileRequest Value Unit where
  get b := b.scheduler
  set scheduler b := { b with scheduler }
  invoke r := do
    note (.invoked r)
    if script.held then Act.waitAt (gate r) r else finish script r
  resume r signal :=
    match signal with
    | .cancelled => pure (.fail .cancelled)
    | _ => finish script r
  deliver outcome := do
    note (.delivered outcome)
    match script.deliveryFailure with
    | some text => pure (.error (.runtime text))
    | none => pure (.ok ())

/-- How scripted requests are run. -/
def machine : Machine Bench Operation Waiting (CompileOutcome Value) where
  start operation signal :=
    match signal, operation with
    | .cancelled, _ => pure (.fail .cancelled)
    | _, .submit script => ended script ((invocations script).submit)
    | _, .run workspace generation script => do
      let usual := (← Act.state).scheduler.workspace
      ended script ((invocations script).run ⟨workspace.getD usual, generation⟩)
  resume w signal := ended w.script ((invocations w.script).resumeRun w.run signal)
where
  ended (script : Script) (run : BenchAct (Step (Run CompileRequest) (Conclusion Value Unit))) :
      BenchAct (Step Waiting (CompileOutcome Value)) :=
    Act.andThen run (Waiting.mk script) fun c => pure (.done c.outcome)

end Bench

end InkServer.Scheduler
