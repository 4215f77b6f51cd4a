import InkServer.Scheduler.Run
import InkServer.Proofs.Task.Runs

/-!
# A scheduler under trial

A scheduler and any number of tasks that admit requests and run them. An invocation is any course of waits
whatever: each wait may end in any way, be it that the task is told to give up, and what comes next may
depend on how it ended. A delivery may fail. What is to be seen of the scheduler is kept in the order in
which it happened.
-/

namespace InkServer.Scheduler

/-- What an invocation does: it ends, or it waits and goes on with how the wait ended. -/
inductive Course (α : Type) where
  | ends (result : Except Failure α)
  | waits (next : Signal → Course α)

/-- What is invoked for a request, and what its delivery comes to. -/
structure Trial (α : Type) where
  course : Course α
  delivery : CompileOutcome α → Except Failure Unit

/-- What there is to be seen of a scheduler. -/
inductive Sight where
  /-- A task asks for a request to be run. -/
  | asked (task : TaskId) (request : CompileRequest)
  /-- An invocation begins. -/
  | began (request : CompileRequest)
  /-- An invocation is over, however it ended. -/
  | over (request : CompileRequest)
  /-- The outcome of a request is handed over; the generation is the latest that was admitted by then. -/
  | delivered (request : CompileRequest) (latest : Nat)
  deriving DecidableEq

/-- A scheduler and what was seen of it. -/
structure Watch where
  scheduler : Scheduler
  seen : List Sight := []

namespace Watch

variable {α : Type}

/-- What a task is begun for. -/
inductive Task (α : Type) where
  /-- Runs a request that was admitted before. -/
  | run (request : CompileRequest) (trial : Trial α)
  /-- Admits a request and runs it. -/
  | submit (trial : Trial α)

/-- A request that waits; an invocation that waits is the request and what comes after the wait. -/
structure Waiting (α : Type) where
  trial : Trial α
  run : Run (CompileRequest × (Signal → Course α))

abbrev WatchAct (α : Type) := Act Watch (Task α)

def note (e : Sight) : WatchAct α Unit :=
  Act.modifyState fun w => { w with seen := w.seen ++ [e] }

/-- Follows an invocation up to its next wait. -/
def follow (request : CompileRequest) :
    Course α → WatchAct α (Step (CompileRequest × (Signal → Course α)) α)
  | .waits next => Act.waitAt "invocation" (request, next)
  | .ends result => do
    note (.over request)
    pure (.ends result)

/-- The invocations of a trial. -/
def invocations (trial : Trial α) :
    Invocations Watch (Task α) (CompileRequest × (Signal → Course α)) α Unit where
  get w := w.scheduler
  set scheduler w := { w with scheduler }
  invoke request := do
    note (.began request)
    follow request trial.course
  resume state signal := follow state.1 (state.2 signal)
  deliver outcome := do
    note (.delivered outcome.request (← Act.state).scheduler.latest)
    pure (trial.delivery outcome)

/-- A task runs a request. -/
def ask (trial : Trial α) (request : CompileRequest) :
    WatchAct α (Step (Run (CompileRequest × (Signal → Course α))) (Conclusion α Unit)) := do
  note (.asked (← Act.self) request)
  (invocations trial).run request

/-- How requests are tried. -/
def machine : Machine Watch (Task α) (Waiting α) (Conclusion α Unit) where
  start task signal :=
    match signal, task with
    | .cancelled, _ => pure (.fail .cancelled)
    | _, .run request trial => tried trial (ask trial request)
    | _, .submit trial => tried trial do ask trial (← (invocations trial).issue)
  resume w signal := tried w.trial ((invocations w.trial).resumeRun w.run signal)
where
  tried (trial : Trial α) (run : WatchAct α (Step (Run (CompileRequest × (Signal → Course α)))
      (Conclusion α Unit))) : WatchAct α (Step (Waiting α) (Conclusion α Unit)) :=
    Act.afterwards run (Waiting.mk trial) fun r => pure (.ends r)

/-- What may be done from outside: a request is admitted, or a task begins, which runs a request that was
admitted or admits one itself. -/
inductive Outside (α : Type) where
  | admission
  | run (generation : Nat) (trial : Trial α)
  | submit (trial : Trial α)

def outside : Outside α → WatchAct α Unit
  | .admission => Act.modifyState fun w => { w with scheduler := w.scheduler.issue.2 }
  | .run generation trial => do
    let scheduler := (← Act.state).scheduler
    if 0 < generation ∧ generation ≤ scheduler.latest then
      discard (Act.create (.run ⟨scheduler.workspace, generation⟩ trial))
  | .submit trial => discard (Act.create (.submit trial))

end Watch

/-- A scheduler and the tasks that use it. -/
abbrev Trials (α : Type) :=
  Session Watch (Watch.Task α) (Watch.Waiting α) (Conclusion α Unit)

namespace Trials

variable {α : Type}

/-- A new scheduler, which nobody has used. -/
def fresh (workspace : String) : Trials α := Session.ofState { scheduler := { workspace } }

/-- A scheduler after some moves of those who use it. -/
def run (workspace : String) (moves : List (Session.Move (Watch.Outside α))) :
    Trials α :=
  (fresh workspace).after Watch.machine Watch.outside moves

end Trials

end InkServer.Scheduler
