import InkServer.Scheduler

/-!
# Running requests

A request waits until all earlier ones are over, is then invoked unless it has been superseded, and its
outcome is delivered, if it is accepted, before the next request may run.
-/

namespace InkServer.Scheduler

/-- Where a request that runs waits: in line behind earlier ones, or inside the invocation. -/
inductive Run (ι : Type) where
  | queued (request : CompileRequest)
  | invoking (request : CompileRequest) (state : ι)

/-- How the outcome of a request came about, and what its delivery returned if it was delivered. -/
structure Conclusion (α δ : Type) where
  outcome : CompileOutcome α
  delivered : Option δ := none

/-- What requests of a scheduler are made of: where the scheduler is kept, how a request is invoked, and
what is done with an accepted outcome. -/
structure Invocations (σ ω ι α δ : Type) where
  get : σ → Scheduler
  set : Scheduler → σ → σ
  invoke : CompileRequest → Act σ ω (Step ι α)
  resume : ι → Signal → Act σ ω (Step ι α)
  deliver : CompileOutcome α → Act σ ω (Except Failure δ)

namespace Invocations

variable {σ ω ι α δ : Type} (env : Invocations σ ω ι α δ)

def scheduler : Act σ ω Scheduler := return env.get (← Act.state)

def update (f : Scheduler → Scheduler) : Act σ ω Unit :=
  Act.modifyState fun s => env.set (f (env.get s)) s

/-- Where the lock is kept that requests take turns with. -/
def lockPlace : Act.LockPlace σ where
  get s := (env.get s).lock
  set lock s := env.set { env.get s with lock } s

/-- Issues a new request. -/
def issue : Act σ ω CompileRequest := do
  let (request, s) := (← env.scheduler).issue
  env.update fun _ => s
  pure request

/-- Decides whether the result of a request passes. -/
def accept (request : CompileRequest) : Act σ ω Bool := do
  let (passes, s) := (← env.scheduler).accept request
  env.update fun _ => s
  pure passes

/-- Ends a request with an outcome, which is delivered first if it is accepted. -/
def conclude (outcome : CompileOutcome α) : Act σ ω (Step (Run ι) (Conclusion α δ)) := do
  if outcome.accepted then
    match ← env.deliver outcome with
    | .ok delivered =>
      Act.unlock env.lockPlace
      pure (.done ⟨outcome, some delivered⟩)
    | .error f =>
      Act.unlock env.lockPlace
      pure (.fail f)
  else
    Act.unlock env.lockPlace
    pure (.done ⟨outcome, none⟩)

/-- Goes on after the invocation: a compiler that fails makes an outcome too, any other failure ends the
request. -/
def afterInvocation (request : CompileRequest) (r : Except Failure α) :
    Act σ ω (Step (Run ι) (Conclusion α δ)) := do
  env.update fun s => { s with inFlight := none }
  match r with
  | .ok result =>
    let accepted ← env.accept request
    env.conclude { request, accepted, result := some result }
  | .error (.compiler e) =>
    let accepted ← env.accept request
    env.conclude { request, accepted, error := some e }
  | .error f =>
    Act.unlock env.lockPlace
    pure (.fail f)

/-- The turn of a request has come. -/
def takeTurn (request : CompileRequest) : Act σ ω (Step (Run ι) (Conclusion α δ)) := do
  if (← env.scheduler).isCurrent request then
    env.update fun s => { s with inFlight := some request }
    Act.afterwards (env.invoke request) (.invoking request) (env.afterInvocation request)
  else env.conclude { request, accepted := false, skipped := true }

/-- Runs an admitted request once every earlier one is over. -/
def run (request : CompileRequest) : Act σ ω (Step (Run ι) (Conclusion α δ)) :=
  Act.acquire env.lockPlace (.queued request) (env.takeTurn request)

/-- Admits a request and runs it. -/
def submit : Act σ ω (Step (Run ι) (Conclusion α δ)) := do
  env.run (← env.issue)

/-- Goes on with a request after a wait. -/
def resumeRun (state : Run ι) (signal : Signal) : Act σ ω (Step (Run ι) (Conclusion α δ)) :=
  match state with
  | .queued request =>
    match signal with
    | .cancelled => do
      Act.abandon env.lockPlace
      pure (.fail .cancelled)
    | _ => env.takeTurn request
  | .invoking request state =>
    Act.afterwards (env.resume state signal) (.invoking request) (env.afterInvocation request)

end Invocations

end InkServer.Scheduler
