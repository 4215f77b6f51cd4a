import InkServer.Subscribers
import InkServer.Task.Session

/-!
# Subscribers on their own

Handlers that follow a script: what each does when it is called is given beforehand. With them
the handing out of events can be watched without a server.
-/

namespace InkServer.Subscribers

/-- What a scripted handler does when it is called. -/
inductive Conduct where
  /-- It returns. -/
  | returns
  /-- It fails. -/
  | fails
  /-- It returns something to wait for, which ends at once. -/
  | finishes
  /-- It returns something to wait for, which fails at once. -/
  | breaks
  /-- It returns something to wait for, which ends behind a gate. -/
  | waits
  /-- It takes itself out of the handlers. -/
  | leaves
  /-- It takes all handlers out. -/
  | clears
  deriving DecidableEq, Repr

/-- What there is to be seen of handlers. -/
inductive Event where
  | called (handler method : String) (params : Value)
  | finished (handler method : String)

/-- Subscribers, the scripts of the handlers, and what was seen of them. A handler has no conduct for
what it cannot be called for. -/
structure Bench where
  subscribers : Subscribers := {}
  scripts : Dict String (Dict String Conduct)
  events : List Event := []

namespace Bench

/-- What is asked of subscribers that takes time. -/
inductive Operation where
  /-- Hands something to the handlers that have a method of some name. -/
  | distribute (method : String) (params : Value)
  /-- Hands an event of the server to the handlers, if the events are wired. -/
  | event (name : String) (params : Value)

/-- A handler that waits, and what it was called for. -/
structure Busy where
  handler : String
  method : String

abbrev BenchAct := Act Bench Operation

def note (e : Event) : BenchAct Unit :=
  Act.modifyState fun b => { b with events := b.events ++ [e] }

/-- Takes the events that happened since they were taken the last time. -/
def takeEvents : BenchAct (List Event) := do
  let b ← Act.state
  Act.setState { b with events := [] }
  pure b.events

def update (f : Subscribers → Subscribers) : BenchAct Unit :=
  Act.modifyState fun b => { b with subscribers := f b.subscribers }

def finish (handler method : String) : BenchAct (Step Busy Unit) := do
  note (.finished handler method)
  pure (.done ())

/-- What a handler does. -/
def behave (handler method : String) : Conduct → BenchAct (Step Busy Unit)
  | .returns => pure (.done ())
  | .fails => pure (.fail (.runtime method))
  | .finishes => finish handler method
  | .breaks => pure (.fail (.runtime method))
  | .waits => Act.waitAt handler ⟨handler, method⟩
  | .leaves => do
    update fun c => (c.unregister handler).2
    pure (.done ())
  | .clears => do
    update clear
    pure (.done ())

/-- Calls of scripted handlers. -/
def handlers : Handlers Bench Operation Busy Value where
  get b := b.subscribers
  call handler method params := do
    match ((← Act.state).scripts.get? handler).bind fun s => s.get? method with
    | none => pure none
    | some conduct =>
      note (.called handler method params)
      return some (← behave handler method conduct)
  resume busy signal :=
    match signal with
    | .cancelled => pure (.fail .cancelled)
    | _ => finish busy.handler busy.method

/-- How events are handed to scripted handlers. -/
def machine : Machine Bench Operation (Distribution Busy Value) Unit where
  start operation signal :=
    match signal, operation with
    | .cancelled, _ => pure (.fail .cancelled)
    | _, .distribute method params => handlers.distribute method params
    | _, .event name params => do
      match (← Act.state).subscribers.wiredMethod? name with
      | some method => handlers.distribute method params
      | none => pure (.fail (.key name))
  resume := handlers.resumeDistribution

end Bench

end InkServer.Subscribers
