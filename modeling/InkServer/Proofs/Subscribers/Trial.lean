import InkServer.Proofs.Task.Runs
import InkServer.Subscribers

/-!
# Subscribers under trial

Any number of tasks that hand out events, to handlers that do whatever they like: a handler may have a method or
not, may wait as often as it likes, fail at any point, register, take out or clear handlers, itself among them, and
begin to hand out other events. What it does next may depend on everything that was seen so far and on how its
waits end. What was done to the handlers and which of them were called is kept in the order in which it happened.
-/

namespace InkServer.Subscribers

variable {π : Type}

/-- Something that handlers are told: what is asked of them, and about what. -/
structure News (π : Type) where
  method : String
  params : π
  deriving DecidableEq

/-- A failure that a handler may raise: any but that of a task that is to give up. -/
abbrev Trouble := { f : Failure // f ≠ .cancelled }

/-- What may be done to the subscribers. -/
inductive Deed where
  | registers (handler : String)
  | unregisters (handler : String)
  | clears
  deriving DecidableEq

def Deed.apply (c : Subscribers) : Deed → Subscribers
  | .registers handler => c.register handler
  | .unregisters handler => (c.unregister handler).2
  | .clears => c.clear

/-- What there is to be seen of subscribers. -/
inductive Sight (π : Type) where
  /-- A task begins to hand out an event. -/
  | began (task : TaskId) (news : News π)
  | called (task : TaskId) (handler : String) (news : News π)
  | did (deed : Deed)
  deriving DecidableEq

/-- Subscribers and what was seen of them. -/
structure Watch (π : Type) where
  subscribers : Subscribers := {}
  seen : List (Sight π) := []

def Watch.note (e : Sight π) (w : Watch π) : Watch π := { w with seen := w.seen ++ [e] }

def Watch.change (deed : Deed) (w : Watch π) : Watch π :=
  { subscribers := deed.apply w.subscribers, seen := w.seen ++ [.did deed] }

/-- What a method of a handler does when it is called. -/
inductive Course (π : Type) where
  | returns
  | raises (trouble : Trouble)
  | waits (next : Signal → Course π)
  | does (deed : Deed) (next : Course π)
  /-- It begins to hand out another event. -/
  | tells (news : News π) (next : Course π)
  /-- It looks at what was seen so far. -/
  | looks (next : Watch π → Course π)

/-- The methods of the handlers, by the names of handler and method. -/
abbrev Methods (π : Type) := String → String → Option (π → Course π)

namespace Watch

abbrev WatchAct (π : Type) := Act (Watch π) (News π)

/-- Follows a handler up to its next wait. -/
def follow : Course π → WatchAct π (Step (Signal → Course π) Unit)
  | .returns => pure (.done ())
  | .raises trouble => pure (.fail trouble.1)
  | .waits next => Act.waitAt "handler" next
  | .does deed next => do
    Act.modifyState (change deed)
    follow next
  | .tells news next => do
    discard (Act.create news)
    follow next
  | .looks next => do follow (next (← Act.state))

/-- Calls of handlers on trial. -/
def handlers (methods : Methods π) : Handlers (Watch π) (News π) (Signal → Course π) π where
  get w := w.subscribers
  call handler method params :=
    match methods handler method with
    | none => pure none
    | some course => do
      Act.modifyState (note (.called (← Act.self) handler ⟨method, params⟩))
      return some (← follow (course params))
  resume next signal :=
    match signal with
    | .cancelled => pure (.fail .cancelled)
    | signal => follow (next signal)

/-- How events are handed out on trial. -/
def machine (methods : Methods π) :
    Machine (Watch π) (News π) (Distribution (Signal → Course π) π) Unit where
  start news signal :=
    match signal with
    | .cancelled => pure (.fail .cancelled)
    | _ => do
      Act.modifyState (note (.began (← Act.self) news))
      (handlers methods).distribute news.method news.params
  resume := (handlers methods).resumeDistribution

/-- What may be done from outside: something to the subscribers, or another event begins to be handed out. -/
inductive Outside (π : Type) where
  | deed (deed : Deed)
  | news (news : News π)

def outside : Outside π → WatchAct π Unit
  | .deed deed => Act.modifyState (change deed)
  | .news news => discard (Act.create news)

end Watch

/-- Subscribers and the tasks that hand out events to them. -/
abbrev Trials (π : Type) := Session (Watch π) (News π) (Distribution (Signal → Course π) π) Unit

/-- Subscribers, nobody at first, after some moves of those who use them. -/
def Trials.run (methods : Methods π) (moves : List (Session.Move (Watch.Outside π))) : Trials π :=
  (Session.ofState {}).after (Watch.machine methods) Watch.outside moves

end InkServer.Subscribers
