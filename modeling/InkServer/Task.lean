import InkServer.Failure

/-!
# Tasks

Operations of the server run side by side, and each may have to wait: for a lock, for work on files, for
the compiler or for the client. An operation is written as what it does up to its next wait; the state it
waits in is a plain value, so that what a waiting operation still has to do can be read off it. Between
two waits nothing else runs.

`Loop` holds what the tasks share: the state of the server, the tasks that are to run next, in order, and
the gates at which work is kept waiting.
-/

namespace InkServer

abbrev TaskId := Nat

/-- How a wait ends. -/
inductive Signal where
  /-- What the task waited for has come. -/
  | go
  /-- The task is to give up. -/
  | cancelled
  /-- The time that the task had is over. -/
  | timedOut
  /-- What the task waited for has failed. -/
  | failed (failure : Failure)

/-- A task that is to run again, and the number of turns that it still lets others go first. -/
structure Wake where
  task : TaskId
  signal : Signal
  turns : Nat := 0

/-- A task that waits for others to end. -/
structure Gathering where
  parent : TaskId
  /-- Those that have not ended. -/
  children : List TaskId
  /-- Whether the parent has been woken. -/
  isOver : Bool := false
  deriving Repr

/-- What all tasks share: a state `σ`, and the running of operations `ω`. -/
structure Loop (σ ω : Type) where
  state : σ
  /-- The task that runs. -/
  current : TaskId := 0
  /-- The task that is created next. -/
  nextTask : TaskId := 0
  /-- Tasks that are to run, in this order. -/
  ready : List Wake := []
  /-- Tasks that were created and have not begun. -/
  created : List (TaskId × ω) := []
  gatherings : List Gathering := []
  /-- Gates that are closed. -/
  closed : List String := []
  /-- Who waits at which gate, the first to arrive first. -/
  atGates : List (String × TaskId) := []

/-- What a task does without waiting. -/
abbrev Act (σ ω : Type) := StateM (Loop σ ω)

/-- How far an operation got: it waits in a state, or it has ended. -/
inductive Step (τ α : Type) where
  | waits (state : τ)
  | ends (result : Except Failure α)

namespace Step

variable {τ υ α : Type}

def done (a : α) : Step τ α := .ends (.ok a)

def fail (f : Failure) : Step τ α := .ends (.error f)

/-- The same wait as part of a longer operation. -/
def within (wrap : τ → υ) : Step τ α → Step υ α
  | .waits s => .waits (wrap s)
  | .ends r => .ends r

end Step

namespace Act

variable {σ ω τ υ α β : Type}

/-! ## The state -/

def state : Act σ ω σ := return (← get).state

def setState (s : σ) : Act σ ω Unit := modify fun l => { l with state := s }

def modifyState (f : σ → σ) : Act σ ω Unit := modify fun l => { l with state := f l.state }

/-- Changes what the tasks share. -/
def modifyLoop (f : Loop σ ω → Loop σ ω) : Act σ ω Unit := modify f

/-- The task that runs. -/
def self : Act σ ω TaskId := return (← get).current

/-! ## Waking and creating tasks -/

/-- Has a task run again after those that are to run already; `turns` more rounds go first. -/
def wake (task : TaskId) (signal : Signal) (turns : Nat) : Act σ ω Unit :=
  modify fun l => { l with ready := l.ready ++ [⟨task, signal, turns⟩] }

/-- Creates a task, which begins after those that are to run already. -/
def create (operation : ω) : Act σ ω TaskId :=
  modifyGet fun l =>
    (l.nextTask,
      { l with
        nextTask := l.nextTask + 1
        created := l.created ++ [(l.nextTask, operation)]
        ready := l.ready ++ [⟨l.nextTask, .go, 0⟩] })

/-- Makes a wake-up of a task that is on its way one that tells it to give up. -/
def giveUp (ready : List Wake) (task : TaskId) : List Wake :=
  ready.filter (fun w => w.task ≠ task) ++ [⟨task, .cancelled, 0⟩]

/-- Tells a task to give up. One that waits for others passes it on to them, and hears of it when the
first of them has given up. -/
def cancel (task : TaskId) : Act σ ω Unit :=
  modify fun l =>
    let tasks := match l.gatherings.find? fun g => g.parent = task && !g.isOver with
      | some g => g.children
      | none => [task]
    { l with
      ready := tasks.foldl giveUp l.ready
      atGates := l.atGates.filter fun w => !tasks.contains w.2 }

/-! ## Gates -/

def isClosed (gate : String) : Act σ ω Bool := return (← get).closed.contains gate

/-- Waits at a gate until it lets the task through. -/
def waitAt (gate : String) (state : τ) : Act σ ω (Step τ α) := do
  modify fun l => { l with atGates := l.atGates ++ [(gate, l.current)] }
  pure (.waits state)

/-- Goes on behind a gate, at once if it is open. -/
def through (gate : String) (waiting : τ) (next : Act σ ω (Step τ α)) : Act σ ω (Step τ α) := do
  if ← isClosed gate then waitAt gate waiting else next

def close (gate : String) : Act σ ω Unit :=
  modify fun l => { l with closed := if l.closed.contains gate then l.closed else l.closed ++ [gate] }

def open_ (gate : String) : Act σ ω Unit :=
  modify fun l => { l with closed := l.closed.filter (· ≠ gate) }

/-- Lets the task through that has waited longest at a gate; says whether there was one. -/
def release (gate : String) : Act σ ω Bool := do
  match (← get).atGates.find? fun w => w.1 = gate with
  | none => pure false
  | some (_, task) =>
    modify fun l => { l with atGates := l.atGates.filter fun w => w.2 ≠ task }
    wake task .go 0
    pure true

/-! ## Waiting for other tasks -/

/-- Runs operations side by side and waits for all of them; with none there is nothing to wait for. -/
def gather (operations : List ω) (waiting : τ) (next : Act σ ω (Step τ α)) : Act σ ω (Step τ α) := do
  let children ← operations.mapM create
  if children.isEmpty then next
  else
    modify fun l => { l with gatherings := l.gatherings ++ [⟨l.current, children, false⟩] }
    pure (.waits waiting)

/-- Notes in a gathering that one of its tasks has ended, and says whether the parent is to be woken. -/
def Gathering.noteEnd (g : Gathering) (child : TaskId) (failure : Option Failure) :
    Gathering × Option Signal :=
  if child ∈ g.children then
    let children := g.children.filter (· ≠ child)
    match failure with
    | some f => if g.isOver then ({ g with children }, none) else (⟨g.parent, children, true⟩, some (.failed f))
    | none =>
      if children.isEmpty && !g.isOver then (⟨g.parent, children, true⟩, some .go)
      else ({ g with children }, none)
  else (g, none)

/-- Tells those that wait for a task that it has ended. The first failure among the tasks of a gathering
ends the wait of their parent. -/
def noteEnd (child : TaskId) (failure : Option Failure) : Act σ ω Unit :=
  modify fun l =>
    let told := l.gatherings.map fun g => (Gathering.noteEnd g child failure, g.parent)
    { l with
      gatherings := (told.map fun t => t.1.1).filter fun g => !g.children.isEmpty
      ready := l.ready ++ told.filterMap fun ((_, signal?), parent) =>
        signal?.map fun signal => ⟨parent, signal, 1⟩ }

/-! ## Operations made of operations -/

/-- Runs a part of an operation and goes on with its result, whether it succeeds or fails. -/
def afterwards (part : Act σ ω (Step τ α)) (wrap : τ → υ)
    (next : Except Failure α → Act σ ω (Step υ β)) : Act σ ω (Step υ β) := do
  match ← part with
  | .waits s => pure (.waits (wrap s))
  | .ends r => next r

/-- Runs a part of an operation and goes on if it succeeds. -/
def andThen (part : Act σ ω (Step τ α)) (wrap : τ → υ) (next : α → Act σ ω (Step υ β)) :
    Act σ ω (Step υ β) :=
  afterwards part wrap fun r =>
    match r with
    | .ok a => next a
    | .error f => pure (.fail f)

end Act

end InkServer
