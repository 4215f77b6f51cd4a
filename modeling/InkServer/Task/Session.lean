import InkServer.Task

/-!
# Running tasks

A machine says how operations begin and how they go on after a wait. A session is the tasks that such a
machine runs: `turn` runs the next task that is ready up to its next wait, and `settle` does so until every
task waits.
-/

namespace InkServer

/-- How operations `ω`, which wait in states `τ` and end in results `ρ`, are run over a state `σ`. An
operation may be cancelled before it begins. -/
structure Machine (σ ω τ ρ : Type) where
  start : ω → Signal → Act σ ω (Step τ ρ)
  resume : τ → Signal → Act σ ω (Step τ ρ)

/-- A task that has not ended: it has not begun, or it waits. -/
inductive Suspended (ω τ : Type) where
  | created (operation : ω)
  | waiting (state : τ)

/-- The tasks over a state: those that have not ended, and the results of those that have. -/
structure Session (σ ω τ ρ : Type) where
  loop : Loop σ ω
  tasks : List (TaskId × Suspended ω τ) := []
  ended : List (TaskId × Except Failure ρ) := []

namespace Session

variable {σ ω τ ρ α : Type}

def ofState (s : σ) : Session σ ω τ ρ := { loop := { state := s } }

def state (s : Session σ ω τ ρ) : σ := s.loop.state

def task? (s : Session σ ω τ ρ) (task : TaskId) : Option (Suspended ω τ) :=
  (s.tasks.find? fun t => t.1 = task).map Prod.snd

def result? (s : Session σ ω τ ρ) (task : TaskId) : Option (Except Failure ρ) :=
  (s.ended.find? fun t => t.1 = task).map Prod.snd

def isPending (s : Session σ ω τ ρ) (task : TaskId) : Bool := (s.task? task).isSome

/-- Takes up the tasks that were created. -/
def adopt (s : Session σ ω τ ρ) : Session σ ω τ ρ :=
  { s with
    tasks := s.tasks ++ s.loop.created.map fun (task, operation) => (task, .created operation)
    loop := { s.loop with created := [] } }

/-- Does something that needs no task. -/
def act (s : Session σ ω τ ρ) (a : Act σ ω α) : α × Session σ ω τ ρ :=
  let (r, loop) := a.run s.loop
  (r, adopt { s with loop })

/-- Creates a task. -/
def launch (s : Session σ ω τ ρ) (operation : ω) : TaskId × Session σ ω τ ρ :=
  s.act (Act.create operation)

/-- Files what a task came to. -/
def file (s : Session σ ω τ ρ) (task : TaskId) : Step τ ρ → Session σ ω τ ρ
  | .waits state => { s with tasks := s.tasks ++ [(task, .waiting state)] }
  | .ends result =>
    let failure := match result with
      | .ok _ => none
      | .error f => some f
    let ((), s) := s.act (Act.noteEnd task failure)
    { s with ended := s.ended ++ [(task, result)] }

/-- Runs a task up to its next wait. -/
def run (m : Machine σ ω τ ρ) (s : Session σ ω τ ρ) (task : TaskId) (signal : Signal) :
    Session σ ω τ ρ :=
  match s.task? task with
  | none => s
  | some suspended =>
    let s := { s with
      tasks := s.tasks.filter fun t => t.1 ≠ task
      loop := { s.loop with current := task } }
    let (step, s) := s.act (
      match suspended with
      | .created operation => m.start operation signal
      | .waiting state => m.resume state signal)
    s.file task step

/-- One turn: the first task that is ready runs, or lets the others go first; `none` if no task is
ready. -/
def turn (m : Machine σ ω τ ρ) (s : Session σ ω τ ρ) : Option (Session σ ω τ ρ) :=
  match s.loop.ready with
  | [] => none
  | w :: rest =>
    match w.turns with
    | 0 => some (({ s with loop := { s.loop with ready := rest } }).run m w.task w.signal)
    | n + 1 => some { s with loop := { s.loop with ready := rest ++ [⟨w.task, w.signal, n⟩] } }

/-- Takes turns until no task is ready, or until the turns are used up. -/
def settle (m : Machine σ ω τ ρ) : Nat → Session σ ω τ ρ → Session σ ω τ ρ
  | 0, s => s
  | turns + 1, s =>
    match s.turn m with
    | none => s
    | some s => settle m turns s

/-- More turns than the tasks of a session take between two events from outside. -/
def enough : Nat := 1000000

end Session

end InkServer
