import InkServer.Task.Session

/-!
# Tasks from outside

From outside, tasks can be begun and cancelled, and gates can be closed and opened. `History` carries out
such commands one after the other: each is followed until the tasks rest, and what began with an earlier
command and ended meanwhile is told.
-/

namespace InkServer

namespace Session

variable {σ ω τ ρ : Type}

/-- Closes a gate. -/
def hold (s : Session σ ω τ ρ) (gate : String) : Session σ ω τ ρ := (s.act (Act.close gate)).2

/-- Lets the task through that has waited longest at a gate; says whether there was one. -/
def releaseOne (s : Session σ ω τ ρ) (gate : String) : Bool × Session σ ω τ ρ :=
  s.act (Act.release gate)

/-- Lets all tasks through that wait at a gate, one after the other; says how many there were. Between two
of them all tasks come to rest. -/
def releaseAll (rest : Session σ ω τ ρ → Session σ ω τ ρ) (gate : String) (count : Nat) :
    Nat → Session σ ω τ ρ → Nat × Session σ ω τ ρ
  | 0, s => (count, s)
  | most + 1, s =>
    match s.releaseOne gate with
    | (true, s) => releaseAll rest gate (count + 1) most (rest s)
    | (false, s) => (count, s)

/-- Opens a gate and lets everybody through who waits there. -/
def unhold (rest : Session σ ω τ ρ → Session σ ω τ ρ) (gate : String) (s : Session σ ω τ ρ) :
    Nat × Session σ ω τ ρ :=
  releaseAll rest gate 0 enough (s.act (Act.open_ gate)).2

/-- Tells a task to give up; says whether it had not ended. -/
def cancel (s : Session σ ω τ ρ) (task : TaskId) : Bool × Session σ ω τ ρ :=
  if s.isPending task then (true, (s.act (Act.cancel task)).2) else (false, s)

end Session

/-! ## Commands -/

/-- What can be asked for from outside: `answer` is at once, `start` begins a task. -/
inductive Command (σ ω α : Type) where
  | hold (gate : String)
  | release (gate : String)
  | unhold (gate : String)
  /-- Cancels the task that began with an earlier command. -/
  | cancel (number : Nat)
  | answer (act : Act σ ω α)
  | start (operation : ω)

/-- What a command comes to. -/
inductive Answer (ρ α : Type) where
  | nothing
  | truth (b : Bool)
  | count (n : Nat)
  | said (a : α)
  /-- The task has ended. -/
  | ended (result : Except Failure ρ)
  /-- The task still waits. -/
  | pending

/-- A session, how many commands it was given, and which of them began tasks that still wait. -/
structure History (σ ω τ ρ : Type) where
  session : Session σ ω τ ρ
  number : Nat := 0
  waiting : List (Nat × TaskId) := []

namespace History

variable {σ ω τ ρ α : Type}

/-- Carries out a command: what it comes to, and the task that it began if that task waits. -/
def carryOut (rest : Session σ ω τ ρ → Session σ ω τ ρ) (h : History σ ω τ ρ) :
    Command σ ω α → Answer ρ α × Option TaskId × Session σ ω τ ρ
  | .hold gate => (.nothing, none, h.session.hold gate)
  | .release gate =>
    let (released, s) := h.session.releaseOne gate
    (.truth released, none, rest s)
  | .unhold gate =>
    let (count, s) := h.session.unhold rest gate
    (.count count, none, s)
  | .cancel number =>
    match h.waiting.find? fun w => w.1 = number with
    | none => (.truth false, none, h.session)
    | some (_, task) =>
      let (running, s) := h.session.cancel task
      (.truth running, none, rest s)
  | .answer act =>
    let (a, s) := h.session.act act
    (.said a, none, rest s)
  | .start operation =>
    let (task, s) := h.session.launch operation
    let s := rest s
    match s.result? task with
    | some r => (.ended r, none, s)
    | none => (.pending, some task, s)

/-- What became of a command: what it came to, and the tasks of earlier commands that have ended since. -/
structure Account (ρ α : Type) where
  answer : Answer ρ α
  ended : List (Nat × Except Failure ρ)

/-- Carries out a command and tells what became of it. -/
def perform (rest : Session σ ω τ ρ → Session σ ω τ ρ) (h : History σ ω τ ρ) (c : Command σ ω α) :
    Account ρ α × History σ ω τ ρ :=
  let (answer, began, session) := h.carryOut rest c
  let ended := h.waiting.filterMap fun (n, task) => (session.result? task).map fun r => (n, r)
  let waiting := h.waiting.filter fun (_, task) => (session.result? task).isNone
  (⟨answer, ended⟩,
    { session
      number := h.number + 1
      waiting := waiting ++ (began.map fun task => (h.number, task)).toList })

end History

end InkServer
