import InkServer.Task

/-!
# Locks

A lock is held by one task at a time; the others wait in line. Who releases it hands it to the first in
line, so that the order of arrival is the order of holding.
-/

namespace InkServer

/-- Who holds a lock and who waits for it, the first to arrive first. -/
structure Lock where
  holder : Option TaskId := none
  line : List TaskId := []
  deriving DecidableEq, Repr, Inhabited

namespace Lock

/-- Takes a free lock or stands in line; says whether the lock was free. -/
def request (l : Lock) (task : TaskId) : Lock × Bool :=
  match l.holder with
  | none => ({ l with holder := some task }, true)
  | some _ => ({ l with line := l.line ++ [task] }, false)

/-- Hands the lock to the first in line; says who that is. -/
def release (l : Lock) : Lock × Option TaskId :=
  match l.line with
  | [] => (⟨none, []⟩, none)
  | task :: rest => (⟨some task, rest⟩, some task)

/-- Leaves the line. Who had been handed the lock already hands it on; says to whom. -/
def leave (l : Lock) (task : TaskId) : Lock × Option TaskId :=
  if l.holder = some task then l.release
  else ({ l with line := l.line.filter (· ≠ task) }, none)

end Lock

namespace Act

variable {σ ω τ α : Type}

/-- Where a lock is kept in the state. -/
structure LockPlace (σ : Type) where
  get : σ → Lock
  set : Lock → σ → σ

/-- Goes on with the lock, at once if it is free. -/
def acquire (place : LockPlace σ) (waiting : τ) (next : Act σ ω (Step τ α)) : Act σ ω (Step τ α) := do
  let task ← self
  let (lock, free) := (place.get (← state)).request task
  modifyState (place.set lock)
  if free then next else pure (.waits waiting)

/-- Wakes the task that a lock was handed to. -/
def wakeHolder (task? : Option TaskId) : Act σ ω Unit :=
  match task? with
  | some task => wake task .go 0
  | none => pure ()

/-- Gives the lock back. -/
def unlock (place : LockPlace σ) : Act σ ω Unit := do
  let (lock, next?) := (place.get (← state)).release
  modifyState (place.set lock)
  wakeHolder next?

/-- Stops waiting for the lock. -/
def abandon (place : LockPlace σ) : Act σ ω Unit := do
  let task ← self
  let (lock, next?) := (place.get (← state)).leave task
  modifyState (place.set lock)
  wakeHolder next?

end Act

end InkServer
