import InkServer.Task.Session
import InkServer.Task.Lock

/-!
# What acts do

An act is a function of what the tasks share. `returns` is what it returns, `leaves` is what it leaves
behind; for every basic act both are told by a lemma, so that a longer act can be followed step by step
without looking into the monad.
-/

namespace InkServer.Act

variable {σ ω τ υ α β : Type}

/-- What an act returns. -/
def returns (a : Act σ ω α) (l : Loop σ ω) : α := (a.run l).1

/-- What an act makes of what the tasks share. -/
def leaves (a : Act σ ω α) (l : Loop σ ω) : Loop σ ω := (a.run l).2

theorem run_eq (a : Act σ ω α) (l : Loop σ ω) : a.run l = (a.returns l, a.leaves l) := rfl

/-! ## Sequences -/

@[simp] theorem returns_pure (a : α) (l : Loop σ ω) : (pure a : Act σ ω α).returns l = a := rfl

@[simp] theorem leaves_pure (a : α) (l : Loop σ ω) : (pure a : Act σ ω α).leaves l = l := rfl

@[simp] theorem returns_bind (a : Act σ ω α) (f : α → Act σ ω β) (l : Loop σ ω) :
    (a >>= f).returns l = (f (a.returns l)).returns (a.leaves l) := rfl

@[simp] theorem leaves_bind (a : Act σ ω α) (f : α → Act σ ω β) (l : Loop σ ω) :
    (a >>= f).leaves l = (f (a.returns l)).leaves (a.leaves l) := rfl

@[simp] theorem leaves_ite (c : Prop) [Decidable c] (a b : Act σ ω α) (l : Loop σ ω) :
    (if c then a else b).leaves l = if c then a.leaves l else b.leaves l := by
  split <;> rfl

@[simp] theorem returns_ite (c : Prop) [Decidable c] (a b : Act σ ω α) (l : Loop σ ω) :
    (if c then a else b).returns l = if c then a.returns l else b.returns l := by
  split <;> rfl

/-! ## The state -/

@[simp] theorem returns_state (l : Loop σ ω) : (state : Act σ ω σ).returns l = l.state := rfl

@[simp] theorem leaves_state (l : Loop σ ω) : (state : Act σ ω σ).leaves l = l := rfl

@[simp] theorem leaves_setState (s : σ) (l : Loop σ ω) :
    (setState s : Act σ ω Unit).leaves l = { l with state := s } := rfl

@[simp] theorem leaves_modifyState (f : σ → σ) (l : Loop σ ω) :
    (modifyState f : Act σ ω Unit).leaves l = { l with state := f l.state } := rfl

@[simp] theorem returns_self (l : Loop σ ω) : (self : Act σ ω TaskId).returns l = l.current := rfl

@[simp] theorem leaves_self (l : Loop σ ω) : (self : Act σ ω TaskId).leaves l = l := rfl

/-! ## Tasks and gates -/

@[simp] theorem leaves_wake (task : TaskId) (signal : Signal) (turns : Nat) (l : Loop σ ω) :
    (wake task signal turns : Act σ ω Unit).leaves l =
      { l with ready := l.ready ++ [⟨task, signal, turns⟩] } := rfl

@[simp] theorem returns_create (operation : ω) (l : Loop σ ω) :
    (create operation : Act σ ω TaskId).returns l = l.nextTask := rfl

@[simp] theorem leaves_create (operation : ω) (l : Loop σ ω) :
    (create operation : Act σ ω TaskId).leaves l =
      { l with
        nextTask := l.nextTask + 1
        created := l.created ++ [(l.nextTask, operation)]
        ready := l.ready ++ [⟨l.nextTask, .go, 0⟩] } := rfl

@[simp] theorem returns_isClosed (gate : String) (l : Loop σ ω) :
    (isClosed gate : Act σ ω Bool).returns l = l.closed.contains gate := rfl

@[simp] theorem leaves_isClosed (gate : String) (l : Loop σ ω) :
    (isClosed gate : Act σ ω Bool).leaves l = l := rfl

@[simp] theorem returns_waitAt (gate : String) (state : τ) (l : Loop σ ω) :
    (waitAt gate state : Act σ ω (Step τ α)).returns l = .waits state := rfl

@[simp] theorem leaves_waitAt (gate : String) (state : τ) (l : Loop σ ω) :
    (waitAt gate state : Act σ ω (Step τ α)).leaves l =
      { l with atGates := l.atGates ++ [(gate, l.current)] } := rfl

@[simp] theorem leaves_modify (f : Loop σ ω → Loop σ ω) (l : Loop σ ω) :
    (modify f : Act σ ω Unit).leaves l = f l := rfl

theorem leaves_modifyGet (f : Loop σ ω → α × Loop σ ω) (l : Loop σ ω) :
    (modifyGet f : Act σ ω α).leaves l = (f l).2 := rfl

@[simp] theorem leaves_cancel_state (task : TaskId) (l : Loop σ ω) :
    ((cancel task : Act σ ω Unit).leaves l).state = l.state := rfl

@[simp] theorem leaves_cancel_current (task : TaskId) (l : Loop σ ω) :
    ((cancel task : Act σ ω Unit).leaves l).current = l.current := rfl

@[simp] theorem leaves_noteEnd_state (task : TaskId) (f : Option Failure) (l : Loop σ ω) :
    ((noteEnd task f : Act σ ω Unit).leaves l).state = l.state := rfl

/-- Where nobody waits for others nobody is told that a task has ended. -/
theorem leaves_noteEnd_of_gatherings_eq_nil {l : Loop σ ω} (h : l.gatherings = []) (task : TaskId)
    (f : Option Failure) : (noteEnd task f : Act σ ω Unit).leaves l = l := by
  obtain ⟨state, current, nextTask, ready, created, gatherings, closed, atGates⟩ := l
  simp only at h
  subst h
  simp [noteEnd]

/-- Where nobody waits for others a task is cancelled alone. -/
theorem leaves_cancel_of_gatherings_eq_nil {l : Loop σ ω} (h : l.gatherings = []) (task : TaskId) :
    (cancel task : Act σ ω Unit).leaves l =
      { l with
        ready := giveUp l.ready task
        atGates := l.atGates.filter fun w => w.2 ≠ task } := by
  obtain ⟨state, current, nextTask, ready, created, gatherings, closed, atGates⟩ := l
  simp only at h
  subst h
  simp [cancel]

/-! ## Operations made of operations -/

theorem returns_through (gate : String) (waiting : τ) (next : Act σ ω (Step τ α)) (l : Loop σ ω) :
    (through gate waiting next).returns l =
      if l.closed.contains gate then .waits waiting else next.returns l := by
  simp [through]

theorem leaves_through (gate : String) (waiting : τ) (next : Act σ ω (Step τ α)) (l : Loop σ ω) :
    (through gate waiting next).leaves l =
      if l.closed.contains gate then { l with atGates := l.atGates ++ [(gate, l.current)] }
      else next.leaves l := by
  simp [through]

/-! ## Locks -/

/-- The wake-up of the task that a lock was handed to. -/
def handOver (task? : Option TaskId) : List Wake := (task?.map fun t => (⟨t, .go, 0⟩ : Wake)).toList

theorem leaves_wakeHolder (task? : Option TaskId) (l : Loop σ ω) :
    (wakeHolder task? : Act σ ω Unit).leaves l = { l with ready := l.ready ++ handOver task? } := by
  cases task? with
  | none => simp [wakeHolder, handOver]
  | some t => rfl

theorem leaves_unlock (place : LockPlace σ) (l : Loop σ ω) :
    (unlock place : Act σ ω Unit).leaves l =
      { l with
        state := place.set (place.get l.state).release.1 l.state
        ready := l.ready ++ handOver (place.get l.state).release.2 } := by
  simp [unlock, leaves_wakeHolder]

theorem leaves_abandon (place : LockPlace σ) (l : Loop σ ω) :
    (abandon place : Act σ ω Unit).leaves l =
      { l with
        state := place.set ((place.get l.state).leave l.current).1 l.state
        ready := l.ready ++ handOver ((place.get l.state).leave l.current).2 } := by
  simp [abandon, leaves_wakeHolder]

/-! ## What an act comes to -/

/-- An act that ends or waits comes to a state: `waits` holds if it waits, `ends` if it ends. -/
def Reaches (a : Act σ ω (Step τ α)) (l : Loop σ ω) (waits : τ → Loop σ ω → Prop)
    (ends : Except Failure α → Loop σ ω → Prop) : Prop :=
  match a.returns l with
  | .waits s => waits s (a.leaves l)
  | .ends r => ends r (a.leaves l)

section Reaches

variable {l : Loop σ ω} {waits : τ → Loop σ ω → Prop} {ends : Except Failure α → Loop σ ω → Prop}

@[simp] theorem reaches_waits (s : τ) :
    (pure (.waits s) : Act σ ω (Step τ α)).Reaches l waits ends ↔ waits s l := Iff.rfl

@[simp] theorem reaches_ends (r : Except Failure α) :
    (pure (.ends r) : Act σ ω (Step τ α)).Reaches l waits ends ↔ ends r l := Iff.rfl

@[simp] theorem reaches_done (a : α) :
    (pure (.done a) : Act σ ω (Step τ α)).Reaches l waits ends ↔ ends (.ok a) l := Iff.rfl

@[simp] theorem reaches_fail (f : Failure) :
    (pure (.fail f) : Act σ ω (Step τ α)).Reaches l waits ends ↔ ends (.error f) l := Iff.rfl

theorem reaches_bind (a : Act σ ω β) (f : β → Act σ ω (Step τ α)) :
    (a >>= f).Reaches l waits ends ↔ (f (a.returns l)).Reaches (a.leaves l) waits ends := Iff.rfl

theorem reaches_ite (c : Prop) [Decidable c] (a b : Act σ ω (Step τ α)) :
    (if c then a else b).Reaches l waits ends ↔
      (c → a.Reaches l waits ends) ∧ (¬c → b.Reaches l waits ends) := by
  split <;> simp [*]

theorem reaches_afterwards (part : Act σ ω (Step υ β)) (wrap : υ → τ)
    (next : Except Failure β → Act σ ω (Step τ α)) :
    (afterwards part wrap next).Reaches l waits ends ↔
      part.Reaches l (fun s => waits (wrap s)) (fun r l => (next r).Reaches l waits ends) := by
  unfold afterwards
  rw [reaches_bind]
  unfold Reaches
  cases part.returns l <;> rfl

theorem reaches_acquire (place : LockPlace σ) (waiting : τ) (next : Act σ ω (Step τ α)) :
    (acquire place waiting next).Reaches l waits ends ↔
      ((place.get l.state).holder = none →
        next.Reaches { l with
          state := place.set { place.get l.state with holder := some l.current } l.state } waits ends) ∧
      ((place.get l.state).holder ≠ none →
        waits waiting { l with
          state := place.set { place.get l.state with
            line := (place.get l.state).line ++ [l.current] } l.state }) := by
  rcases hlock : place.get l.state with ⟨holder, line⟩
  cases holder <;> simp [acquire, reaches_bind, Lock.request, hlock, -bind_pure_comp]

/-- What is shown of where an act comes to may be weakened. -/
theorem Reaches.mono {a : Act σ ω (Step τ α)} {waits' : τ → Loop σ ω → Prop}
    {ends' : Except Failure α → Loop σ ω → Prop} (h : a.Reaches l waits ends)
    (hw : ∀ s l, waits s l → waits' s l) (he : ∀ r l, ends r l → ends' r l) :
    a.Reaches l waits' ends' := by
  unfold Reaches at h ⊢
  cases hs : a.returns l with
  | waits s => rw [hs] at h; exact hw _ _ h
  | ends r => rw [hs] at h; exact he _ _ h

/-- What is shown of where an act comes to in two parts. -/
theorem Reaches.and {a : Act σ ω (Step τ α)} {waits' : τ → Loop σ ω → Prop}
    {ends' : Except Failure α → Loop σ ω → Prop} (h : a.Reaches l waits ends) (h' : a.Reaches l waits' ends') :
    a.Reaches l (fun s l => waits s l ∧ waits' s l) fun r l => ends r l ∧ ends' r l := by
  unfold Reaches at h h' ⊢
  cases hs : a.returns l with
  | waits s =>
      rw [hs] at h h'
      exact ⟨h, h'⟩
  | ends r =>
      rw [hs] at h h'
      exact ⟨h, h'⟩

/-- What is shown of every wait holds where the act is seen to wait. -/
theorem Reaches.of_returns {a : Act σ ω (Step τ α)} (h : a.Reaches l waits ends) {state : τ}
    (hs : a.returns l = .waits state) : waits state (a.leaves l) := by
  unfold Reaches at h
  rw [hs] at h
  exact h

end Reaches

end InkServer.Act
