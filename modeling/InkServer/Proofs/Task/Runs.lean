import InkServer.Proofs.Task.Acts
import InkServer.Task.Control

/-!
# Runs of a session

What may happen to a session, one move after the other: the first task that is ready takes its turn, or
something comes from outside. Nothing is said about when what comes from outside comes, so that a fact
about all runs is one about every order of events.
-/

namespace InkServer

/-- Lets a task through that waits at a gate, whichever way its wait ends. -/
def Act.pass {σ ω : Type} (task : TaskId) (signal : Signal) : Act σ ω Unit :=
  modify fun l =>
    if l.atGates.any fun w => w.2 = task then
      { l with
        atGates := l.atGates.filter fun w => w.2 ≠ task
        ready := l.ready ++ [⟨task, signal, 0⟩] }
    else l

theorem Act.leaves_pass {σ ω : Type} (task : TaskId) (signal : Signal) (l : Loop σ ω) :
    (Act.pass task signal : Act σ ω Unit).leaves l =
      if l.atGates.any fun w => w.2 = task then
        { l with
          atGates := l.atGates.filter fun w => w.2 ≠ task
          ready := l.ready ++ [⟨task, signal, 0⟩] }
      else l := rfl

/-- What a task that has not ended does when it is run. -/
def Machine.goesOn {σ ω τ ρ : Type} (m : Machine σ ω τ ρ) (signal : Signal) :
    Suspended ω τ → Act σ ω (Step τ ρ)
  | .created operation => m.start operation signal
  | .waiting state => m.resume state signal

namespace Session

variable {σ ω τ ρ ε : Type}

/-- What may happen next; `ε` is what may be done from outside besides cancelling tasks and working gates. -/
inductive Move (ε : Type) where
  /-- The first task that is ready runs up to its next wait. -/
  | turn
  | cancels (task : TaskId)
  /-- A task that waits at a gate is let through. -/
  | passes (task : TaskId) (signal : Signal)
  | closes (gate : String)
  | opens (gate : String)
  | outside (e : ε)

variable (m : Machine σ ω τ ρ) (outside : ε → Act σ ω Unit)

/-- What a move makes of a session. -/
def advance (s : Session σ ω τ ρ) : Move ε → Session σ ω τ ρ
  | .turn => (s.turn m).getD s
  | .cancels task => (s.cancel task).2
  | .passes task signal => (s.act (Act.pass task signal)).2
  | .closes gate => s.hold gate
  | .opens gate => (s.act (Act.open_ gate)).2
  | .outside e => (s.act (outside e)).2

/-- The session after some moves. -/
def after (s : Session σ ω τ ρ) (moves : List (Move ε)) : Session σ ω τ ρ :=
  moves.foldl (advance m outside) s

variable {m outside}

@[simp] theorem after_nil (s : Session σ ω τ ρ) : s.after m outside [] = s := rfl

@[simp] theorem after_cons (s : Session σ ω τ ρ) (move : Move ε) (moves : List (Move ε)) :
    s.after m outside (move :: moves) = (s.advance m outside move).after m outside moves := rfl

theorem after_append (s : Session σ ω τ ρ) (first last : List (Move ε)) :
    s.after m outside (first ++ last) = (s.after m outside first).after m outside last :=
  List.foldl_append

/-- What every move keeps is kept by every run. -/
theorem after_keeps {p : Session σ ω τ ρ → Prop} {s : Session σ ω τ ρ} (hs : p s)
    (hm : ∀ s (move : Move ε), p s → p (s.advance m outside move)) (moves : List (Move ε)) :
    p (s.after m outside moves) := by
  induction moves generalizing s with
  | nil => exact hs
  | cons move moves ih => exact ih (hm s move hs)

/-! ## Doing something -/

theorem act_eq {α : Type} (s : Session σ ω τ ρ) (a : Act σ ω α) :
    s.act a = (a.returns s.loop, adopt { s with loop := a.leaves s.loop }) := rfl

/-- Where nothing was created there is nothing to take up. -/
theorem adopt_of_created_eq_nil {s : Session σ ω τ ρ} (h : s.loop.created = []) : s.adopt = s := by
  obtain ⟨loop, tasks, ended⟩ := s
  cases loop
  simp only at h
  subst h
  simp [adopt]

/-! ## Turns -/

/-- The tasks besides one. -/
def without (s : Session σ ω τ ρ) (task : TaskId) : List (TaskId × Suspended ω τ) :=
  s.tasks.filter fun t => t.1 ≠ task

theorem mem_without {s : Session σ ω τ ρ} {task : TaskId} {t : TaskId × Suspended ω τ} :
    t ∈ s.without task ↔ t ∈ s.tasks ∧ t.1 ≠ task := by
  simp [without]

theorem find?_without (s : Session σ ω τ ρ) (task t : TaskId) :
    ((s.without task).find? fun e => e.1 = t) = if t = task then none else s.tasks.find? fun e => e.1 = t := by
  unfold without
  rw [List.find?_filter]
  split
  · rename_i h
    subst h
    rw [List.find?_eq_none]
    simp
  · rename_i h
    congr 1
    funext e
    by_cases he : e.1 = t <;> simp [he, h]

theorem mem_of_task? {s : Session σ ω τ ρ} {task : TaskId} {x : Suspended ω τ}
    (h : s.task? task = some x) : (task, x) ∈ s.tasks := by
  unfold task? at h
  rw [Option.map_eq_some_iff] at h
  obtain ⟨⟨t, y⟩, h, rfl⟩ := h
  have ht := List.find?_some h
  simp only [decide_eq_true_eq] at ht
  subst ht
  exact List.mem_of_find?_eq_some h

theorem not_mem_of_task? {s : Session σ ω τ ρ} {task : TaskId}
    (h : s.task? task = none) (x : Suspended ω τ) : (task, x) ∉ s.tasks := by
  intro hx
  unfold task? at h
  rw [Option.map_eq_none_iff, List.find?_eq_none] at h
  exact h _ hx (by simp)

/-- The session after a task went on to its next wait or its end. -/
def wentOn (s : Session σ ω τ ρ) (task : TaskId) (step : Step τ ρ) (l : Loop σ ω) : Session σ ω τ ρ :=
  ({ s with tasks := s.without task, loop := l }).adopt.file task step

theorem wentOn_waits {s : Session σ ω τ ρ} {task : TaskId} {state : τ} {l : Loop σ ω}
    (hc : l.created = []) :
    s.wentOn task (.waits state) l =
      { s with tasks := s.without task ++ [(task, .waiting state)], loop := l } := by
  unfold wentOn
  rw [adopt_of_created_eq_nil hc]
  rfl

/-- The failure with which a task ended, if it failed. -/
def failure? : Except Failure ρ → Option Failure
  | .ok _ => none
  | .error f => some f

theorem file_ends {s : Session σ ω τ ρ} (hc : s.loop.created = []) (task : TaskId) (r : Except Failure ρ) :
    s.file task (.ends r) =
      { s with loop := (Act.noteEnd task (failure? r)).leaves s.loop, ended := s.ended ++ [(task, r)] } := by
  simp only [file, act_eq]
  rw [adopt_of_created_eq_nil]
  · cases r <;> rfl
  · exact hc

theorem wentOn_ends_noting {s : Session σ ω τ ρ} {task : TaskId} {r : Except Failure ρ} {l : Loop σ ω}
    (hc : l.created = []) :
    s.wentOn task (.ends r) l =
      { s with
        tasks := s.without task
        loop := (Act.noteEnd task (failure? r)).leaves l
        ended := s.ended ++ [(task, r)] } := by
  unfold wentOn
  rw [adopt_of_created_eq_nil hc]
  exact file_ends hc task r

theorem wentOn_ends {s : Session σ ω τ ρ} {task : TaskId} {r : Except Failure ρ} {l : Loop σ ω}
    (hc : l.created = []) (hg : l.gatherings = []) :
    s.wentOn task (.ends r) l =
      { s with tasks := s.without task, loop := l, ended := s.ended ++ [(task, r)] } := by
  rw [wentOn_ends_noting hc, Act.leaves_noteEnd_of_gatherings_eq_nil hg]

theorem wentOn_state (s : Session σ ω τ ρ) (task : TaskId) (step : Step τ ρ) (l : Loop σ ω) :
    (s.wentOn task step l).state = l.state := by
  cases step <;> rfl

theorem wentOn_nextTask (s : Session σ ω τ ρ) (task : TaskId) (step : Step τ ρ) (l : Loop σ ω) :
    (s.wentOn task step l).loop.nextTask = l.nextTask := by
  cases step <;> rfl

theorem wentOn_loop (s : Session σ ω τ ρ) (task : TaskId) (step : Step τ ρ) {l : Loop σ ω} (hg : l.gatherings = []) :
    (s.wentOn task step l).loop = { l with created := [] } := by
  cases step with
  | waits state => rfl
  | ends r =>
      unfold wentOn
      rw [file_ends rfl]
      exact Act.leaves_noteEnd_of_gatherings_eq_nil (l := { l with created := [] }) hg task _

/-- The other tasks stay where they are. -/
theorem task?_wentOn_of_ne {s : Session σ ω τ ρ} {task t : TaskId} {x : Suspended ω τ} (hx : s.task? t = some x)
    (hne : t ≠ task) (step : Step τ ρ) (l : Loop σ ω) : (s.wentOn task step l).task? t = some x := by
  obtain ⟨e, he, rfl⟩ := Option.map_eq_some_iff.mp hx
  have hfind := find?_without s task t
  rw [if_neg hne, he] at hfind
  cases step <;> simp [wentOn, adopt, file, act_eq, task?, hfind]

/-- A task that waits again is found where it waits. -/
theorem task?_wentOn_waits (s : Session σ ω τ ρ) {task : TaskId} (state : τ) {l : Loop σ ω}
    (hc : ∀ c ∈ l.created, c.1 ≠ task) : (s.wentOn task (.waits state) l).task? task = some (.waiting state) := by
  have hfind := find?_without s task task
  rw [if_pos rfl] at hfind
  have hcreated : (l.created.map fun (c : TaskId × ω) => (c.1, (Suspended.created c.2 : Suspended ω τ))).find?
      (fun e => e.1 = task) = none := by
    simpa [List.find?_eq_none] using hc
  simp [wentOn, adopt, file, task?, hfind, hcreated]

theorem mem_wentOn {s : Session σ ω τ ρ} {task : TaskId} {step : Step τ ρ} {l : Loop σ ω}
    {t : TaskId × Suspended ω τ} :
    t ∈ (s.wentOn task step l).tasks ↔ t ∈ s.without task ∨ (∃ c ∈ l.created, t = (c.1, .created c.2)) ∨
      ∃ state, step = .waits state ∧ t = (task, .waiting state) := by
  cases step with
  | waits state => simp [wentOn, adopt, file, eq_comm]
  | ends r => simp [wentOn, adopt, file, act_eq, Act.noteEnd, eq_comm]

theorem mem_ended_wentOn {s : Session σ ω τ ρ} {task : TaskId} {step : Step τ ρ} {l : Loop σ ω}
    {t : TaskId × Except Failure ρ} :
    t ∈ (s.wentOn task step l).ended ↔ t ∈ s.ended ∨ ∃ r, step = .ends r ∧ t = (task, r) := by
  cases step with
  | waits state => simp [wentOn, adopt, file]
  | ends r => simp [wentOn, adopt, file, act_eq]

/-- What is shown of wherever a task comes to holds of the session after it was run. -/
theorem run_of_reaches {p : Session σ ω τ ρ → Prop} {s : Session σ ω τ ρ} {task : TaskId}
    {x : Suspended ω τ} {signal : Signal} (hx : s.task? task = some x)
    (h : (m.goesOn signal x).Reaches { s.loop with current := task }
      (fun state l => p (s.wentOn task (.waits state) l)) fun r l => p (s.wentOn task (.ends r) l)) :
    p (s.run m task signal) := by
  unfold Act.Reaches at h
  unfold run
  rw [hx]
  cases x <;>
  · simp only [Machine.goesOn] at h
    simp only [act_eq]
    split at h <;> rename_i hs <;> rw [hs] <;> exact h

theorem advance_turn_of_nil {s : Session σ ω τ ρ} (hr : s.loop.ready = []) : s.advance m outside .turn = s := by
  simp [advance, turn, hr]

theorem advance_turn {s : Session σ ω τ ρ} {w : Wake} {rest : List Wake} (hr : s.loop.ready = w :: rest)
    (hw : w.turns = 0) :
    s.advance m outside .turn =
      ({ s with loop := { s.loop with ready := rest } } : Session σ ω τ ρ).run m w.task w.signal := by
  simp [advance, turn, hr, hw]

theorem run_of_task?_eq_none {s : Session σ ω τ ρ} {task : TaskId} (h : s.task? task = none) (l : Loop σ ω)
    (signal : Signal) :
    ({ s with loop := l } : Session σ ω τ ρ).run m task signal = { s with loop := l } := by
  have h : ({ s with loop := l } : Session σ ω τ ρ).task? task = none := h
  simp [run, h]

/-- What every way a turn can go keeps is kept by a turn. -/
theorem turn_keeps {p : Session σ ω τ ρ → Prop} {s : Session σ ω τ ρ} (hs : p s)
    (postponed : ∀ w rest n, s.loop.ready = w :: rest →
      p { s with loop := { s.loop with ready := rest ++ [⟨w.task, w.signal, n⟩] } })
    (gone : ∀ w rest, s.loop.ready = w :: rest → s.task? w.task = none →
      p { s with loop := { s.loop with ready := rest } })
    (ran : ∀ w rest x, s.loop.ready = w :: rest → s.task? w.task = some x →
      p (({ s with loop := { s.loop with ready := rest } }).run m w.task w.signal)) :
    p (s.advance m outside .turn) := by
  simp only [advance, turn]
  split
  · exact hs
  · rename_i w rest hr
    cases w.turns with
    | zero =>
        simp only [Option.getD_some]
        cases hx : s.task? w.task with
        | none =>
            have hn : ({ s with loop := { s.loop with ready := rest } } : Session σ ω τ ρ).task? w.task
              = none := hx
            simp only [run, hn]
            exact gone w rest hr hx
        | some x => exact ran w rest x hr hx
    | succ n => exact postponed w rest n hr

/-- Results stay. -/
theorem ended_subset_run (s : Session σ ω τ ρ) (task : TaskId) (signal : Signal) :
    s.ended ⊆ (s.run m task signal).ended := by
  cases hx : s.task? task with
  | none =>
      unfold run
      rw [hx]
      exact List.Subset.refl _
  | some x =>
      refine run_of_reaches (p := fun s' => s.ended ⊆ s'.ended) hx ?_
      unfold Act.Reaches
      split <;> exact fun t ht => mem_ended_wentOn.mpr (.inl ht)

theorem ended_subset_advance (s : Session σ ω τ ρ) (move : Move ε) : s.ended ⊆ (s.advance m outside move).ended := by
  cases move with
  | turn =>
      refine turn_keeps (p := fun s' => s.ended ⊆ s'.ended) (List.Subset.refl _) (fun _ _ _ _ => List.Subset.refl _)
        (fun _ _ _ _ => List.Subset.refl _) fun w rest x _ _ => ?_
      exact ended_subset_run { s with loop := { s.loop with ready := rest } } w.task w.signal
  | cancels task =>
      show s.ended ⊆ (s.cancel task).2.ended
      unfold cancel
      split <;> exact List.Subset.refl _
  | _ => exact List.Subset.refl _

theorem ended_subset_after (s : Session σ ω τ ρ) (moves : List (Move ε)) :
    s.ended ⊆ (s.after m outside moves).ended :=
  after_keeps (p := fun s' => s.ended ⊆ s'.ended) (List.Subset.refl _)
    (fun s' move h => List.Subset.trans h (ended_subset_advance s' move)) moves

end Session

end InkServer
