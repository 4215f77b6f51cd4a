import InkServer.Task.Lock

/-!
# Which compile counts

A compile cannot be called off, so results that have been overtaken are filtered where they arrive. Every
trigger is admitted as a request with a new generation; requests run one at a time; and when one is over,
`accept` lets its result pass only if no later request was admitted and nothing of its generation has
passed before.
-/

namespace InkServer

/-- A trigger of a compile, tagged with the generation it was admitted as. -/
structure CompileRequest where
  workspace : String
  generation : Int
  deriving DecidableEq, Repr

/-- How a request ended. A request that was superseded before its turn is skipped. -/
structure CompileOutcome (α : Type) where
  request : CompileRequest
  accepted : Bool
  skipped : Bool := false
  result : Option α := none
  error : Option CompilerError := none

/-- The requests of one workspace: the latest admitted generation, the last accepted one, and the request
that runs. -/
structure Scheduler where
  workspace : String
  latest : Nat := 0
  accepted : Nat := 0
  inFlight : Option CompileRequest := none
  lock : Lock := {}
  deriving DecidableEq, Repr

namespace Scheduler

/-- Issues the request of a new trigger, which supersedes every earlier one. -/
def issue (s : Scheduler) : CompileRequest × Scheduler :=
  (⟨s.workspace, s.latest + 1⟩, { s with latest := s.latest + 1 })

/-- Whether no later request was admitted. -/
def isCurrent (s : Scheduler) (r : CompileRequest) : Bool :=
  r.workspace = s.workspace && r.generation = s.latest

/-- Decides whether the result of a request passes. -/
def accept (s : Scheduler) (r : CompileRequest) : Bool × Scheduler :=
  if s.isCurrent r && s.accepted < r.generation then (true, { s with accepted := s.latest })
  else (false, s)

/-! ## What the decisions guarantee -/

theorem isCurrent_iff {s : Scheduler} {r : CompileRequest} :
    s.isCurrent r = true ↔ r = ⟨s.workspace, s.latest⟩ := by
  obtain ⟨w, g⟩ := r
  simp [isCurrent]

/-- What has just been admitted is current. -/
theorem isCurrent_issue (s : Scheduler) : s.issue.2.isCurrent s.issue.1 := by
  simp [issue, isCurrent]

/-- Only the latest admitted request is accepted, and only once. -/
theorem accept_fst_iff {s : Scheduler} {r : CompileRequest} :
    (s.accept r).1 = true ↔ r = ⟨s.workspace, s.latest⟩ ∧ s.accepted < s.latest := by
  unfold accept
  split
  · rename_i h
    rw [Bool.and_eq_true, isCurrent_iff, decide_eq_true_eq] at h
    obtain ⟨rfl, h⟩ := h
    simpa using h
  · rename_i h
    rw [Bool.and_eq_true, isCurrent_iff, decide_eq_true_eq] at h
    simp only [Bool.false_eq_true, false_iff]
    rintro ⟨rfl, h'⟩
    exact h ⟨rfl, by simpa using h'⟩

theorem accept_snd (s : Scheduler) (r : CompileRequest) :
    (s.accept r).2 = if (s.accept r).1 then { s with accepted := s.latest } else s := by
  unfold accept
  split <;> rfl

/-- What is current stays so when something is accepted. -/
theorem isCurrent_accept (s : Scheduler) (r r' : CompileRequest) :
    (s.accept r).2.isCurrent r' = s.isCurrent r' := by
  rw [accept_snd]
  split <;> rfl

theorem inFlight_accept (s : Scheduler) (r : CompileRequest) : (s.accept r).2.inFlight = s.inFlight := by
  rw [accept_snd]
  split <;> rfl

theorem isCurrent_of_accept {s : Scheduler} {r : CompileRequest} (h : (s.accept r).1 = true) :
    s.isCurrent r := isCurrent_iff.mpr (accept_fst_iff.mp h).1

/-- The last accepted generation never goes back. -/
theorem accepted_le_accepted_accept (s : Scheduler) (r : CompileRequest) :
    s.accepted ≤ (s.accept r).2.accepted := by
  unfold accept
  split
  · rename_i h
    rw [Bool.and_eq_true, isCurrent_iff, decide_eq_true_eq] at h
    obtain ⟨rfl, h⟩ := h
    exact Nat.le_of_lt (by simpa using h)
  · exact Nat.le_refl _

end Scheduler

end InkServer
