import InkServer.Proofs.Scheduler.Turns

/-!
# What is seen of a scheduler

Invocations begin and are over in turns, and what is delivered rises: two properties of what is seen, and
how they are kept when something more is seen.
-/

namespace InkServer.Scheduler

/-! ## What is seen -/

/-- How many invocations have begun. -/
def begun (seen : List Sight) : Nat :=
  seen.countP fun
    | .began _ => true
    | _ => false

/-- How many invocations are over. -/
def finished (seen : List Sight) : Nat :=
  seen.countP fun
    | .over _ => true
    | _ => false

/-- The generations that were delivered, in order. -/
def delivered (seen : List Sight) : List Int :=
  seen.filterMap fun
    | .delivered request _ => some request.generation
    | _ => none

/-- The tasks that have asked for a request to be run. -/
def asked (seen : List Sight) : List (TaskId × CompileRequest) :=
  seen.filterMap fun
    | .asked task request => some (task, request)
    | _ => none

/-- At every moment at most one invocation was running, and now there are `n` of them. -/
structure Balanced (seen : List Sight) (n : Nat) : Prop where
  alone : ∀ first, first <+: seen → begun first ≤ finished first + 1
  count : begun seen = finished seen + n

theorem balanced_nil : Balanced [] 0 where
  alone first h := by
    rw [List.prefix_nil] at h
    subst h
    exact Nat.zero_le _
  count := rfl

theorem Balanced.append {seen : List Sight} {n k : Nat} {e : Sight} (h : Balanced seen n)
    (hc : begun (seen ++ [e]) = finished (seen ++ [e]) + k) (hk : k ≤ 1) : Balanced (seen ++ [e]) k where
  alone := by
    intro first hf
    rw [List.prefix_concat_iff] at hf
    rcases hf with rfl | hf
    · omega
    · exact h.alone first hf
  count := hc

theorem Balanced.began {seen : List Sight} (h : Balanced seen 0) (r : CompileRequest) :
    Balanced (seen ++ [.began r]) 1 := by
  have := h.count
  apply h.append _ (Nat.le_refl _)
  simpa [begun, finished, List.countP_append, List.countP_singleton] using this

theorem Balanced.over {seen : List Sight} (h : Balanced seen 1) (r : CompileRequest) :
    Balanced (seen ++ [.over r]) 0 := by
  have := h.count
  apply h.append _ (Nat.zero_le _)
  simpa [begun, finished, List.countP_append, List.countP_singleton] using this

/-- Nothing but the invocations themselves counts. -/
theorem Balanced.see {seen : List Sight} {n : Nat} (h : Balanced seen n) (hn : n ≤ 1) {e : Sight}
    (hb : ∀ r, e ≠ .began r) (ho : ∀ r, e ≠ .over r) : Balanced (seen ++ [e]) n := by
  have := h.count
  apply h.append _ hn
  cases e with
  | began r => exact absurd rfl (hb r)
  | asked | delivered => simpa [begun, finished, List.countP_append, List.countP_singleton] using this
  | _ => exact absurd rfl (ho _)

/-- What was asked for is only told by those who ask. -/
theorem asked_append {seen : List Sight} {e : Sight} (he : ∀ t r, e ≠ .asked t r) :
    asked (seen ++ [e]) = asked seen := by
  cases e with
  | asked t r => exact absurd rfl (he t r)
  | _ => simp [asked]

/-- What was delivered is only told by deliveries. -/
theorem delivered_append {seen : List Sight} {e : Sight} (he : ∀ r n, e ≠ .delivered r n) :
    delivered (seen ++ [e]) = delivered seen := by
  cases e with
  | delivered r n => exact absurd rfl (he r n)
  | _ => simp [delivered]

@[simp] theorem delivered_delivered (seen : List Sight) (r : CompileRequest) (latest : Nat) :
    delivered (seen ++ [.delivered r latest]) = delivered seen ++ [r.generation] := by
  simp [delivered]

/-! ## What was delivered -/

/-- A request that a scheduler has admitted. -/
def Admitted (s : Scheduler) (r : CompileRequest) : Prop :=
  ∃ g : Nat, 0 < g ∧ g ≤ s.latest ∧ r = ⟨s.workspace, g⟩

/-- A request that was run to its end: if it is the latest it was accepted. -/
def Settled (s : Scheduler) (r : CompileRequest) : Prop :=
  Admitted s r ∧ (r.generation = s.latest → s.accepted = s.latest)

/-- What was delivered is in rising order, was the latest each time, and the last of it is what was
accepted last. -/
structure Faithful (w : Watch) : Prop where
  accepted_le : w.scheduler.accepted ≤ w.scheduler.latest
  latest : ∀ r n, .delivered r n ∈ w.seen → r = ⟨w.scheduler.workspace, n⟩
  rising : (delivered w.seen).Pairwise (· < ·)
  bounded : ∀ g ∈ delivered w.seen, g ≤ w.scheduler.accepted
  last : 0 < w.scheduler.accepted → (delivered w.seen).getLast? = some (w.scheduler.accepted : Int)

/-- Faith does not depend on the invocations. -/
theorem Faithful.see {w : Watch} (h : Faithful w) {e : Sight} (he : ∀ r n, e ≠ .delivered r n) :
    Faithful { w with seen := w.seen ++ [e] } := by
  have hd : Scheduler.delivered (w.seen ++ [e]) = Scheduler.delivered w.seen := delivered_append he
  exact {
    accepted_le := h.accepted_le
    latest := by
      intro r n hr
      rcases List.mem_append.mp hr with hr | hr
      · exact h.latest r n hr
      · rw [List.mem_singleton] at hr
        exact absurd hr.symm (he r n)
    rising := hd ▸ h.rising
    bounded := hd ▸ h.bounded
    last := hd ▸ h.last }

/-- Delivering what has just been accepted is faithful. -/
theorem Faithful.deliver {w : Watch} (h : Faithful w) (hlt : w.scheduler.accepted < w.scheduler.latest) :
    Faithful {
      scheduler := { w.scheduler with accepted := w.scheduler.latest }
      seen := w.seen ++ [.delivered ⟨w.scheduler.workspace, w.scheduler.latest⟩ w.scheduler.latest] } where
  accepted_le := Nat.le_refl _
  latest := by
    intro r n hr
    rcases List.mem_append.mp hr with hr | hr
    · exact h.latest r n hr
    · rw [List.mem_singleton] at hr
      cases hr
      rfl
  rising := by
    rw [delivered_delivered, List.pairwise_append]
    refine ⟨h.rising, List.pairwise_singleton _ _, ?_⟩
    intro g hg g' hg'
    rw [List.mem_singleton] at hg'
    have := h.bounded g hg
    simp only [hg']
    omega
  bounded := by
    intro g hg
    rw [delivered_delivered, List.mem_append, List.mem_singleton] at hg
    rcases hg with hg | rfl
    · have := h.bounded g hg
      simp only
      omega
    · exact Int.le_refl _
  last := by
    intro _
    simp

end InkServer.Scheduler
