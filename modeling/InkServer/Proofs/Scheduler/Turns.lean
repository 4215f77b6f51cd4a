import InkServer.Proofs.Scheduler.Trial

/-!
# Requests take turns

The lock is what keeps invocations apart. A task that waits inside its invocation holds it, and one that
stands in line is woken for its turn only after it was handed the lock; so whoever begins an invocation is
alone.
-/

namespace InkServer.Scheduler

variable {α : Type}

/-- The tasks of a trial that have not ended. -/
abbrev Tasks (α : Type) := List (TaskId × Suspended (Watch.Task α) (Watch.Waiting α))

namespace Tasks

def Unbegun (tasks : Tasks α) (t : TaskId) : Prop := ∃ task, (t, .created task) ∈ tasks

def InLine (tasks : Tasks α) (t : TaskId) : Prop :=
  ∃ trial request, (t, .waiting ⟨trial, .queued request⟩) ∈ tasks

def Inside (tasks : Tasks α) (t : TaskId) : Prop :=
  ∃ trial request state, (t, .waiting ⟨trial, .invoking request state⟩) ∈ tasks

/-- No task that has not ended has this name. -/
def Lacks (tasks : Tasks α) (t : TaskId) : Prop := ∀ x, (t, x) ∉ tasks

def isInside : Suspended (Watch.Task α) (Watch.Waiting α) → Bool
  | .waiting ⟨_, .invoking ..⟩ => true
  | _ => false

/-- How many tasks wait inside their invocations. -/
def running (tasks : Tasks α) : Nat := tasks.countP fun t => isInside t.2

variable {tasks : Tasks α} {t : TaskId}

theorem inside_of_isInside {x : Suspended (Watch.Task α) (Watch.Waiting α)} (hx : isInside x)
    (hm : (t, x) ∈ tasks) : tasks.Inside t := by
  cases x with
  | created _ => cases hx
  | waiting w =>
      obtain ⟨trial, run⟩ := w
      cases run with
      | queued _ => cases hx
      | invoking request state => exact ⟨trial, request, state, hm⟩

theorem running_append (x : Suspended (Watch.Task α) (Watch.Waiting α)) :
    running (tasks ++ [(t, x)]) = tasks.running + if isInside x then 1 else 0 := by
  simp [running, List.countP_append, List.countP_singleton]

/-- Taking out a task takes out no other. -/
theorem running_filter {x : Suspended (Watch.Task α) (Watch.Waiting α)}
    (hd : (tasks.map Prod.fst).Nodup) (hm : (t, x) ∈ tasks) :
    tasks.running = running (tasks.filter fun u => u.1 ≠ t) + if isInside x then 1 else 0 := by
  unfold running
  induction tasks with
  | nil => cases hm
  | cons u rest ih =>
      rw [List.map_cons, List.nodup_cons] at hd
      rcases List.mem_cons.mp hm with rfl | hm
      · have hrest : rest.filter (fun u => u.1 ≠ t) = rest := by
          rw [List.filter_eq_self]
          intro v hv
          rw [decide_eq_true_eq]
          rintro rfl
          exact hd.1 (List.mem_map.mpr ⟨v, hv, rfl⟩)
        simp only [ne_eq, not_true_eq_false, decide_false, Bool.false_eq_true, not_false_eq_true,
          List.filter_cons_of_neg, List.countP_cons]
        rw [hrest]
      · have hne : u.1 ≠ t := by
          rintro rfl
          exact hd.1 (List.mem_map.mpr ⟨_, hm, rfl⟩)
        have := ih hd.2 hm
        simp only [ne_eq] at this
        simp only [ne_eq, hne, not_false_eq_true, decide_true, List.filter_cons_of_pos, List.countP_cons]
        omega

theorem lacks_filter (t : TaskId) : Lacks (tasks.filter fun u => u.1 ≠ t) t := by
  intro x hx
  simp at hx

theorem Lacks.not_unbegun (h : tasks.Lacks t) : ¬tasks.Unbegun t := fun ⟨_, hm⟩ => h _ hm

theorem Lacks.not_inLine (h : tasks.Lacks t) : ¬tasks.InLine t := fun ⟨_, _, hm⟩ => h _ hm

theorem Lacks.not_inside (h : tasks.Lacks t) : ¬tasks.Inside t := fun ⟨_, _, _, hm⟩ => h _ hm

section Append

variable {u : TaskId} {x : Suspended (Watch.Task α) (Watch.Waiting α)}

theorem unbegun_append : Unbegun (tasks ++ [(u, x)]) t ↔ tasks.Unbegun t ∨ t = u ∧ ∃ k, x = .created k := by
  simp only [Unbegun, List.mem_append, List.mem_singleton, Prod.mk.injEq, exists_or]
  grind

theorem inLine_append : InLine (tasks ++ [(u, x)]) t ↔
    tasks.InLine t ∨ t = u ∧ ∃ trial request, x = .waiting ⟨trial, .queued request⟩ := by
  simp only [InLine, List.mem_append, List.mem_singleton, Prod.mk.injEq, exists_or]
  grind

theorem inside_append : Inside (tasks ++ [(u, x)]) t ↔
    tasks.Inside t ∨ t = u ∧ ∃ trial request state, x = .waiting ⟨trial, .invoking request state⟩ := by
  simp only [Inside, List.mem_append, List.mem_singleton, Prod.mk.injEq, exists_or]
  grind

end Append

end Tasks

/-! ## The discipline of the lock -/

/-- How the lock, the tasks that are ready and the gates fit the tasks that have not ended; `next` is the
name that the next task gets. -/
structure Orderly (lock : Lock) (ready : List Wake) (gates : List (String × TaskId)) (next : TaskId)
    (tasks : Tasks α) : Prop where
  distinct : (tasks.map Prod.fst).Nodup
  known : ∀ t ∈ tasks, t.1 < next
  knownReady : ∀ w ∈ ready, w.task < next
  knownAtGate : ∀ g ∈ gates, g.2 < next
  knownInLine : ∀ t ∈ lock.line, t < next
  /-- Who is inside an invocation holds the lock. -/
  insideHolds : ∀ t, tasks.Inside t → lock.holder = some t
  /-- Who stands in line is woken for its turn only as the holder of the lock. -/
  wokenHolds : ∀ w ∈ ready, tasks.InLine w.task → w.signal = .cancelled ∨ lock.holder = some w.task
  /-- Only those who have begun stand in line or at a gate, and nobody stands at both. -/
  begunInLine : ∀ t ∈ lock.line, ¬tasks.Unbegun t
  insideAtGate : ∀ g ∈ gates, ¬tasks.Unbegun g.2 ∧ ¬tasks.InLine g.2
  /-- Who has not begun is called once. -/
  calledOnce : ∀ t, tasks.Unbegun t → (ready.filter fun w => w.task = t).length ≤ 1

namespace Orderly

variable {lock : Lock} {ready : List Wake} {gates : List (String × TaskId)} {next t : TaskId}
  {tasks : Tasks α}

theorem nodup_append {x : Suspended (Watch.Task α) (Watch.Waiting α)} (h : (tasks.map Prod.fst).Nodup)
    (hl : tasks.Lacks t) : ((tasks ++ [(t, x)]).map Prod.fst).Nodup := by
  rw [List.map_append, List.map_singleton, List.nodup_append]
  refine ⟨h, by simp, ?_⟩
  intro a ha b hb he
  rw [List.mem_singleton] at hb
  subst he hb
  obtain ⟨⟨_, x⟩, hx, rfl⟩ := List.mem_map.mp ha
  exact hl x hx

/-- While somebody else holds the lock nobody is inside. -/
theorem not_inside (h : Orderly lock ready gates next tasks) (ht : lock.holder = some t)
    (hl : tasks.Lacks t) (u : TaskId) : ¬tasks.Inside u := by
  intro hu
  have := h.insideHolds u hu
  rw [ht, Option.some.injEq] at this
  subst this
  exact hl.not_inside hu

theorem running_eq_zero (h : Orderly lock ready gates next tasks) (ht : lock.holder = some t)
    (hl : tasks.Lacks t) : tasks.running = 0 := by
  unfold Tasks.running
  rw [List.countP_eq_zero]
  intro ⟨u, x⟩ hm hx
  exact h.not_inside ht hl u (Tasks.inside_of_isInside hx hm)

/-- Handing on the lock keeps the order: the next in line is woken, and nobody else. -/
theorem release (h : Orderly lock ready gates next tasks) (ht : lock.holder = some t)
    (hl : tasks.Lacks t) :
    Orderly lock.release.1 (ready ++ Act.handOver lock.release.2) gates next
      tasks := by
  have held : ∀ w ∈ ready, tasks.InLine w.task → w.signal = .cancelled := by
    intro w hw hi
    rcases h.wokenHolds w hw hi with hc | hh
    · exact hc
    · rw [ht, Option.some.injEq] at hh
      subst hh
      exact absurd hi hl.not_inLine
  obtain ⟨holder, line⟩ := lock
  cases line with
  | nil =>
      simp only [Lock.release, Act.handOver, Option.map_none, Option.toList_none, List.append_nil]
      exact { h with
        insideHolds := fun u hu => absurd hu (h.not_inside ht hl u)
        wokenHolds := fun w hw hi => Or.inl (held w hw hi) }
  | cons n line =>
      simp only [Lock.release, Act.handOver, Option.map_some, Option.toList_some]
      have hn := h.begunInLine n (by simp)
      exact { h with
        knownReady := by
          intro w hw
          rcases List.mem_append.mp hw with hw | hw
          · exact h.knownReady w hw
          · rw [List.mem_singleton] at hw
            subst hw
            exact h.knownInLine n (by simp)
        knownInLine := fun u hu => h.knownInLine u (List.mem_cons_of_mem _ hu)
        insideHolds := fun u hu => absurd hu (h.not_inside ht hl u)
        wokenHolds := by
          intro w hw hi
          rcases List.mem_append.mp hw with hw | hw
          · exact Or.inl (held w hw hi)
          · rw [List.mem_singleton] at hw
            subst hw
            exact Or.inr rfl
        begunInLine := fun u hu => h.begunInLine u (List.mem_cons_of_mem _ hu)
        calledOnce := by
          intro u hu
          have hne : n ≠ u := fun e => hn (e ▸ hu)
          simpa [List.filter_append, hne] using h.calledOnce u hu }

/-- Leaving the line keeps the order. -/
theorem leave (h : Orderly lock ready gates next tasks) (hl : tasks.Lacks t) :
    Orderly (lock.leave t).1 (ready ++ Act.handOver (lock.leave t).2) gates
      next tasks := by
  unfold Lock.leave
  split
  · rename_i ht
    exact h.release ht hl
  · simp only [Act.handOver, Option.map_none, Option.toList_none, List.append_nil]
    exact { h with
      knownInLine := fun u hu => h.knownInLine u ((List.mem_filter.mp hu).1)
      begunInLine := fun u hu => h.begunInLine u ((List.mem_filter.mp hu).1) }

/-- Taking a free lock keeps the order: nobody is inside. -/
theorem take (h : Orderly lock ready gates next tasks) (hn : lock.holder = none) :
    Orderly { lock with holder := some t } ready gates next tasks :=
  { h with
    insideHolds := by
      intro u hu
      have := h.insideHolds u hu
      rw [hn] at this
      cases this
    wokenHolds := by
      intro w hw hi
      rcases h.wokenHolds w hw hi with hc | hh
      · exact Or.inl hc
      · rw [hn] at hh
        cases hh }

/-- A task that has begun may stand in line if nothing is on its way to it. -/
theorem queue (h : Orderly lock ready gates next tasks) (hl : tasks.Lacks t) (ht : t < next)
    (hr : ∀ w ∈ ready, w.task ≠ t) (hg : ∀ g ∈ gates, g.2 ≠ t) (trial : Trial α)
    (request : CompileRequest) :
    Orderly { lock with line := lock.line ++ [t] } ready gates next
      (tasks ++ [(t, .waiting ⟨trial, .queued request⟩)]) where
  distinct := nodup_append h.distinct hl
  known := by
    intro u hu
    rcases List.mem_append.mp hu with hu | hu
    · exact h.known u hu
    · rw [List.mem_singleton] at hu
      subst hu
      exact ht
  knownReady := h.knownReady
  knownAtGate := h.knownAtGate
  knownInLine := by
    intro u hu
    rcases List.mem_append.mp hu with hu | hu
    · exact h.knownInLine u hu
    · rw [List.mem_singleton] at hu
      subst hu
      exact ht
  insideHolds := by
    intro u hu
    rw [Tasks.inside_append] at hu
    rcases hu with hu | ⟨_, _, _, _, hx⟩
    · exact h.insideHolds u hu
    · cases hx
  wokenHolds := by
    intro w hw hi
    rw [Tasks.inLine_append] at hi
    rcases hi with hi | ⟨rfl, _⟩
    · exact h.wokenHolds w hw hi
    · exact absurd rfl (hr w hw)
  begunInLine := by
    intro u hu hb
    rw [Tasks.unbegun_append] at hb
    rcases hb with hb | ⟨rfl, _, hx⟩
    · rcases List.mem_append.mp hu with hu | hu
      · exact h.begunInLine u hu hb
      · rw [List.mem_singleton] at hu
        subst hu
        exact hl.not_unbegun hb
    · cases hx
  insideAtGate := by
    intro g hm
    obtain ⟨hu, hi⟩ := h.insideAtGate g hm
    rw [Tasks.unbegun_append, Tasks.inLine_append]
    refine ⟨?_, ?_⟩
    · rintro (hb | ⟨_, _, hx⟩)
      · exact hu hb
      · cases hx
    · rintro (hb | ⟨he, _⟩)
      · exact hi hb
      · exact hg g hm he
  calledOnce := by
    intro u hu
    rw [Tasks.unbegun_append] at hu
    rcases hu with hu | ⟨_, _, hx⟩
    · exact h.calledOnce u hu
    · cases hx

/-- The holder of the lock may wait inside its invocation. -/
theorem wait (h : Orderly lock ready gates next tasks) (ht : lock.holder = some t) (hl : tasks.Lacks t)
    (hk : t < next) (gate : String) (trial : Trial α) (request : CompileRequest)
    (state : CompileRequest × (Signal → Course α)) :
    Orderly lock ready (gates ++ [(gate, t)]) next
      (tasks ++ [(t, .waiting ⟨trial, .invoking request state⟩)]) where
  distinct := nodup_append h.distinct hl
  known := by
    intro u hu
    rcases List.mem_append.mp hu with hu | hu
    · exact h.known u hu
    · rw [List.mem_singleton] at hu
      subst hu
      exact hk
  knownReady := h.knownReady
  knownAtGate := by
    intro g hg
    rcases List.mem_append.mp hg with hg | hg
    · exact h.knownAtGate g hg
    · rw [List.mem_singleton] at hg
      subst hg
      exact hk
  knownInLine := h.knownInLine
  insideHolds := by
    intro u hu
    rw [Tasks.inside_append] at hu
    rcases hu with hu | ⟨rfl, _⟩
    · exact h.insideHolds u hu
    · exact ht
  wokenHolds := by
    intro w hw hi
    rw [Tasks.inLine_append] at hi
    rcases hi with hi | ⟨_, _, _, hx⟩
    · exact h.wokenHolds w hw hi
    · cases hx
  begunInLine := by
    intro u hu hb
    rw [Tasks.unbegun_append] at hb
    rcases hb with hb | ⟨_, _, hx⟩
    · exact h.begunInLine u hu hb
    · cases hx
  insideAtGate := by
    intro g hg
    rw [Tasks.unbegun_append, Tasks.inLine_append]
    rcases List.mem_append.mp hg with hg | hg
    · obtain ⟨hu, hi⟩ := h.insideAtGate g hg
      refine ⟨?_, ?_⟩
      · rintro (hb | ⟨_, _, hx⟩)
        · exact hu hb
        · cases hx
      · rintro (hb | ⟨_, _, _, hx⟩)
        · exact hi hb
        · cases hx
    · rw [List.mem_singleton] at hg
      subst hg
      refine ⟨?_, ?_⟩
      · rintro (hb | ⟨_, _, hx⟩)
        · exact hl.not_unbegun hb
        · cases hx
      · rintro (hb | ⟨_, _, _, hx⟩)
        · exact hl.not_inLine hb
        · cases hx
  calledOnce := by
    intro u hu
    rw [Tasks.unbegun_append] at hu
    rcases hu with hu | ⟨_, _, hx⟩
    · exact h.calledOnce u hu
    · cases hx

/-- A task may be begun: it gets a new name, by which nobody has been called. -/
theorem begin (h : Orderly lock ready gates next tasks) (task : Watch.Task α) :
    Orderly lock (ready ++ [⟨next, .go, 0⟩]) gates (next + 1) (tasks ++ [(next, .created task)]) where
  distinct := nodup_append h.distinct fun x hx => Nat.lt_irrefl _ (h.known _ hx)
  known := by
    intro u hu
    rcases List.mem_append.mp hu with hu | hu
    · exact Nat.lt_succ_of_lt (h.known u hu)
    · rw [List.mem_singleton] at hu
      subst hu
      exact Nat.lt_succ_self _
  knownReady := by
    intro w hw
    rcases List.mem_append.mp hw with hw | hw
    · exact Nat.lt_succ_of_lt (h.knownReady w hw)
    · rw [List.mem_singleton] at hw
      subst hw
      exact Nat.lt_succ_self _
  knownAtGate := fun g hg => Nat.lt_succ_of_lt (h.knownAtGate g hg)
  knownInLine := fun u hu => Nat.lt_succ_of_lt (h.knownInLine u hu)
  insideHolds := by
    intro u hu
    rw [Tasks.inside_append] at hu
    rcases hu with hu | ⟨_, _, _, _, hx⟩
    · exact h.insideHolds u hu
    · cases hx
  wokenHolds := by
    intro w hw hi
    rw [Tasks.inLine_append] at hi
    rcases hi with hi | ⟨_, _, _, hx⟩
    · rcases List.mem_append.mp hw with hw | hw
      · exact h.wokenHolds w hw hi
      · rw [List.mem_singleton] at hw
        subst hw
        obtain ⟨_, _, hm⟩ := hi
        exact absurd (h.known _ hm) (Nat.lt_irrefl _)
    · cases hx
  begunInLine := by
    intro u hu hb
    rw [Tasks.unbegun_append] at hb
    rcases hb with hb | ⟨rfl, _⟩
    · exact h.begunInLine u hu hb
    · exact Nat.lt_irrefl _ (h.knownInLine _ hu)
  insideAtGate := by
    intro g hg
    obtain ⟨hu, hi⟩ := h.insideAtGate g hg
    rw [Tasks.unbegun_append, Tasks.inLine_append]
    refine ⟨?_, ?_⟩
    · rintro (hb | ⟨he, _⟩)
      · exact hu hb
      · exact Nat.lt_irrefl _ (he ▸ h.knownAtGate g hg)
    · rintro (hb | ⟨_, _, _, hx⟩)
      · exact hi hb
      · cases hx
  calledOnce := by
    intro u hu
    rw [List.filter_append, List.length_append]
    rw [Tasks.unbegun_append] at hu
    rcases hu with hu | ⟨he, _⟩
    · obtain ⟨_, hm⟩ := hu
      have hne : next ≠ u := fun e => Nat.lt_irrefl _ (e ▸ h.known _ hm)
      simpa [hne] using h.calledOnce u ⟨_, hm⟩
    · have hnone : ready.filter (fun w => w.task = u) = [] := by
        rw [List.filter_eq_nil_iff]
        intro w hw hwu
        rw [decide_eq_true_eq] at hwu
        exact Nat.lt_irrefl _ (he ▸ hwu ▸ h.knownReady w hw)
      rw [hnone]
      simp [he]

/-- Fewer tasks, and fewer wake-ups for each, keep the order. -/
theorem fewer (h : Orderly lock ready gates next tasks) {ready' : List Wake} {tasks' : Tasks α}
    (ht : tasks'.Sublist tasks)
    (hr : ∀ w ∈ ready', ∃ v ∈ ready, v.task = w.task ∧ v.signal = w.signal)
    (hc : ∀ t, (ready'.filter fun w => w.task = t).length ≤ (ready.filter fun w => w.task = t).length) :
    Orderly lock ready' gates next tasks' where
  distinct := h.distinct.sublist (ht.map _)
  known := fun t hm => h.known t (ht.subset hm)
  knownReady := by
    intro w hw
    obtain ⟨v, hv, he, _⟩ := hr w hw
    exact he ▸ h.knownReady v hv
  knownAtGate := h.knownAtGate
  knownInLine := h.knownInLine
  insideHolds := fun t ⟨_, _, _, hm⟩ => h.insideHolds t ⟨_, _, _, ht.subset hm⟩
  wokenHolds := by
    intro w hw ⟨_, _, hm⟩
    obtain ⟨v, hv, he, hs⟩ := hr w hw
    rw [← he, ← hs]
    exact h.wokenHolds v hv ⟨_, _, he ▸ ht.subset hm⟩
  begunInLine := fun t hl ⟨_, hm⟩ => h.begunInLine t hl ⟨_, ht.subset hm⟩
  insideAtGate := fun g hg =>
    ⟨fun ⟨_, hm⟩ => (h.insideAtGate g hg).1 ⟨_, ht.subset hm⟩,
      fun ⟨_, _, hm⟩ => (h.insideAtGate g hg).2 ⟨_, _, ht.subset hm⟩⟩
  calledOnce := fun t ⟨_, hm⟩ => Nat.le_trans (hc t) (h.calledOnce t ⟨_, ht.subset hm⟩)

/-- The tasks besides one are in order. -/
theorem without (h : Orderly lock ready gates next tasks) (t : TaskId) :
    Orderly lock ready gates next (tasks.filter fun u => u.1 ≠ t) :=
  h.fewer List.filter_sublist (fun w hw => ⟨w, hw, rfl, rfl⟩) fun _ => Nat.le_refl _

/-- At most one task is inside. -/
theorem running_le_one (h : Orderly lock ready gates next tasks) : tasks.running ≤ 1 := by
  by_cases hi : ∃ t x, (t, x) ∈ tasks ∧ Tasks.isInside x
  · obtain ⟨t, x, hm, hx⟩ := hi
    have hh := h.insideHolds t (Tasks.inside_of_isInside hx hm)
    have h0 := (h.without t).running_eq_zero hh (Tasks.lacks_filter t)
    exact Nat.le_of_eq (by rw [Tasks.running_filter h.distinct hm, h0, if_pos hx])
  · have h0 : tasks.running = 0 := by
      unfold Tasks.running
      rw [List.countP_eq_zero]
      exact fun u hu hx => hi ⟨u.1, u.2, hu, hx⟩
    omega

/-- A task that is told to give up is called once, for that. -/
theorem giveUp (h : Orderly lock ready gates next tasks) (ht : t < next) :
    Orderly lock (Act.giveUp ready t) (gates.filter fun g => g.2 ≠ t) next tasks := by
  have called : ∀ w ∈ Act.giveUp ready t, w ∈ ready ∧ w.task ≠ t ∨ w = ⟨t, .cancelled, 0⟩ := by
    intro w hw
    rcases List.mem_append.mp hw with hw | hw
    · exact Or.inl ⟨(List.mem_filter.mp hw).1, by simpa using (List.mem_filter.mp hw).2⟩
    · exact Or.inr (List.mem_singleton.mp hw)
  exact { h with
    knownReady := by
      intro w hw
      rcases called w hw with ⟨hw, _⟩ | rfl
      · exact h.knownReady w hw
      · exact ht
    knownAtGate := fun g hg => h.knownAtGate g (List.mem_filter.mp hg).1
    wokenHolds := by
      intro w hw hi
      rcases called w hw with ⟨hw, _⟩ | rfl
      · exact h.wokenHolds w hw hi
      · exact Or.inl rfl
    insideAtGate := fun g hg => h.insideAtGate g (List.mem_filter.mp hg).1
    calledOnce := by
      intro u hu
      have hsub : (ready.filter fun w => w.task ≠ t).filter (fun w => w.task = u) =
          (ready.filter fun w => w.task = u).filter fun w => w.task ≠ t := by
        rw [List.filter_filter, List.filter_filter]
        exact List.filter_congr fun w _ => Bool.and_comm _ _
      unfold Act.giveUp
      rw [List.filter_append, List.length_append, hsub]
      by_cases hut : t = u
      · subst hut
        simp
      · have := List.length_filter_le (fun w : Wake => decide (w.task ≠ t))
          (ready.filter fun w => w.task = u)
        have := h.calledOnce u hu
        simp only [hut, decide_false, Bool.false_eq_true, not_false_eq_true, List.filter_cons_of_neg,
          List.filter_nil, List.length_nil]
        omega }

/-- Whoever waits at a gate may be let through. -/
theorem pass (h : Orderly lock ready gates next tasks) {g : String × TaskId} (hg : g ∈ gates)
    (signal : Signal) :
    Orderly lock (ready ++ [⟨g.2, signal, 0⟩]) (gates.filter fun w => w.2 ≠ g.2) next tasks :=
  { h with
    knownReady := by
      intro w hw
      rcases List.mem_append.mp hw with hw | hw
      · exact h.knownReady w hw
      · rw [List.mem_singleton] at hw
        subst hw
        exact h.knownAtGate g hg
    knownAtGate := fun g hg => h.knownAtGate g (List.mem_filter.mp hg).1
    wokenHolds := by
      intro w hw hi
      rcases List.mem_append.mp hw with hw | hw
      · exact h.wokenHolds w hw hi
      · rw [List.mem_singleton] at hw
        subst hw
        exact absurd hi (h.insideAtGate g hg).2
    insideAtGate := fun g hg => h.insideAtGate g (List.mem_filter.mp hg).1
    calledOnce := by
      intro u hu
      have hne : g.2 ≠ u := fun e => (h.insideAtGate g hg).1 (e ▸ hu)
      simpa [List.filter_append, hne] using h.calledOnce u hu }

end Orderly

end InkServer.Scheduler
