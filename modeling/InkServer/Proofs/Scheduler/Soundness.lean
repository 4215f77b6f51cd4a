import InkServer.Proofs.Scheduler.Sights

/-!
# What a turn of a request keeps

The steps of a request between two waits, from the last to the first: how it ends, what its invocation comes
to, and how it takes its turn. Each keeps what holds of the scheduler at any moment. A request that is the
latest is never skipped, which is why it is accepted by whoever runs it to its end.
-/

namespace InkServer.Scheduler

open Session

variable {α : Type}

/-! ## What a turn keeps -/

/-- The request that a task runs; one that is still to admit it has none. -/
def requestOf : Suspended (Watch.Task α) (Watch.Waiting α) → Option CompileRequest
  | .created (.run r _) => some r
  | .created (.submit _) => none
  | .waiting ⟨_, .queued r⟩ => some r
  | .waiting ⟨_, .invoking r _⟩ => some r

/-- Where a request that runs waits. -/
abbrev Pause (α : Type) := Run (CompileRequest × (Signal → Course α))

/-- What has been: what the tasks that have ended came to, and who has asked for which request. -/
structure Past (α : Type) where
  ended : List (TaskId × Except Failure (Conclusion α Unit))
  asked : List (TaskId × CompileRequest)

/-- What holds of a scheduler at any moment: `tasks` are those that wait, and `n` invocations are
running. -/
structure Sound (past : Past α) (l : Loop Watch (Watch.Task α)) (tasks : Tasks α) (n : Nat) : Prop where
  created : l.created = []
  gatherings : l.gatherings = []
  orderly : Orderly l.state.scheduler.lock l.ready l.atGates l.nextTask tasks
  balanced : Balanced l.state.seen n
  faithful : Faithful l.state
  admitted : ∀ t x r, (t, x) ∈ tasks → requestOf x = some r → Admitted l.state.scheduler r
  settled : ∀ e ∈ past.ended, ∀ c, e.2 = .ok c → Settled l.state.scheduler c.outcome.request
  asked : asked l.state.seen = past.asked

/-- The task that runs has the lock. -/
structure HasTurn (l : Loop Watch (Watch.Task α)) (tasks : Tasks α) : Prop where
  known : l.current < l.nextTask
  holds : l.state.scheduler.lock.holder = some l.current
  lacks : tasks.Lacks l.current

section Turn

variable {past : Past α} {l : Loop Watch (Watch.Task α)} {tasks : Tasks α} {trial : Trial α}
  {request : CompileRequest}

/-- A request goes on to a wait, and everything is sound. -/
def Sound.Waits (past : Past α) (tasks : Tasks α) (t : TaskId) (request : CompileRequest)
    (w : Watch.Waiting α) (l : Loop Watch (Watch.Task α)) : Prop :=
  Sound past l (tasks ++ [(t, .waiting w)]) (Tasks.running (tasks ++ [(t, .waiting w)])) ∧
    requestOf (.waiting w) = some request

/-- A request ends, and everything is sound; unless it failed it is settled. -/
def Sound.Ends (past : Past α) (tasks : Tasks α) (request : CompileRequest)
    (r : Except Failure (Conclusion α Unit)) (l : Loop Watch (Watch.Task α)) : Prop :=
  Sound past l tasks tasks.running ∧
    ∀ c, r = .ok c → c.outcome.request = request ∧ Settled l.state.scheduler request

/-- Whoever waits for an admitted request adds to what is known of the requests of the tasks. -/
theorem Sound.admitted_append {n : Nat} (h : Sound past l tasks n) (hr : Admitted l.state.scheduler request)
    {w : Watch.Waiting α} (hw : requestOf (.waiting w) = some request) {t u : TaskId}
    {x : Suspended (Watch.Task α) (Watch.Waiting α)} {r : CompileRequest}
    (hm : (t, x) ∈ tasks ++ [(u, .waiting w)]) (hx : requestOf x = some r) :
    Admitted l.state.scheduler r := by
  rcases List.mem_append.mp hm with hm | hm
  · exact h.admitted t x r hm hx
  · rw [List.mem_singleton] at hm
    cases hm
    rw [hw] at hx
    cases hx
    exact hr

theorem Sound.unlock (h : Sound past l tasks 0) (ht : HasTurn l tasks) :
    Sound past ((Act.unlock (Watch.invocations trial).lockPlace).leaves l) tasks tasks.running := by
  rw [Act.leaves_unlock]
  exact { h with
    orderly := h.orderly.release ht.holds ht.lacks
    balanced := (h.orderly.running_eq_zero ht.holds ht.lacks).symm ▸ h.balanced
    faithful := { h.faithful with } }

/-- Who has the lock may end. -/
theorem Sound.unlocked (h : Sound past l tasks 0) (ht : HasTurn l tasks)
    (r : Except Failure (Conclusion α Unit))
    (hs : ∀ c, r = .ok c → c.outcome.request = request ∧ Settled l.state.scheduler request)
    {waits : Pause α → Loop Watch (Watch.Task α) → Prop} :
    (do
      Act.unlock (Watch.invocations trial).lockPlace
      pure (Step.ends r)).Reaches l waits (Sound.Ends past tasks request) := by
  rw [Act.reaches_bind, Act.reaches_ends]
  refine ⟨h.unlock ht, fun c hc => ?_⟩
  rw [Act.leaves_unlock]
  exact hs c hc

/-- The invocation of a request is over: its outcome is delivered if it is accepted. -/
theorem Sound.judge (h : Sound past l tasks 0) (ht : HasTurn l tasks)
    (hr : Admitted l.state.scheduler request) (f : Bool → CompileOutcome α)
    (hf : ∀ b, (f b).request = request ∧ (f b).accepted = b)
    {waits : Pause α → Loop Watch (Watch.Task α) → Prop} :
    (do
      let accepted ← (Watch.invocations trial).accept request
      (Watch.invocations trial).conclude (f accepted)).Reaches l waits
        (Sound.Ends past tasks request) := by
  have hleft : ((Watch.invocations trial).accept request).leaves l =
      { l with state := { l.state with scheduler := (l.state.scheduler.accept request).2 } } := rfl
  have hret : ((Watch.invocations trial).accept request).returns l =
      (l.state.scheduler.accept request).1 := rfl
  rw [Act.reaches_bind, hleft, hret, accept_snd]
  cases hp : (l.state.scheduler.accept request).1 with
  | false =>
      rw [Invocations.conclude, (hf false).2]
      apply h.unlocked ht
      intro c hc
      cases hc
      refine ⟨(hf false).1, hr, fun hg => ?_⟩
      obtain ⟨g, _, hle, rfl⟩ := hr
      have hnot := (not_congr accept_fst_iff).mp (by rw [hp]; exact Bool.false_ne_true)
      rcases Nat.lt_or_eq_of_le h.faithful.accepted_le with hlt | heq
      · exact absurd ⟨by rw [← hg], hlt⟩ hnot
      · exact heq
  | true =>
      obtain ⟨rfl, hlt⟩ := accept_fst_iff.mp hp
      have hreq := (hf true).1
      -- what the delivery leaves behind
      have h' : Sound past { l with state := {
          scheduler := { l.state.scheduler with accepted := l.state.scheduler.latest }
          seen := l.state.seen ++ [.delivered (f true).request l.state.scheduler.latest] } } tasks 0 :=
        { h with
          balanced := h.balanced.see (Nat.zero_le _) (by simp) (by simp)
          faithful := hreq ▸ h.faithful.deliver hlt
          settled := fun e he c hc => ⟨(h.settled e he c hc).1, fun _ => rfl⟩
          asked := (asked_append (by simp)).trans h.asked }
      have ht' : HasTurn { l with state := {
          scheduler := { l.state.scheduler with accepted := l.state.scheduler.latest }
          seen := l.state.seen ++ [.delivered (f true).request l.state.scheduler.latest] } } tasks :=
        { ht with }
      rw [Invocations.conclude, (hf true).2, if_pos rfl, Act.reaches_bind]
      have hdel : ((Watch.invocations trial).deliver (f true)).returns
          { l with state := { l.state with
            scheduler := { l.state.scheduler with accepted := l.state.scheduler.latest } } } =
          trial.delivery (f true) := rfl
      rw [if_pos rfl, hdel]
      cases trial.delivery (f true) with
      | ok u =>
          apply h'.unlocked ht'
          intro c hc
          cases hc
          exact ⟨hreq, hr, fun _ => rfl⟩
      | error e => exact h'.unlocked ht' _ fun c hc => by cases hc

/-- An invocation goes on to its next wait or its end. -/
theorem Sound.follow (h : Sound past l tasks 1) (ht : HasTurn l tasks)
    (hr : Admitted l.state.scheduler request) (r : CompileRequest) (course : Course α) :
    (Watch.follow r course).Reaches l
      (fun s => Sound.Waits past tasks l.current request ⟨trial, .invoking request s⟩)
      fun _ l' => Sound past l' tasks 0 ∧ HasTurn l' tasks ∧ Admitted l'.state.scheduler request := by
  cases course with
  | waits next =>
      refine ⟨{ h with orderly := ?_, balanced := ?_, admitted := ?_ }, rfl⟩
      · exact h.orderly.wait ht.holds ht.lacks ht.known _ _ _ _
      · rw [Tasks.running_append, h.orderly.running_eq_zero ht.holds ht.lacks]
        exact h.balanced
      · exact fun t x q hm hx => h.admitted_append hr rfl hm hx
  | ends result =>
      have h' : Sound past { l with state := { l.state with seen := l.state.seen ++ [.over r] } } tasks 0 :=
        { h with
          balanced := h.balanced.over r
          faithful := h.faithful.see (by simp)
          asked := (asked_append (by simp)).trans h.asked }
      exact ⟨h', { ht with }, hr⟩

/-- A request whose invocation ended goes on to its end. -/
theorem Sound.afterInvocation (h : Sound past l tasks 0) (ht : HasTurn l tasks)
    (hr : Admitted l.state.scheduler request) (r : Except Failure α)
    {waits : Pause α → Loop Watch (Watch.Task α) → Prop} :
    ((Watch.invocations trial).afterInvocation request r).Reaches l waits
      (Sound.Ends past tasks request) := by
  unfold Invocations.afterInvocation
  rw [Act.reaches_bind]
  have h' : Sound past
      (((Watch.invocations trial).update fun s => { s with inFlight := none }).leaves l) tasks 0 :=
    { h with faithful := { h.faithful with } }
  have ht' : HasTurn
      (((Watch.invocations trial).update fun s => { s with inFlight := none }).leaves l) tasks :=
    { ht with }
  cases r with
  | ok a => exact h'.judge ht' hr _ fun b => ⟨rfl, rfl⟩
  | error f =>
      cases f with
      | compiler e => exact h'.judge ht' hr _ fun b => ⟨rfl, rfl⟩
      | _ => exact h'.unlocked ht' _ fun c hc => by cases hc

/-- An invocation goes on, and if it ends the request goes on to its end. -/
theorem Sound.invoked (h : Sound past l tasks 1) (trial : Trial α) (ht : HasTurn l tasks)
    (hr : Admitted l.state.scheduler request) (r : CompileRequest) (course : Course α) :
    (Act.afterwards (Watch.follow r course) (.invoking request)
      ((Watch.invocations trial).afterInvocation request)).Reaches l
      (fun s => Sound.Waits past tasks l.current request ⟨trial, s⟩) (Sound.Ends past tasks request) := by
  rw [Act.reaches_afterwards]
  exact (h.follow ht hr r course).mono (fun _ _ hw => hw)
    fun res _ ⟨h', ht', hr'⟩ => h'.afterInvocation ht' hr' res

/-- The turn of a request has come. -/
theorem Sound.takeTurn (h : Sound past l tasks 0) (ht : HasTurn l tasks)
    (hr : Admitted l.state.scheduler request) :
    ((Watch.invocations trial).takeTurn request).Reaches l
      (fun s => Sound.Waits past tasks l.current request ⟨trial, s⟩) (Sound.Ends past tasks request) := by
  rw [Invocations.takeTurn, Act.reaches_bind, Act.reaches_ite]
  refine ⟨fun _ => ?_, fun hc => ?_⟩
  · rw [Act.reaches_bind]
    have hf := h.faithful.see (e := .began request) (by simp)
    have h' : Sound past { l with state := {
        scheduler := { l.state.scheduler with inFlight := some request }
        seen := l.state.seen ++ [.began request] } } tasks 1 :=
      { h with
        balanced := h.balanced.began request
        faithful := { hf with }
        asked := (asked_append (by simp)).trans h.asked }
    exact h'.invoked trial { ht with } hr request trial.course
  · -- a request that is not current is skipped; the latest is not among them
    apply h.unlocked ht
    intro c hc'
    cases hc'
    refine ⟨rfl, hr, fun hg => absurd ?_ hc⟩
    obtain ⟨g, _, _, rfl⟩ := hr
    exact isCurrent_iff.mpr (congrArg (CompileRequest.mk l.state.scheduler.workspace) hg)

/-- A task that nobody calls begins to run a request. -/
theorem Sound.run (h : Sound past l tasks tasks.running) (hk : l.current < l.nextTask)
    (hl : tasks.Lacks l.current) (hw : ∀ w ∈ l.ready, w.task ≠ l.current)
    (hg : ∀ g ∈ l.atGates, g.2 ≠ l.current) (hr : Admitted l.state.scheduler request) :
    ((Watch.invocations trial).run request).Reaches l
      (fun s => Sound.Waits past tasks l.current request ⟨trial, s⟩) (Sound.Ends past tasks request) := by
  rw [Invocations.run, Act.reaches_acquire]
  refine ⟨fun hn => ?_, fun hn => ?_⟩
  · have ho := h.orderly.take (t := l.current) hn
    have ht : HasTurn { l with
        state := (Watch.invocations trial).lockPlace.set
          ({ l.state.scheduler.lock with holder := some l.current }) l.state } tasks := ⟨hk, rfl, hl⟩
    refine Sound.takeTurn ?_ ht hr
    exact { h with
      orderly := ho
      balanced := ho.running_eq_zero rfl hl ▸ h.balanced
      faithful := { h.faithful with } }
  · refine ⟨{ h with orderly := ?_, balanced := ?_, faithful := { h.faithful with }, admitted := ?_ }, rfl⟩
    · exact h.orderly.queue hl hk hw hg trial request
    · rw [Tasks.running_append]
      exact h.balanced
    · exact fun t x q hm hx => h.admitted_append hr rfl hm hx

/-- A task that nobody calls asks for a request to be run. -/
theorem Sound.ask (h : Sound past l tasks tasks.running) (hk : l.current < l.nextTask)
    (hl : tasks.Lacks l.current) (hw : ∀ w ∈ l.ready, w.task ≠ l.current)
    (hg : ∀ g ∈ l.atGates, g.2 ≠ l.current) (hr : Admitted l.state.scheduler request) :
    (Watch.ask trial request).Reaches l
      (fun s => Sound.Waits { past with asked := past.asked ++ [(l.current, request)] } tasks l.current
        request ⟨trial, s⟩)
      (Sound.Ends { past with asked := past.asked ++ [(l.current, request)] } tasks request) := by
  rw [Watch.ask, Act.reaches_bind, Act.reaches_bind]
  have h' : Sound { past with asked := past.asked ++ [(l.current, request)] } { l with
      state := { l.state with seen := l.state.seen ++ [.asked l.current request] } } tasks
      tasks.running :=
    { h with
      balanced := h.balanced.see h.orderly.running_le_one (by simp) (by simp)
      faithful := h.faithful.see (by simp)
      asked := by simp [Scheduler.asked, ← h.asked] }
  exact h'.run hk hl hw hg hr

end Turn

end InkServer.Scheduler
