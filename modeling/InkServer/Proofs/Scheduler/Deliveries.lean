import InkServer.Proofs.Scheduler.Soundness
import Mathlib.Data.List.Nodup

/-!
# What a scheduler delivers

Whoever runs requests, in whatever order and however the invocations end: no two of them run at the same
time, and what is delivered is the latest that was admitted, each generation at most once and in rising
order. If nothing goes wrong the latest is delivered in the end: a request is skipped only if a later one
was admitted, so the latest never is.
-/

namespace InkServer.Scheduler

open Session

variable {α : Type}

/-! ## What a move keeps -/

/-- What has been by now. -/
def past (s : Trials α) : Past α := ⟨s.ended, asked s.loop.state.seen⟩

/-- A task that has asked for a request waits with it, or has ended; if it has not failed then with an
outcome of that request. -/
def Accounted (s : Trials α) (task : TaskId) (request : CompileRequest) : Prop :=
  (∃ x, (task, x) ∈ s.tasks ∧ requestOf x = some request) ∨
    ∃ r, (task, r) ∈ s.ended ∧ ∀ c, r = .ok c → c.outcome.request = request

/-- A scheduler and its tasks between two moves. -/
structure AtRest (s : Trials α) : Prop where
  sound : Sound (past s) s.loop s.tasks (Tasks.running s.tasks)
  accounted : ∀ p ∈ asked s.loop.state.seen, Accounted s p.1 p.2

/-- The tasks besides the one that is called next are sound. -/
theorem AtRest.called {s : Trials α} (h : AtRest s) {w : Wake} {rest : List Wake}
    (hr : s.loop.ready = w :: rest) :
    Sound (past s) { s.loop with ready := rest, current := w.task } (s.without w.task)
      (Tasks.running s.tasks) :=
  { h.sound with
    orderly := h.sound.orderly.fewer List.filter_sublist
      (fun v hv => ⟨v, hr ▸ List.mem_cons_of_mem _ hv, rfl, rfl⟩)
      (fun t => by
        rw [hr, List.filter_cons]
        split
        · exact Nat.le_succ _
        · exact Nat.le_refl _)
    admitted := fun t x r hm => h.sound.admitted t x r (mem_without.mp hm).1 }

theorem Admitted.issue {s : Scheduler} {r : CompileRequest} (h : Admitted s r) : Admitted s.issue.2 r := by
  obtain ⟨g, h0, hle, rfl⟩ := h
  exact ⟨g, h0, Nat.le_succ_of_le hle, rfl⟩

/-- What was settled was an earlier request once another is admitted. -/
theorem Settled.issue {s : Scheduler} {r : CompileRequest} (h : Settled s r) : Settled s.issue.2 r := by
  refine ⟨h.1.issue, fun hg => ?_⟩
  obtain ⟨g, _, hle, rfl⟩ := h.1
  have hg : g = s.latest + 1 := Int.ofNat.inj hg
  omega

/-- A request may be admitted at any time. -/
theorem Sound.issue {p : Past α} {l : Loop Watch (Watch.Task α)} {tasks : Tasks α} {n : Nat}
    (h : Sound p l tasks n) :
    Sound p { l with state := { l.state with scheduler := l.state.scheduler.issue.2 } } tasks n :=
  { h with
    faithful := { h.faithful with accepted_le := Nat.le_succ_of_le h.faithful.accepted_le }
    admitted := fun t x r hm hr => (h.admitted t x r hm hr).issue
    settled := fun e he c hc => (h.settled e he c hc).issue }

theorem admitted_issue (s : Scheduler) : Admitted s.issue.2 s.issue.1 :=
  ⟨s.latest + 1, Nat.succ_pos _, Nat.le_refl _, rfl⟩

theorem reaches_tried {trial : Trial α} {l : Loop Watch (Watch.Task α)}
    {run : Watch.WatchAct α (Step (Run (CompileRequest × (Signal → Course α))) (Conclusion α Unit))}
    {waits : Watch.Waiting α → Loop Watch (Watch.Task α) → Prop}
    {ends : Except Failure (Conclusion α Unit) → Loop Watch (Watch.Task α) → Prop} :
    (Watch.machine.tried trial run).Reaches l waits ends ↔
      run.Reaches l (fun s => waits ⟨trial, s⟩) ends := by
  rw [Watch.machine.tried, Act.reaches_afterwards]
  rfl

/-- Where a task comes to that is called: everything is sound, the request is still its own, and nobody else
has asked for one. -/
structure Goes (s : Trials α) (task : TaskId) (x : Suspended (Watch.Task α) (Watch.Waiting α))
    (l : Loop Watch (Watch.Task α)) (signal : Signal) (request : CompileRequest)
    (askers : List (TaskId × CompileRequest)) : Prop where
  same : requestOf x = none ∨ requestOf x = some request
  asked : ∀ p ∈ askers, p ∈ asked s.loop.state.seen ∨ p = (task, request)
  reaches : (Watch.machine.goesOn signal x).Reaches l
    (Sound.Waits ⟨s.ended, askers⟩ (s.without task) task request)
    (Sound.Ends ⟨s.ended, askers⟩ (s.without task) request)

/-- The task that is called goes on soundly. -/
theorem AtRest.goesOn {s : Trials α} (h : AtRest s) {w : Wake} {rest : List Wake}
    (hr : s.loop.ready = w :: rest) {x : Suspended (Watch.Task α) (Watch.Waiting α)}
    (hx : s.task? w.task = some x) :
    ∃ request askers,
      Goes s w.task x { s.loop with ready := rest, current := w.task } w.signal request askers := by
  have hm := mem_of_task? hx
  have hc := h.called hr
  have ho := h.sound.orderly
  have hrun : Tasks.running s.tasks =
    Tasks.running (s.without w.task) + if Tasks.isInside x then 1 else 0 :=
    Tasks.running_filter ho.distinct hm
  rw [hrun] at hc
  have hk : w.task < s.loop.nextTask := ho.known _ hm
  have hl : Tasks.Lacks (s.without w.task) w.task := Tasks.lacks_filter _
  cases x with
  | created task =>
      have hu : Tasks.Unbegun s.tasks w.task := ⟨task, hm⟩
      have hw : ∀ v ∈ rest, v.task ≠ w.task := by
        intro v hv he
        have := ho.calledOnce _ hu
        rw [hr, List.filter_cons, if_pos (by simp), List.length_cons] at this
        have hn : rest.filter (fun v => v.task = w.task) = [] := List.eq_nil_of_length_eq_zero (by omega)
        rw [List.filter_eq_nil_iff] at hn
        exact hn v hv (by simpa using he)
      have hg : ∀ g ∈ s.loop.atGates, g.2 ≠ w.task := fun g hg he => (ho.insideAtGate g hg).1 (he ▸ hu)
      have hask : ∀ request, ∀ p ∈ asked s.loop.state.seen ++ [(w.task, request)],
          p ∈ asked s.loop.state.seen ∨ p = (w.task, request) := by
        intro request p hp
        rwa [List.mem_append, List.mem_singleton] at hp
      cases task with
      | run request trial =>
          have hq := h.sound.admitted _ _ _ hm rfl
          cases hs : w.signal with
          | cancelled =>
              refine ⟨request, asked s.loop.state.seen, Or.inr rfl, fun _ hp => Or.inl hp, ?_⟩
              exact ⟨hc, fun c hc => by cases hc⟩
          | _ =>
              exact ⟨request, _, Or.inr rfl, hask request, reaches_tried.mpr (hc.ask hk hl hw hg hq)⟩
      | submit trial =>
          cases hs : w.signal with
          | cancelled =>
              refine ⟨⟨"", 0⟩, asked s.loop.state.seen, Or.inl rfl, fun _ hp => Or.inl hp, ?_⟩
              exact ⟨hc, fun c hc => by cases hc⟩
          | _ =>
              exact ⟨_, _, Or.inl rfl, hask _,
                reaches_tried.mpr (hc.issue.ask hk hl hw hg (admitted_issue _))⟩
  | waiting v =>
      obtain ⟨trial, run⟩ := v
      cases run with
      | queued request =>
          have hi : Tasks.InLine s.tasks w.task := ⟨trial, request, hm⟩
          have hheld := ho.wokenHolds w (hr ▸ List.mem_cons_self) hi
          have hq := h.sound.admitted _ _ _ hm rfl
          refine ⟨request, asked s.loop.state.seen, Or.inr rfl, fun _ hp => Or.inl hp, ?_⟩
          cases hs : w.signal with
          | cancelled =>
              refine reaches_tried.mpr ?_
              show (do
                Act.abandon (Watch.invocations trial).lockPlace
                pure (Step.fail .cancelled)).Reaches _ _ _
              rw [Act.reaches_bind, Act.leaves_abandon, Act.reaches_fail]
              refine ⟨?_, fun c hc => by cases hc⟩
              exact { hc with
                orderly := hc.orderly.leave hl
                faithful := { hc.faithful with } }
          | _ =>
              have ht : HasTurn { s.loop with ready := rest, current := w.task } (s.without w.task) :=
                ⟨hk, hheld.resolve_left (by rw [hs]; simp), hl⟩
              rw [hc.orderly.running_eq_zero ht.holds hl] at hc
              exact reaches_tried.mpr (hc.takeTurn ht hq)
      | invoking request state =>
          have hi : Tasks.Inside s.tasks w.task := ⟨trial, request, state, hm⟩
          have ht : HasTurn { s.loop with ready := rest, current := w.task } (s.without w.task) :=
            ⟨hk, ho.insideHolds _ hi, hl⟩
          rw [hc.orderly.running_eq_zero ht.holds hl] at hc
          exact ⟨request, asked s.loop.state.seen, Or.inr rfl, fun _ hp => Or.inl hp,
            reaches_tried.mpr (hc.invoked trial ht (h.sound.admitted _ _ _ hm rfl) _ _)⟩

/-- What is done from outside and creates no task is followed in what the tasks share alone. -/
theorem AtRest.act {s : Trials α} (h : AtRest s) {β : Type} {a : Watch.WatchAct α β}
    (hseen : (a.leaves s.loop).state.seen = s.loop.state.seen)
    (hs : Sound (past s) (a.leaves s.loop) s.tasks (Tasks.running s.tasks)) : AtRest (s.act a).2 := by
  rw [act_eq, adopt_of_created_eq_nil hs.created]
  refine ⟨{ hs with asked := rfl }, ?_⟩
  simp only [hseen]
  exact h.accounted

/-- A task may begin to run what was admitted. -/
theorem AtRest.begin {s : Trials α} (h : AtRest s) (task : Watch.Task α)
    (hq : ∀ r, requestOf (.created task) = some r → Admitted s.loop.state.scheduler r) :
    AtRest (s.act (discard (Act.create task))).2 := by
  have hacted : (s.act (discard (Act.create task))).2 =
      { s with
        tasks := s.tasks ++ [(s.loop.nextTask, .created task)]
        loop := { s.loop with
          nextTask := s.loop.nextTask + 1
          ready := s.loop.ready ++ [⟨s.loop.nextTask, .go, 0⟩] } } := by
    have hc := h.sound.created
    obtain ⟨⟨state, current, nextTask, ready, created, gatherings, closed, atGates⟩, tasks, ended⟩ := s
    simp only at hc
    subst hc
    rfl
  rw [hacted]
  refine ⟨{ h.sound with orderly := h.sound.orderly.begin task, balanced := ?_, admitted := ?_ }, ?_⟩
  · rw [Tasks.running_append]
    exact h.sound.balanced
  · intro t x r hm hr
    rcases List.mem_append.mp hm with hm | hm
    · exact h.sound.admitted t x r hm hr
    · rw [List.mem_singleton] at hm
      cases hm
      exact hq r hr
  · intro p hp
    rcases h.accounted p hp with ⟨x, hx, hr⟩ | he
    · exact Or.inl ⟨x, List.mem_append_left _ hx, hr⟩
    · exact Or.inr he

/-- A task that was called leaves everything sound. -/
theorem AtRest.ran {s : Trials α} (h : AtRest s) {w : Wake} {rest : List Wake}
    (hr : s.loop.ready = w :: rest) {x : Suspended (Watch.Task α) (Watch.Waiting α)}
    (hx : s.task? w.task = some x) :
    AtRest (({ s with loop := { s.loop with ready := rest } }).run Watch.machine w.task w.signal) := by
  obtain ⟨request, askers, hgo⟩ := h.goesOn hr hx
  have hm := mem_of_task? hx
  have told : ∀ p ∈ askers, p = (w.task, request) ∨
      (∃ y, (p.1, y) ∈ s.without w.task ∧ requestOf y = some p.2) ∨
      ∃ r, (p.1, r) ∈ s.ended ∧ ∀ c, r = .ok c → c.outcome.request = p.2 := by
    intro p hp
    rcases hgo.asked p hp with hp | hp
    · rcases h.accounted p hp with ⟨y, hy, hq⟩ | he
      · by_cases hw : p.1 = w.task
        · -- the task that was called has asked before, and its request is still its own
          rw [hw] at hy
          have hxy := List.inj_on_of_nodup_map h.sound.orderly.distinct hm hy rfl
          cases hxy
          rcases hgo.same with hs | hs
          · rw [hs] at hq
            cases hq
          · rw [hs, Option.some.injEq] at hq
            exact Or.inl (Prod.ext hw hq.symm)
        · exact Or.inr (Or.inl ⟨y, mem_without.mpr ⟨hy, hw⟩, hq⟩)
      · exact Or.inr (Or.inr he)
    · exact Or.inl hp
  refine run_of_reaches hx (hgo.reaches.mono ?_ ?_)
  · rintro v l ⟨hv, hq⟩
    rw [wentOn_waits hv.created]
    refine ⟨{ hv with asked := rfl }, ?_⟩
    intro p hp
    have hp : p ∈ asked l.state.seen := hp
    rw [hv.asked] at hp
    rcases told p hp with rfl | ⟨y, hy, hr⟩ | he
    · exact Or.inl ⟨_, List.mem_append_right _ List.mem_cons_self, hq⟩
    · exact Or.inl ⟨y, List.mem_append_left _ hy, hr⟩
    · exact Or.inr he
  · rintro r l ⟨hs, hr⟩
    rw [wentOn_ends hs.created hs.gatherings]
    refine ⟨{ hs with asked := rfl, settled := ?_ }, ?_⟩
    · intro e he c hc
      rcases List.mem_append.mp he with he | he
      · exact hs.settled e he c hc
      · rw [List.mem_singleton] at he
        subst he
        rw [(hr c hc).1]
        exact (hr c hc).2
    · intro p hp
      have hp : p ∈ asked l.state.seen := hp
      rw [hs.asked] at hp
      rcases told p hp with rfl | hy | ⟨q, hq, hc⟩
      · exact Or.inr ⟨r, List.mem_append_right _ List.mem_cons_self, fun c hc => (hr c hc).1⟩
      · exact Or.inl hy
      · exact Or.inr ⟨q, List.mem_append_left _ hq, hc⟩

/-- Every move keeps a scheduler sound. -/
theorem AtRest.advance {s : Trials α} (h : AtRest s) (move : Move (Watch.Outside α)) :
    AtRest (s.advance Watch.machine Watch.outside move) := by
  have ho := h.sound.orderly
  cases move with
  | turn =>
      refine turn_keeps h ?_ ?_ (fun w rest x hr hx => h.ran hr hx)
      · intro w rest n hr
        refine ⟨{ h.sound with orderly := ho.fewer (List.Sublist.refl _) ?_ ?_ }, h.accounted⟩
        · intro v hv
          rw [hr]
          rcases List.mem_append.mp hv with hv | hv
          · exact ⟨v, List.mem_cons_of_mem _ hv, rfl, rfl⟩
          · rw [List.mem_singleton] at hv
            exact ⟨w, List.mem_cons_self, by rw [hv], by rw [hv]⟩
        · intro t
          rw [hr, List.filter_append, List.filter_cons]
          split <;> simp [*]
      · intro w rest hr _
        refine ⟨{ h.sound with orderly := ho.fewer (List.Sublist.refl _) ?_ ?_ }, h.accounted⟩
        · exact fun v hv => ⟨v, hr ▸ List.mem_cons_of_mem _ hv, rfl, rfl⟩
        · intro t
          rw [hr, List.filter_cons]
          split <;> simp
  | cancels task =>
      simp only [Session.advance, Session.cancel]
      split
      · rename_i hp
        have hk : task < s.loop.nextTask := by
          obtain ⟨x, hx⟩ := Option.isSome_iff_exists.mp hp
          exact ho.known _ (mem_of_task? hx)
        refine h.act (a := Act.cancel task) rfl ?_
        rw [Act.leaves_cancel_of_gatherings_eq_nil h.sound.gatherings]
        exact { h.sound with orderly := ho.giveUp hk }
      · exact h
  | passes task signal =>
      have hpass : (Act.pass task signal).leaves s.loop =
          if s.loop.atGates.any fun w => w.2 = task then
            { s.loop with
              atGates := s.loop.atGates.filter fun w => w.2 ≠ task
              ready := s.loop.ready ++ [⟨task, signal, 0⟩] }
          else s.loop := rfl
      by_cases ha : s.loop.atGates.any fun w => w.2 = task
      · rw [if_pos ha] at hpass
        refine h.act (by rw [hpass]) ?_
        rw [hpass]
        obtain ⟨g, hg, he⟩ := List.any_eq_true.mp ha
        rw [decide_eq_true_eq] at he
        subst he
        exact { h.sound with orderly := ho.pass hg signal }
      · rw [if_neg ha] at hpass
        refine h.act (by rw [hpass]) ?_
        rw [hpass]
        exact h.sound
  | closes gate => exact h.act rfl { h.sound with }
  | opens gate => exact h.act rfl { h.sound with }
  | outside e =>
      cases e with
      | admission => exact h.act rfl h.sound.issue
      | run generation trial =>
          simp only [Session.advance, act_eq, Watch.outside, Act.leaves_bind, Act.leaves_ite]
          split
          · rename_i hg
            exact h.begin (.run ⟨s.loop.state.scheduler.workspace, generation⟩ trial) fun r hr => by
              cases hr
              exact ⟨generation, hg.1, hg.2, rfl⟩
          · exact h.act (a := pure ()) rfl h.sound
      | submit trial => exact h.begin _ fun r hr => by cases hr

theorem atRest_run (workspace : String) (moves : List (Move (Watch.Outside α))) :
    AtRest (Trials.run workspace moves) := by
  refine after_keeps ⟨?_, ?_⟩ (fun s move h => h.advance move) moves
  · exact {
      created := rfl
      gatherings := rfl
      orderly := {
        distinct := List.nodup_nil
        known := by simp [Trials.fresh, ofState]
        knownReady := by simp [Trials.fresh, ofState]
        knownAtGate := by simp [Trials.fresh, ofState]
        knownInLine := by simp [Trials.fresh, ofState]
        insideHolds := by simp [Trials.fresh, ofState, Tasks.Inside]
        wokenHolds := by simp [Trials.fresh, ofState]
        begunInLine := by simp [Trials.fresh, ofState]
        insideAtGate := by simp [Trials.fresh, ofState]
        calledOnce := by simp [Trials.fresh, ofState] }
      balanced := balanced_nil
      faithful := {
        accepted_le := Nat.le_refl _
        latest := by simp [Trials.fresh, ofState]
        rising := List.Pairwise.nil
        bounded := by simp [Trials.fresh, ofState, delivered]
        last := by simp [Trials.fresh, ofState] }
      admitted := by simp [Trials.fresh, ofState]
      settled := by simp [Trials.fresh, ofState, past]
      asked := rfl }
  · simp [Trials.fresh, ofState, asked]

/-! ## The guarantee -/

/-- However requests are admitted, run and cancelled, and however invocations and deliveries end: at most
one invocation runs at any time; what is delivered is the latest that was admitted by then; the generations
that are delivered rise; and once no task is pending, if every admitted request was asked for and nobody who
asked has failed, the latest was delivered and nothing after it. -/
theorem latest_request_is_delivered_last (workspace : String)
    (moves : List (Move (Watch.Outside α))) :
    let s : Trials α := Trials.run workspace moves
    (∀ first, first <+: s.state.seen → begun first ≤ finished first + 1) ∧
    (∀ r n, .delivered r n ∈ s.state.seen → r = ⟨s.state.scheduler.workspace, n⟩) ∧
    (delivered s.state.seen).Pairwise (· < ·) ∧
    (s.tasks = [] → 0 < s.state.scheduler.latest →
      (∀ r, Admitted s.state.scheduler r → ∃ task, (task, r) ∈ asked s.state.seen) →
      (∀ task r, (task, r) ∈ asked s.state.seen → ∀ e, (task, e) ∈ s.ended → ∃ c, e = .ok c) →
      (delivered s.state.seen).getLast? = some (s.state.scheduler.latest : Int)) := by
  intro s
  have h := atRest_run workspace moves
  refine ⟨h.sound.balanced.alone, h.sound.faithful.latest, h.sound.faithful.rising, ?_⟩
  intro hnone hpos hall hok
  have hadm : Admitted s.state.scheduler ⟨s.state.scheduler.workspace, s.state.scheduler.latest⟩ :=
    ⟨s.state.scheduler.latest, hpos, Nat.le_refl _, rfl⟩
  obtain ⟨task, hask⟩ := hall _ hadm
  rcases h.accounted _ hask with ⟨x, hx, _⟩ | ⟨e, he, hreq⟩
  · have hx : (task, x) ∈ s.tasks := hx
    rw [hnone] at hx
    cases hx
  · obtain ⟨c, rfl⟩ := hok task _ hask e he
    have hset := (h.sound.settled _ he c rfl).2
    rw [hreq c rfl] at hset
    have hacc : s.state.scheduler.accepted = s.state.scheduler.latest := hset rfl
    have hlast : 0 < s.state.scheduler.accepted →
      (delivered s.state.seen).getLast? = some (s.state.scheduler.accepted : Int) := h.sound.faithful.last
    rw [hacc] at hlast
    exact hlast hpos

/-- One request is overtaken while its invocation waits, and the next is run to its end. -/
def overtaking : List (Move (Watch.Outside Nat)) :=
  [.outside (.submit ⟨.waits fun _ => .ends (.ok 1), fun _ => .ok ()⟩), .turn,
    .outside (.submit ⟨.ends (.error (.compiler (.failed "no" false))), fun _ => .ok ()⟩), .turn,
    .passes 0 .go, .turn, .turn]

theorem overtaking_delivers_second :
    (delivered (Trials.run "w" overtaking).state.seen).getLast? = some 2 := by
  have hasked : asked (Trials.run "w" overtaking).state.seen = [(0, ⟨"w", 1⟩), (1, ⟨"w", 2⟩)] := by rfl
  refine (latest_request_is_delivered_last "w" overtaking).2.2.2 rfl (by decide) ?_ ?_
  · rintro r ⟨g, hpos, hle, rfl⟩
    have hle : g ≤ 2 := hle
    rw [hasked]
    obtain rfl | rfl : g = 1 ∨ g = 2 := by omega
    · exact ⟨0, by simp [Trials.run]; rfl⟩
    · exact ⟨1, by simp [Trials.run]; rfl⟩
  · intro task r _ e he
    have hended : (Trials.run "w" overtaking).ended.map (fun e => e.2.toOption.isSome) = [true, true] := by
      rfl
    have hsome := List.mem_map_of_mem (f := fun e => e.2.toOption.isSome) he
    rw [hended] at hsome
    cases e with
    | ok c => exact ⟨c, rfl⟩
    | error f => simp [Except.toOption] at hsome

end InkServer.Scheduler
