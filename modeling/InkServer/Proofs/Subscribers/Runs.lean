import InkServer.Proofs.Subscribers.Hearing

/-!
# Events under way

What holds of all tasks that hand out events, whatever becomes of the subscribers meanwhile: each has called a
first part of the handlers it began with, those that ended well have called all, and none but those that were
told to give up end otherwise. It is kept by every move, and with it by every run.
-/

namespace InkServer.Subscribers

open Watch

variable {π : Type} {methods : Methods π} {off : TaskId → Prop} {s s' : Trials π}

/-- What is known of a task that ended; those that are `off` were told to give up. -/
def Concludes (methods : Methods π) (off : TaskId → Prop) (seen : List (Sight π)) (task : TaskId)
    (r : Except Failure Unit) : Prop :=
  (r = .ok () ∧ ∃ news, HandsOut methods task news [] seen) ∨ r = .error .cancelled ∧ off task

/-- What was told of a task, if it was seen at all. -/
def IsTold (methods : Methods π) (seen : List (Sight π)) (task : TaskId) : Prop :=
  share seen task = [] ∨ ∃ news rest, HandsOut methods task news rest seen

/-- Somebody sees to a task: it is to run, or it waits at a gate. -/
def IsAttended (l : Loop (Watch π) (News π)) (task : TaskId) : Prop :=
  (∃ w ∈ l.ready, w.task = task) ∨ ∃ g ∈ l.atGates, g.2 = task

/-- Who is not the first that is to run still waits for the others. -/
theorem IsAttended.tail {l : Loop (Watch π) (News π)} {task : TaskId} (h : IsAttended l task) {w : Wake}
    {rest : List Wake} (hr : l.ready = w :: rest) (hne : w.task ≠ task) :
    IsAttended { l with ready := rest } task := by
  refine h.imp_left fun ⟨w', hw', heq⟩ => ⟨w', ?_, heq⟩
  rw [hr] at hw'
  rcases List.mem_cons.mp hw' with rfl | hw'
  · exact absurd heq hne
  · exact hw'

/-- What holds between two moves; those that are `off` were told to give up. -/
structure Sound (methods : Methods π) (off : TaskId → Prop) (s : Trials π) : Prop where
  created : s.loop.created = []
  gatherings : s.loop.gatherings = []
  faithful : s.loop.state.IsFaithful
  tasks : ∀ t x, (t, x) ∈ s.tasks → t < s.loop.nextTask ∧ Stands methods s.loop.state.seen t x ∧
    IsAttended s.loop t ∧ ∀ r, (t, r) ∉ s.ended
  ended : ∀ t r, (t, r) ∈ s.ended → t < s.loop.nextTask ∧ Concludes methods off s.loop.state.seen t r
  told : ∀ t, IsTold methods s.loop.state.seen t
  unborn : ∀ t, s.loop.nextTask ≤ t → share s.loop.state.seen t = []
  ready : ∀ w ∈ s.loop.ready, w.turns = 0 ∧ (w.signal = .cancelled → off w.task)

/-! ## What others do -/

namespace Bustle

variable {who? : Option TaskId} {l l' : Loop (Watch π) (News π)} {task : TaskId}

theorem stands (h : Bustle who? l l') (hne : who? ≠ some task)
    {x : Suspended (News π) (Distribution (Signal → Course π) π)} (hx : Stands methods l.state.seen task x) :
    Stands methods l'.state.seen task x := by
  cases x with
  | created news => exact (h.share_eq hne).trans hx
  | waiting d => exact h.handsOut hne hx

theorem concludes (h : Bustle who? l l') (hne : who? ≠ some task) {r : Except Failure Unit}
    (hr : Concludes methods off l.state.seen task r) : Concludes methods off l'.state.seen task r :=
  hr.imp_left fun ⟨hok, news, hn⟩ => ⟨hok, news, h.handsOut hne hn⟩

theorem isTold (h : Bustle who? l l') (hne : who? ≠ some task) (ht : IsTold methods l.state.seen task) :
    IsTold methods l'.state.seen task :=
  ht.imp (h.share_eq hne).trans fun ⟨news, rest, hn⟩ => ⟨news, rest, h.handsOut hne hn⟩

theorem isAttended (h : Bustle who? l l') (ht : IsAttended l task) : IsAttended l' task :=
  ht.imp (fun ⟨w, hw, he⟩ => ⟨w, h.ready_subset hw, he⟩) fun ⟨g, hg, he⟩ => ⟨g, h.atGates hg, he⟩

end Bustle

namespace Sound

/-- Tasks may be taken out, and who is to run and who waits may change as long as nobody is forgotten. -/
theorem rearranged (h : Sound methods off s) {tasks : List (TaskId × Suspended (News π) _)}
    {l : Loop (Watch π) (News π)} (hs : l.state = s.loop.state) (hn : l.nextTask = s.loop.nextTask)
    (hc : l.created = []) (hg : l.gatherings = []) (ht : ∀ t ∈ tasks, t ∈ s.tasks ∧ IsAttended l t.1)
    (hr : ∀ w ∈ l.ready, w.turns = 0 ∧ (w.signal = .cancelled → off w.task)) :
    Sound methods off { s with tasks, loop := l } where
  created := hc
  gatherings := hg
  faithful := by
    rw [hs]
    exact h.faithful
  tasks t x hx := by
    obtain ⟨hmem, hattended⟩ := ht (t, x) hx
    obtain ⟨hlt, hstands, -, hended⟩ := h.tasks t x hmem
    rw [hs, hn]
    exact ⟨hlt, hstands, hattended, hended⟩
  ended := by
    rw [hs, hn]
    exact h.ended
  told := by
    rw [hs]
    exact h.told
  unborn := by
    rw [hs, hn]
    exact h.unborn
  ready := hr

/-- Something happens while only the task `who?`, which is taken out, is seen. -/
theorem bustled (h : Sound methods off s) {who? : Option TaskId} {l : Loop (Watch π) (News π)}
    (hb : Bustle who? s.loop l)
    (hwho : ∀ t, who? = some t → t < s.loop.nextTask ∧ (∀ x, (t, x) ∉ s.tasks) ∧ (∀ r, (t, r) ∉ s.ended) ∧
      IsTold methods l.state.seen t) :
    Sound methods off ({ s with loop := l } : Trials π).adopt := by
  have hle := hb.nextTask
  have hother : ∀ t, (∃ x, (t, x) ∈ s.tasks) ∨ (∃ r, (t, r) ∈ s.ended) ∨ s.loop.nextTask ≤ t → who? ≠ some t := by
    rintro t ht heq
    obtain ⟨hlt, hx, hr, -⟩ := hwho t heq
    rcases ht with ⟨x, ht⟩ | ⟨r, ht⟩ | ht
    · exact hx x ht
    · exact hr r ht
    · exact Nat.not_lt.mpr ht hlt
  exact {
    created := rfl
    gatherings := hb.gatherings.trans h.gatherings
    faithful := hb.subscribers h.faithful
    tasks := by
      intro t x hx
      rcases List.mem_append.mp hx with hx | hx
      · obtain ⟨hlt, hstands, hattended, hended⟩ := h.tasks t x hx
        exact ⟨Nat.lt_of_lt_of_le hlt hle, hb.stands (hother t (.inl ⟨x, hx⟩)) hstands, hb.isAttended hattended, hended⟩
      · obtain ⟨c, hc, heq⟩ := List.mem_map.mp hx
        cases heq
        obtain ⟨hge, hlt, hw⟩ := hb.of_created h.created hc
        have hunborn := (hb.share_eq (hother c.1 (.inr (.inr hge)))).trans (h.unborn c.1 hge)
        exact ⟨hlt, hunborn, .inl hw, fun r hr => Nat.not_lt.mpr hge (h.ended c.1 r hr).1⟩
    ended := by
      intro t r hr
      obtain ⟨hlt, hconcludes⟩ := h.ended t r hr
      exact ⟨Nat.lt_of_lt_of_le hlt hle, hb.concludes (hother t (.inr (.inl ⟨r, hr⟩))) hconcludes⟩
    told := by
      intro t
      by_cases heq : who? = some t
      · exact (hwho t heq).2.2.2
      · exact hb.isTold heq (h.told t)
    unborn := by
      intro t ht
      have hge := Nat.le_trans hle ht
      exact (hb.share_eq (hother t (.inr (.inr hge)))).trans (h.unborn t hge)
    ready := by
      intro w hw
      obtain ⟨more, hr, hm⟩ := hb.ready
      have hw : w ∈ s.loop.ready ++ more := hr ▸ hw
      rcases List.mem_append.mp hw with hw | hw
      · exact h.ready w hw
      · exact ⟨(hm w hw).1, fun hs => by cases (hm w hw).2.symm.trans hs⟩ }

/-- A task that was taken out is filed again. -/
theorem file (h : Sound methods off s) {task : TaskId} (hlt : task < s.loop.nextTask)
    (ht : ∀ x, (task, x) ∉ s.tasks) (he : ∀ r, (task, r) ∉ s.ended)
    {step : Step (Distribution (Signal → Course π) π) Unit}
    (hw : ∀ d, step = .waits d → IsAttended s.loop task ∧ Stands methods s.loop.state.seen task (.waiting d))
    (hr : ∀ r, step = .ends r → Concludes methods off s.loop.state.seen task r) :
    Sound methods off (s.file task step) := by
  cases step with
  | waits d =>
      refine { h with tasks := ?_ }
      intro t x hx
      rcases List.mem_append.mp hx with hx | hx
      · exact h.tasks t x hx
      · cases List.mem_singleton.mp hx
        exact ⟨hlt, (hw d rfl).2, (hw d rfl).1, he⟩
  | ends r =>
      rw [Session.file_ends h.created, Act.leaves_noteEnd_of_gatherings_eq_nil h.gatherings]
      refine { h with tasks := ?_, ended := ?_ }
      · intro t x hx
        obtain ⟨hlt, hstands, hattended, hended⟩ := h.tasks t x hx
        refine ⟨hlt, hstands, hattended, fun r' hr' => ?_⟩
        rcases List.mem_append.mp hr' with hr' | hr'
        · exact hended r' hr'
        · cases List.mem_singleton.mp hr'
          exact ht x hx
      · intro t r' hr'
        rcases List.mem_append.mp hr' with hr' | hr'
        · exact h.ended t r' hr'
        · cases List.mem_singleton.mp hr'
          exact ⟨hlt, hr r rfl⟩

/-! ## Turns -/

/-- The first task that is ready is taken out to be run. -/
theorem takenOut (h : Sound methods off s) {w : Wake} {rest : List Wake} (hr : s.loop.ready = w :: rest) :
    Sound methods off { s with
      tasks := s.without w.task, loop := { s.loop with ready := rest, current := w.task } } := by
  apply h.rearranged (l := { s.loop with ready := rest, current := w.task }) rfl rfl h.created h.gatherings
  · intro t ht
    obtain ⟨hmem, hne⟩ := Session.mem_without.mp ht
    obtain ⟨-, -, hattended, -⟩ := h.tasks t.1 t.2 hmem
    exact ⟨hmem, hattended.tail hr (Ne.symm hne)⟩
  · intro w' hw'
    exact h.ready w' (hr ▸ List.mem_cons_of_mem _ hw')

/-- What the first task that is ready comes to when it is run. -/
theorem reaches_goesOn (h : Sound methods off s) {w : Wake} {rest : List Wake} (hr : s.loop.ready = w :: rest)
    {x : Suspended (News π) (Distribution (Signal → Course π) π)} (hx : s.task? w.task = some x) :
    ((machine methods).goesOn w.signal x).Reaches { s.loop with ready := rest, current := w.task }
      (fun d l => Bustle (some w.task) { s.loop with ready := rest, current := w.task } l ∧
        IsTold methods l.state.seen w.task ∧ IsAtGate l ∧ Stands methods l.state.seen w.task (.waiting d))
      fun r l => Bustle (some w.task) { s.loop with ready := rest, current := w.task } l ∧
        IsTold methods l.state.seen w.task ∧ Concludes methods off l.state.seen w.task r := by
  obtain ⟨-, hstands, -, -⟩ := h.tasks w.task x (Session.mem_of_task? hx)
  by_cases hs : w.signal = .cancelled
  · rw [hs, goesOn_cancelled]
    have ho := (h.ready w (hr ▸ List.mem_cons_self)).2 hs
    exact ⟨.refl _ _, h.told w.task, .inr ⟨rfl, ho⟩⟩
  · obtain ⟨news, hd⟩ := delivers_goesOn hs (l := { s.loop with ready := rest, current := w.task }) h.faithful hstands
    apply hd.mono
    · rintro d l ⟨hb, hgate, ⟨hm, hp⟩, ho⟩
      have hnews : (⟨d.method, d.params⟩ : News π) = news := by rw [hm, hp]
      have ho' : HandsOut methods w.task ⟨d.method, d.params⟩ d.rest l.state.seen := hnews ▸ ho
      exact ⟨hb, .inr ⟨news, d.rest, ho⟩, hgate, ho'⟩
    · rintro r l ⟨hb, hok, ho⟩
      exact ⟨hb, .inr ⟨news, [], ho⟩, .inl ⟨hok, news, ho⟩⟩

/-- The task that was taken out goes on to its next wait or its end. -/
theorem wentOn (h : Sound methods off s) {w : Wake} {rest : List Wake} (hr : s.loop.ready = w :: rest)
    {x : Suspended (News π) (Distribution (Signal → Course π) π)} (hx : (w.task, x) ∈ s.tasks)
    {l : Loop (Watch π) (News π)} (hb : Bustle (some w.task) { s.loop with ready := rest, current := w.task } l)
    (ht : IsTold methods l.state.seen w.task) {step : Step (Distribution (Signal → Course π) π) Unit}
    (hwaits : ∀ d, step = .waits d → IsAtGate l ∧ Stands methods l.state.seen w.task (.waiting d))
    (hends : ∀ r, step = .ends r → Concludes methods off l.state.seen w.task r) :
    Sound methods off (({ s with loop := { s.loop with ready := rest } } : Trials π).wentOn w.task step l) := by
  obtain ⟨hlt, -, -, he⟩ := h.tasks w.task x hx
  have hout : ∀ x, (w.task, x) ∉ s.without w.task := fun x hx => (Session.mem_without.mp hx).2 rfl
  have hadopted := (h.takenOut hr).bustled hb fun t heq => by
    cases heq
    exact ⟨hlt, hout, he, ht⟩
  apply hadopted.file (Nat.lt_of_lt_of_le hlt hb.nextTask) _ he
  · intro d hd
    obtain ⟨⟨g, hg, hcurrent⟩, hstands⟩ := hwaits d hd
    exact ⟨.inr ⟨g, hg, hcurrent.trans hb.current⟩, hstands⟩
  · exact hends
  · intro y hy
    rcases List.mem_append.mp hy with hy | hy
    · exact hout y hy
    · obtain ⟨c, hc, heq⟩ := List.mem_map.mp hy
      have heq : c.1 = w.task := congrArg Prod.fst heq
      exact Nat.not_lt.mpr (hb.of_created h.created hc).1 (heq ▸ hlt)

theorem ran (h : Sound methods off s) {w : Wake} {rest : List Wake} (hr : s.loop.ready = w :: rest)
    {x : Suspended (News π) (Distribution (Signal → Course π) π)} (hx : s.task? w.task = some x) :
    Sound methods off
      (({ s with loop := { s.loop with ready := rest } } : Trials π).run (machine methods) w.task w.signal) := by
  have hmem := Session.mem_of_task? hx
  refine Session.run_of_reaches hx ((h.reaches_goesOn hr hx).mono ?_ ?_)
  · rintro d l ⟨hb, ht, hgate, hstands⟩
    exact h.wentOn hr hmem hb ht (fun d' hd => by cases hd; exact ⟨hgate, hstands⟩) nofun
  · rintro r l ⟨hb, ht, hconcludes⟩
    exact h.wentOn hr hmem hb ht nofun fun r' hr => by cases hr; exact hconcludes

theorem turn (h : Sound methods off s) : Sound methods off (s.advance (machine methods) outside .turn) := by
  cases hr : s.loop.ready with
  | nil =>
      rw [Session.advance_turn_of_nil hr]
      exact h
  | cons w rest =>
      rw [Session.advance_turn hr (h.ready w (hr ▸ List.mem_cons_self)).1]
      cases hx : s.task? w.task with
      | some x => exact h.ran hr hx
      | none =>
          rw [Session.run_of_task?_eq_none hx]
          apply h.rearranged (l := { s.loop with ready := rest }) rfl rfl h.created h.gatherings
          · intro t ht
            obtain ⟨-, -, hattended, -⟩ := h.tasks t.1 t.2 ht
            refine ⟨ht, hattended.tail hr fun heq => ?_⟩
            rw [heq] at hx
            exact Session.not_mem_of_task? hx t.2 ht
          · exact fun w' hw' => h.ready w' (hr ▸ List.mem_cons_of_mem _ hw')

/-! ## Moves from outside -/

/-- Something is done that changes at most who is to run and who waits. -/
theorem acts (h : Sound methods off s) {a : WatchAct π Unit} {l : Loop (Watch π) (News π)}
    (ha : a.leaves s.loop = l) (hs : l.state = s.loop.state) (hn : l.nextTask = s.loop.nextTask)
    (hc : l.created = s.loop.created) (hg : l.gatherings = s.loop.gatherings)
    (ht : ∀ task, IsAttended s.loop task → IsAttended l task)
    (hr : ∀ w ∈ l.ready, w ∈ s.loop.ready ∨ w.turns = 0 ∧ (w.signal = .cancelled → off w.task)) :
    Sound methods off (s.act a).2 := by
  have hc := hc.trans h.created
  rw [Session.act_eq, ha, Session.adopt_of_created_eq_nil hc]
  apply h.rearranged hs hn hc (hg.trans h.gatherings)
  · exact fun t hmem => ⟨hmem, ht t.1 (h.tasks t.1 t.2 hmem).2.2.1⟩
  · exact fun w hw => (hr w hw).elim (h.ready w) id

/-- A task is told something instead of what it waits for. -/
theorem signalled (h : Sound methods off s) {a : WatchAct π Unit} {task : TaskId} {signal : Signal}
    (ho : signal = .cancelled → off task) {kept : List Wake} (hk : ∀ w ∈ kept, w ∈ s.loop.ready)
    (hk' : ∀ w ∈ s.loop.ready, w.task ≠ task → w ∈ kept)
    (ha : a.leaves s.loop = { s.loop with
      ready := kept ++ [⟨task, signal, 0⟩], atGates := s.loop.atGates.filter fun w => w.2 ≠ task }) :
    Sound methods off (s.act a).2 := by
  apply h.acts ha rfl rfl rfl rfl
  · intro t ht
    by_cases heq : t = task
    · exact .inl ⟨_, List.mem_append_right _ List.mem_cons_self, heq.symm⟩
    · apply ht.imp
      · rintro ⟨w, hw, rfl⟩
        exact ⟨w, List.mem_append_left _ (hk' w hw heq), rfl⟩
      · rintro ⟨g, hg, rfl⟩
        exact ⟨g, List.mem_filter.mpr ⟨hg, by simpa using heq⟩, rfl⟩
  · intro w hw
    rcases List.mem_append.mp hw with hw | hw
    · exact .inl (hk w hw)
    · rw [List.mem_singleton.mp hw]
      exact .inr ⟨rfl, ho⟩

theorem cancel (h : Sound methods off s) {task : TaskId} (ho : off task) : Sound methods off (s.cancel task).2 := by
  unfold Session.cancel
  split
  · show Sound methods off (s.act (Act.cancel task)).2
    apply h.signalled (fun _ => ho) _ _ (Act.leaves_cancel_of_gatherings_eq_nil h.gatherings task)
    · exact fun w hw => (List.mem_filter.mp hw).1
    · intro w hw hne
      exact List.mem_filter.mpr ⟨hw, by simpa using hne⟩
  · exact h

theorem pass (h : Sound methods off s) {task : TaskId} {signal : Signal} (ho : signal = .cancelled → off task) :
    Sound methods off (s.act (Act.pass task signal)).2 := by
  by_cases hg : s.loop.atGates.any fun w => w.2 = task
  · exact h.signalled ho (fun _ hw => hw) (fun _ hw _ => hw) (if_pos hg)
  · exact h.acts (if_neg hg) rfl rfl rfl rfl (fun _ => id) fun _ => .inl

theorem outside (h : Sound methods off s) (e : Outside π) : Sound methods off (s.act (Watch.outside e)).2 := by
  rw [Session.act_eq]
  cases e with
  | deed deed => exact h.bustled (Bustle.change deed s.loop) nofun
  | news news => exact h.bustled (Bustle.create news s.loop) nofun

theorem advance (h : Sound methods off s) (move : Session.Move (Outside π))
    (ho : ∀ task, move = .cancels task ∨ move = .passes task .cancelled → off task) :
    Sound methods off (s.advance (machine methods) Watch.outside move) := by
  cases move with
  | turn => exact h.turn
  | cancels task => exact h.cancel (ho task (.inl rfl))
  | passes task signal => exact h.pass fun heq => ho task (.inr (by rw [heq]))
  | closes gate => exact h.acts rfl rfl rfl rfl rfl (fun _ => id) fun _ => .inl
  | opens gate => exact h.acts rfl rfl rfl rfl rfl (fun _ => id) fun _ => .inl
  | outside e => exact h.outside e

theorem after (h : Sound methods off s) {moves : List (Session.Move (Outside π))}
    (ho : ∀ task, .cancels task ∈ moves ∨ .passes task .cancelled ∈ moves → off task) :
    Sound methods off (s.after (machine methods) Watch.outside moves) := by
  induction moves generalizing s with
  | nil => exact h
  | cons move moves ih =>
      apply ih
      · apply h.advance move
        rintro task (rfl | rfl)
        · exact ho task (.inl List.mem_cons_self)
        · exact ho task (.inr List.mem_cons_self)
      · intro task hm
        exact ho task (hm.imp (List.mem_cons_of_mem _) (List.mem_cons_of_mem _))

end Sound

/-- At first nobody is there, and nothing is under way. -/
theorem sound_ofState (methods : Methods π) (off : TaskId → Prop) :
    Sound methods off (Session.ofState {} : Trials π) where
  created := rfl
  gatherings := rfl
  faithful := rfl
  tasks _ _ h := nomatch h
  ended _ _ h := nomatch h
  told _ := .inl rfl
  unborn _ _ := rfl
  ready _ h := nomatch h

/-- A task was told to give up. -/
def IsCalledOff (moves : List (Session.Move (Outside π))) (task : TaskId) : Prop :=
  .cancels task ∈ moves ∨ .passes task .cancelled ∈ moves

theorem sound_run (methods : Methods π) (moves : List (Session.Move (Outside π))) :
    Sound methods (IsCalledOff moves) (Trials.run methods moves) :=
  (sound_ofState methods _).after fun _ => id

end InkServer.Subscribers
