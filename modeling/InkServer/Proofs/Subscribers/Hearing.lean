import InkServer.Proofs.Subscribers.Trial

/-!
# Who hears of an event

What a task has told so far of handing out an event is read off what was seen. `HandsOut` says that it began
when some handlers were there, that it called those of the first of them that have the method, in their order and
each once, and who of them is left. This is kept up to the next wait whatever the handlers do.
-/

namespace InkServer.Subscribers

variable {π : Type}

/-! ## What was seen -/

/-- The task that was seen at work. -/
def Sight.task? : Sight π → Option TaskId
  | .began task _ | .called task _ _ => some task
  | .did _ => none

def Sight.apply (c : Subscribers) : Sight π → Subscribers
  | .did deed => deed.apply c
  | _ => c

/-- The subscribers that there are once all this was seen, nobody at first. -/
def registered (seen : List (Sight π)) : Subscribers := seen.foldl Sight.apply {}

/-- What was seen of one task. -/
def share (seen : List (Sight π)) (task : TaskId) : List (Sight π) := seen.filter fun e => e.task? = some task

@[simp] theorem registered_append (seen more : List (Sight π)) :
    registered (seen ++ more) = more.foldl Sight.apply (registered seen) :=
  List.foldl_append

@[simp] theorem share_append (seen more : List (Sight π)) (task : TaskId) :
    share (seen ++ more) task = share seen task ++ share more task :=
  List.filter_append ..

@[simp] theorem share_began (task : TaskId) (news : News π) (seen : List (Sight π)) :
    share (.began task news :: seen) task = .began task news :: share seen task := by
  simp [share, Sight.task?]

@[simp] theorem share_called (task : TaskId) (handler : String) (news : News π) :
    share [.called task handler news] task = [.called task handler news] := by
  simp [share, Sight.task?]

theorem share_eq_nil {seen : List (Sight π)} {task : TaskId} :
    share seen task = [] ↔ ∀ e ∈ seen, e.task? ≠ some task := by
  simp [share, List.filter_eq_nil_iff]

theorem mem_share {seen : List (Sight π)} {task : TaskId} {news : News π} (h : .began task news ∈ seen) :
    .began task news ∈ share seen task := by
  apply List.mem_filter.mpr
  simp [h, Sight.task?]

/-- Nothing that may be done to the subscribers puts a handler there twice. -/
theorem Deed.nodup_apply {c : Subscribers} (h : c.handlers.Nodup) (deed : Deed) : (deed.apply c).handlers.Nodup := by
  cases deed with
  | registers handler => exact nodup_register h
  | unregisters handler => exact h.filter _
  | clears => exact List.nodup_nil

theorem nodup_registered (seen : List (Sight π)) : (registered seen).handlers.Nodup := by
  apply List.foldlRecOn (motive := fun c : Subscribers => c.handlers.Nodup) seen Sight.apply List.nodup_nil
  intro c hc e _
  cases e with
  | did deed => exact deed.nodup_apply hc
  | _ => exact hc

/-! ## Handing out an event -/

/-- The calls of those of some handlers that have the method. -/
def calls (methods : Methods π) (task : TaskId) (news : News π) (handlers : List String) : List (Sight π) :=
  (handlers.filter fun handler => (methods handler news.method).isSome).map (.called task · news)

/-- A task began to hand out an event and has called all those that were there when it began and have the
method, but for the last handlers, `rest`, whose turn has not come. -/
def HandsOut (methods : Methods π) (task : TaskId) (news : News π) (rest : List String) (seen : List (Sight π)) :
    Prop :=
  ∃ before after asked, seen = before ++ .began task news :: after ∧ (registered before).handlers = asked ++ rest ∧
    share before task = [] ∧ share after task = calls methods task news asked

namespace HandsOut

variable {methods : Methods π} {task : TaskId} {news : News π} {handler : String} {rest : List String}
  {seen : List (Sight π)}

theorem begins (methods : Methods π) (news : News π) (h : share seen task = []) :
    HandsOut methods task news (registered seen).handlers (seen ++ [.began task news]) :=
  ⟨seen, [], [], rfl, rfl, h, rfl⟩

theorem later (h : HandsOut methods task news rest seen) {more : List (Sight π)} (hm : share more task = []) :
    HandsOut methods task news rest (seen ++ more) := by
  obtain ⟨before, after, asked, rfl, hr, hb, ha⟩ := h
  refine ⟨before, after ++ more, asked, by simp, hr, hb, ?_⟩
  rw [share_append, ha, hm, List.append_nil]

theorem skips (h : HandsOut methods task news (handler :: rest) seen) (hm : methods handler news.method = none) :
    HandsOut methods task news rest seen := by
  obtain ⟨before, after, asked, hs, hr, hb, ha⟩ := h
  refine ⟨before, after, asked ++ [handler], hs, by simp [hr], hb, ?_⟩
  rw [ha]
  simp [calls, hm]

theorem asks (h : HandsOut methods task news (handler :: rest) seen) {course : π → Course π}
    (hm : methods handler news.method = some course) :
    HandsOut methods task news rest (seen ++ [.called task handler news]) := by
  obtain ⟨before, after, asked, rfl, hr, hb, ha⟩ := h
  refine ⟨before, after ++ [.called task handler news], asked ++ [handler], by simp, by simp [hr], hb, ?_⟩
  rw [share_append, ha, share_called]
  simp [calls, hm]

theorem share_eq (h : HandsOut methods task news rest seen) :
    ∃ asked, share seen task = .began task news :: calls methods task news asked := by
  obtain ⟨before, after, asked, rfl, -, hb, ha⟩ := h
  exact ⟨asked, by rw [share_append, hb, share_began, ha, List.nil_append]⟩

/-- A task hands out one event. -/
theorem eq_of_began (h : HandsOut methods task news rest seen) {news' : News π} (hb : .began task news' ∈ seen) :
    news' = news := by
  obtain ⟨asked, hs⟩ := h.share_eq
  have hb := mem_share hb
  simpa [hs, calls] using hb

end HandsOut

/-! ## What handlers may do -/

/-- The subscribers are as what was seen has made them. -/
def Watch.IsFaithful (w : Watch π) : Prop := w.subscribers = registered w.seen

theorem Watch.IsFaithful.note {w : Watch π} (h : w.IsFaithful) {e : Sight π} (he : e.task? ≠ none) :
    (w.note e).IsFaithful := by
  cases e with
  | did deed => simp [Sight.task?] at he
  | _ => simpa [IsFaithful, Watch.note, Sight.apply] using h

theorem Watch.IsFaithful.change {w : Watch π} (h : w.IsFaithful) (deed : Deed) : (w.change deed).IsFaithful := by
  have h : w.subscribers = registered w.seen := h
  simp [IsFaithful, Watch.change, Sight.apply, h]

/-- What may become of what the tasks share up to a wait: tasks are created and made ready, something is done to
the subscribers, and of all tasks only `who?` is seen. -/
structure Bustle (who? : Option TaskId) (l l' : Loop (Watch π) (News π)) : Prop where
  current : l'.current = l.current
  gatherings : l'.gatherings = l.gatherings
  nextTask : l.nextTask ≤ l'.nextTask
  created : ∀ c ∈ l'.created, c ∈ l.created ∨
    l.nextTask ≤ c.1 ∧ c.1 < l'.nextTask ∧ ∃ w ∈ l'.ready, w.task = c.1
  ready : ∃ more, l'.ready = l.ready ++ more ∧ ∀ w ∈ more, w.turns = 0 ∧ w.signal = .go
  atGates : l.atGates ⊆ l'.atGates
  seen : ∃ more, l'.state.seen = l.state.seen ++ more ∧ ∀ e ∈ more, e.task? = none ∨ e.task? = who?
  subscribers : l.state.IsFaithful → l'.state.IsFaithful

namespace Bustle

variable {who? : Option TaskId} {l l₁ l' : Loop (Watch π) (News π)}

theorem refl (who? : Option TaskId) (l : Loop (Watch π) (News π)) : Bustle who? l l where
  current := rfl
  gatherings := rfl
  nextTask := Nat.le_refl _
  created _ hc := .inl hc
  ready := ⟨[], by simp⟩
  atGates := List.Subset.refl _
  seen := ⟨[], by simp⟩
  subscribers h := h

theorem ready_subset (h : Bustle who? l l') : l.ready ⊆ l'.ready := by
  obtain ⟨more, hr, -⟩ := h.ready
  rw [hr]
  exact List.subset_append_left ..

theorem trans (h : Bustle who? l l₁) (h' : Bustle who? l₁ l') : Bustle who? l l' where
  current := h'.current.trans h.current
  gatherings := h'.gatherings.trans h.gatherings
  nextTask := Nat.le_trans h.nextTask h'.nextTask
  created c hc := by
    have hle := h.nextTask
    have hle' := h'.nextTask
    rcases h'.created c hc with hc | ⟨hl, hn, hw⟩
    · rcases h.created c hc with hc | ⟨hl, hn, w, hw, ht⟩
      · exact .inl hc
      · exact .inr ⟨hl, Nat.lt_of_lt_of_le hn hle', w, h'.ready_subset hw, ht⟩
    · exact .inr ⟨Nat.le_trans hle hl, hn, hw⟩
  ready := by
    obtain ⟨more, hr, hm⟩ := h.ready
    obtain ⟨more', hr', hm'⟩ := h'.ready
    refine ⟨more ++ more', by rw [hr', hr, List.append_assoc], ?_⟩
    exact List.forall_mem_append.mpr ⟨hm, hm'⟩
  atGates := List.Subset.trans h.atGates h'.atGates
  seen := by
    obtain ⟨more, hs, hm⟩ := h.seen
    obtain ⟨more', hs', hm'⟩ := h'.seen
    refine ⟨more ++ more', by rw [hs', hs, List.append_assoc], ?_⟩
    exact List.forall_mem_append.mpr ⟨hm, hm'⟩
  subscribers hl := h'.subscribers (h.subscribers hl)

/-- The tasks that were created meanwhile are new, and are to run. -/
theorem of_created (h : Bustle who? l l') (hl : l.created = []) {c : TaskId × News π} (hc : c ∈ l'.created) :
    l.nextTask ≤ c.1 ∧ c.1 < l'.nextTask ∧ ∃ w ∈ l'.ready, w.task = c.1 := by
  rcases h.created c hc with hold | hnew
  · rw [hl] at hold
    cases hold
  · exact hnew

/-- What may happen while no task is seen may also happen where one may be. -/
theorem mono (h : Bustle none l l') (who? : Option TaskId) : Bustle who? l l' := by
  obtain ⟨more, hs, hm⟩ := h.seen
  exact { h with seen := ⟨more, hs, fun e he => .inl ((hm e he).elim id id)⟩ }

theorem change (deed : Deed) (l : Loop (Watch π) (News π)) :
    Bustle none l { l with state := l.state.change deed } :=
  { refl none l with
    seen := ⟨[.did deed], rfl, by simp [Sight.task?]⟩
    subscribers := fun h => h.change deed }

theorem note {e : Sight π} (he : e.task? = some l.current) :
    Bustle (some l.current) l { l with state := l.state.note e } :=
  { refl (some l.current) l with
    seen := ⟨[e], rfl, by simp [he]⟩
    subscribers := fun h => h.note (by simp [he]) }

theorem create (news : News π) (l : Loop (Watch π) (News π)) :
    Bustle none l ((discard (Act.create news) : Act (Watch π) (News π) Unit).leaves l) where
  current := rfl
  gatherings := rfl
  nextTask := Nat.le_succ _
  created c hc := by
    have hc : c ∈ l.created ++ [(l.nextTask, news)] := hc
    rcases List.mem_append.mp hc with hc | hc
    · exact .inl hc
    · rw [List.mem_singleton.mp hc]
      exact .inr ⟨Nat.le_refl _, Nat.lt_succ_self _, ⟨l.nextTask, .go, 0⟩, List.mem_append_right _ (by simp), rfl⟩
  ready := ⟨[⟨l.nextTask, .go, 0⟩], rfl, by simp⟩
  atGates := List.Subset.refl _
  seen := ⟨[], by simp; rfl⟩
  subscribers h := h

theorem waitAt (gate : String) (l : Loop (Watch π) (News π)) :
    Bustle none l { l with atGates := l.atGates ++ [(gate, l.current)] } :=
  { refl none l with atGates := List.subset_append_left .. }

/-- What is seen of other tasks stays as it is. -/
theorem seen_other (h : Bustle who? l l') {task : TaskId} (hne : who? ≠ some task) :
    ∃ more, l'.state.seen = l.state.seen ++ more ∧ share more task = [] := by
  obtain ⟨more, hs, hm⟩ := h.seen
  refine ⟨more, hs, share_eq_nil.mpr fun e he => ?_⟩
  rcases hm e he with hn | hw
  · simp [hn]
  · rw [hw]
    exact hne

theorem handsOut (h : Bustle who? l l') {methods : Methods π} {task : TaskId} {news : News π} {rest : List String}
    (hne : who? ≠ some task) (ho : HandsOut methods task news rest l.state.seen) :
    HandsOut methods task news rest l'.state.seen := by
  obtain ⟨more, hs, hm⟩ := h.seen_other hne
  rw [hs]
  exact ho.later hm

theorem share_eq (h : Bustle who? l l') {task : TaskId} (hne : who? ≠ some task) :
    share l'.state.seen task = share l.state.seen task := by
  obtain ⟨more, hs, hm⟩ := h.seen_other hne
  rw [hs, share_append, hm, List.append_nil]

end Bustle

/-! ## Up to the next wait -/

/-- The task that runs waits at a gate. -/
def IsAtGate (l : Loop (Watch π) (News π)) : Prop := ∃ g ∈ l.atGates, g.2 = l.current

namespace Watch

open Act

/-- A handler that is followed does not make the event be given up. -/
theorem bustle_follow (course : Course π) (l : Loop (Watch π) (News π)) :
    (follow course).Reaches l (fun _ l' => Bustle none l l' ∧ IsAtGate l')
      fun r l' => Bustle none l l' ∧ r ≠ .error .cancelled := by
  induction course generalizing l with
  | returns => exact ⟨.refl none l, nofun⟩
  | raises trouble => exact ⟨.refl none l, fun h => trouble.2 (Except.error.inj h)⟩
  | waits next => exact ⟨.waitAt "handler" l, ("handler", l.current), List.mem_append_right _ List.mem_cons_self, rfl⟩
  | does deed next ih =>
      rw [follow, reaches_bind]
      have hb := Bustle.change deed l
      exact (ih _).mono (fun _ _ h => ⟨hb.trans h.1, h.2⟩) fun _ _ h => ⟨hb.trans h.1, h.2⟩
  | tells news next ih =>
      rw [follow, reaches_bind]
      have hb := Bustle.create news l
      exact (ih _).mono (fun _ _ h => ⟨hb.trans h.1, h.2⟩) fun _ _ h => ⟨hb.trans h.1, h.2⟩
  | looks next ih =>
      rw [follow, reaches_bind]
      exact ih l.state l

variable {methods : Methods π} {task : TaskId} {news : News π}

/-- What is done once a handler is through: the rest is called unless the event is given up. -/
def callRest (methods : Methods π) (method : String) (params : π) (rest : List String) :
    Except Failure Unit → WatchAct π (Step (Distribution (Signal → Course π) π) Unit)
  | .error .cancelled => pure (.fail .cancelled)
  | _ => (handlers methods).callAll method params rest

theorem callRest_of_ne {r : Except Failure Unit} (hr : r ≠ .error .cancelled) (method : String) (params : π)
    (rest : List String) :
    callRest methods method params rest r = (handlers methods).callAll method params rest := by
  unfold callRest
  split
  · exact absurd rfl hr
  · rfl

/-- A handler is followed, and then the rest is called. -/
def followAnd (methods : Methods π) (method : String) (params : π) (rest : List String) (course : Course π) :
    WatchAct π (Step (Distribution (Signal → Course π) π) Unit) :=
  afterwards (follow course) (fun busy => ⟨method, params, rest, busy⟩) (callRest methods method params rest)

theorem callAll_none {handler method : String} (hm : methods handler method = none) (params : π)
    (rest : List String) :
    (handlers methods).callAll method params (handler :: rest) = (handlers methods).callAll method params rest := by
  simp only [Handlers.callAll, handlers, hm, pure_bind]

theorem callAll_some {handler method : String} {course : π → Course π} (hm : methods handler method = some course)
    (params : π) (rest : List String) :
    (handlers methods).callAll method params (handler :: rest) = (do
      modifyState (note (.called (← self) handler ⟨method, params⟩))
      followAnd methods method params rest (course params)) := by
  simp only [Handlers.callAll, handlers, hm, followAnd, afterwards, bind_assoc, pure_bind]
  refine bind_congr fun task => bind_congr fun _ => bind_congr fun step => ?_
  rcases step with busy | (f | _)
  · rfl
  · cases f <;> rfl
  · rfl

theorem resumeDistribution_eq (d : Distribution (Signal → Course π) π) {signal : Signal} (hs : signal ≠ .cancelled) :
    (handlers methods).resumeDistribution d signal =
      followAnd methods d.method d.params d.rest (d.busy signal) := by
  have hr : (handlers methods).resume d.busy signal = follow (d.busy signal) := by
    cases signal with
    | cancelled => exact absurd rfl hs
    | _ => rfl
  simp only [Handlers.resumeDistribution, hr, followAnd, afterwards]
  refine bind_congr fun step => ?_
  rcases step with busy | (f | _)
  · rfl
  · cases f <;> rfl
  · rfl

/-- From here a task hands out an event: where it waits, some handlers are left, and it ends well with none. -/
def Delivers (methods : Methods π) (task : TaskId) (news : News π) (l₀ l : Loop (Watch π) (News π))
    (a : WatchAct π (Step (Distribution (Signal → Course π) π) Unit)) : Prop :=
  a.Reaches l
    (fun d l' => Bustle (some task) l₀ l' ∧ IsAtGate l' ∧ (d.method = news.method ∧ d.params = news.params) ∧
      HandsOut methods task news d.rest l'.state.seen)
    fun r l' => Bustle (some task) l₀ l' ∧ r = .ok () ∧ HandsOut methods task news [] l'.state.seen

/-- Who is followed is done with what was handed out so far, and then it goes on as it does for the rest. -/
theorem delivers_followAnd {rest : List String} {l₀ l : Loop (Watch π) (News π)} (hb : Bustle (some task) l₀ l)
    (h : HandsOut methods task news rest l.state.seen)
    (hrest : ∀ l, Bustle (some task) l₀ l → HandsOut methods task news rest l.state.seen →
      Delivers methods task news l₀ l ((handlers methods).callAll news.method news.params rest)) (course : Course π) :
    Delivers methods task news l₀ l (followAnd methods news.method news.params rest course) := by
  apply (reaches_afterwards ..).mpr
  apply (bustle_follow course l).mono
  · rintro busy l' ⟨hb', hgate⟩
    exact ⟨hb.trans (hb'.mono _), hgate, ⟨rfl, rfl⟩, hb'.handsOut nofun h⟩
  · rintro r l' ⟨hb', hr⟩
    rw [callRest_of_ne hr]
    exact hrest l' (hb.trans (hb'.mono _)) (hb'.handsOut nofun h)

theorem delivers_callAll (rest : List String) {l₀ l : Loop (Watch π) (News π)} (hc : l₀.current = task)
    (hb : Bustle (some task) l₀ l) (h : HandsOut methods task news rest l.state.seen) :
    Delivers methods task news l₀ l ((handlers methods).callAll news.method news.params rest) := by
  induction rest generalizing l with
  | nil => exact ⟨hb, rfl, h⟩
  | cons handler rest ih =>
      cases hm : methods handler news.method with
      | none =>
          rw [callAll_none hm]
          exact ih hb (h.skips hm)
      | some course =>
          obtain rfl : l.current = task := hb.current.trans hc
          have hnote := hb.trans (Bustle.note (e := .called l.current handler news) rfl)
          rw [callAll_some hm]
          exact delivers_followAnd hnote (h.asks hm) (fun _ => ih) (course news.params)

/-- What has been told of a task that has not ended. -/
def Stands (methods : Methods π) (seen : List (Sight π)) (task : TaskId) :
    Suspended (News π) (Distribution (Signal → Course π) π) → Prop
  | .created _ => share seen task = []
  | .waiting d => HandsOut methods task ⟨d.method, d.params⟩ d.rest seen

/-- A task that is not to give up hands out an event from where it stands. -/
theorem delivers_goesOn {x : Suspended (News π) (Distribution (Signal → Course π) π)} {signal : Signal}
    (hs : signal ≠ .cancelled) {l : Loop (Watch π) (News π)} (hl : l.state.IsFaithful)
    (h : Stands methods l.state.seen l.current x) :
    ∃ news, Delivers methods l.current news l l ((machine methods).goesOn signal x) := by
  cases x with
  | created news =>
      have hbegins := HandsOut.begins methods news h
      rw [← (hl : l.state.subscribers = _)] at hbegins
      have hstart : (machine methods).start news signal = (do
          modifyState (note (.began (← self) news))
          (handlers methods).distribute news.method news.params) := by
        cases signal with
        | cancelled => exact absurd rfl hs
        | _ => rfl
      refine ⟨news, ?_⟩
      show Delivers methods l.current news l l ((machine methods).start news signal)
      rw [hstart]
      exact delivers_callAll l.state.subscribers.handlers rfl (Bustle.note (e := .began l.current news) rfl) hbegins
  | waiting d =>
      refine ⟨⟨d.method, d.params⟩, ?_⟩
      show Delivers methods l.current ⟨d.method, d.params⟩ l l ((handlers methods).resumeDistribution d signal)
      rw [resumeDistribution_eq d hs]
      exact delivers_followAnd (.refl _ l) h (fun _ => delivers_callAll d.rest rfl) (d.busy signal)

theorem goesOn_cancelled (methods : Methods π) (x : Suspended (News π) (Distribution (Signal → Course π) π)) :
    (machine methods).goesOn .cancelled x = pure (.fail .cancelled) := by
  cases x <;> rfl

end Watch

end InkServer.Subscribers
