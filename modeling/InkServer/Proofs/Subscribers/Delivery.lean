import InkServer.Proofs.Subscribers.Runs

/-!
# Every event reaches every handler

A handler that is called is through after finitely many waits, and there are finitely many of them, so that a task
that hands out an event comes to its end if its waits do. What it has told by then is what every run keeps: all
the handlers that it began with and that have the method were called, in their order and each once.
-/

namespace InkServer.Subscribers

open Watch

variable {π : Type} {methods : Methods π}

/-! ## The waits of an event -/

/-- The event waits here, and then, unless it is given up, there. -/
def ComesAfter (methods : Methods π) (d' d : Distribution (Signal → Course π) π) : Prop :=
  ∃ signal l, signal ≠ Signal.cancelled ∧ ((Watch.handlers methods).resumeDistribution d signal).returns l = .waits d'

/-- The event has finitely many waits left wherever it may wait next. -/
def Subsides (methods : Methods π) (a : WatchAct π (Step (Distribution (Signal → Course π) π) Unit)) : Prop :=
  ∀ l, a.Reaches l (fun d _ => Acc (ComesAfter methods) d) fun _ _ => True

theorem subsides_followAnd {method : String} {params : π} {rest : List String}
    (hrest : Subsides methods ((Watch.handlers methods).callAll method params rest)) (course : Course π) :
    Subsides methods (followAnd methods method params rest course) := by
  induction course with
  | returns => exact hrest
  | raises trouble =>
      intro l
      show (callRest methods method params rest (.error trouble.1)).Reaches l _ _
      rw [callRest_of_ne fun h => trouble.2 (Except.error.inj h)]
      exact hrest l
  | waits next ih =>
      refine fun l => Acc.intro _ fun d hd => ?_
      obtain ⟨signal, l', hs, hd⟩ := hd
      rw [resumeDistribution_eq _ hs] at hd
      exact Act.Reaches.of_returns (ih signal l') hd
  | does deed next ih => exact fun l => ih { l with state := l.state.change deed }
  | tells news next ih => exact fun l => ih ((discard (Act.create news) : WatchAct π Unit).leaves l)
  | looks next ih => exact fun l => ih l.state l

theorem subsides_callAll (method : String) (params : π) (rest : List String) :
    Subsides methods ((Watch.handlers methods).callAll method params rest) := by
  induction rest with
  | nil => exact fun _ => trivial
  | cons handler rest ih =>
      cases hm : methods handler method with
      | none =>
          rw [callAll_none hm]
          exact ih
      | some course =>
          intro l
          rw [callAll_some hm]
          exact subsides_followAnd ih (course params) _

/-- However the waits of handlers end, and whatever they do in between, no event waits forever. -/
theorem wellFounded_comesAfter (methods : Methods π) : WellFounded (ComesAfter methods) := by
  refine ⟨fun d => Acc.intro d fun d' hd => ?_⟩
  obtain ⟨signal, l, hs, hd⟩ := hd
  rw [resumeDistribution_eq d hs] at hd
  exact Act.Reaches.of_returns (subsides_followAnd (subsides_callAll d.method d.params d.rest) _ l) hd

/-! ## Coming to an end -/

variable {off : TaskId → Prop} {s : Trials π} {t : TaskId}

/-- Turns, and a wait of the task that comes to its end. -/
def LetsOn (t : TaskId) (move : Session.Move (Outside π)) : Prop := move = .turn ∨ move = .passes t .go

/-- All goes well with a task if turns are taken and its waits come to their end. -/
def CanEnd (methods : Methods π) (s : Trials π) (t : TaskId) : Prop :=
  ∃ more, (∀ move ∈ more, LetsOn t move) ∧ (t, .ok ()) ∈ (s.after (machine methods) Watch.outside more).ended

theorem CanEnd.of_ended (he : (t, .ok ()) ∈ s.ended) : CanEnd methods s t :=
  ⟨[], by simp, he⟩

theorem CanEnd.of_advance {move : Session.Move (Outside π)} (hm : LetsOn t move)
    (h : CanEnd methods (s.advance (machine methods) Watch.outside move) t) : CanEnd methods s t := by
  obtain ⟨more, hmore, he⟩ := h
  exact ⟨move :: more, List.forall_mem_cons.mpr ⟨hm, hmore⟩, he⟩

namespace Sound

/-- The first task that is ready runs, and the others wait as before. -/
theorem turn_other (h : Sound methods off s) {w : Wake} {rest : List Wake} (hr : s.loop.ready = w :: rest)
    {x : Suspended (News π) (Distribution (Signal → Course π) π)} (ht : s.task? t = some x) (hne : t ≠ w.task) :
    (s.advance (machine methods) Watch.outside .turn).task? t = some x ∧
      ∃ more, (s.advance (machine methods) Watch.outside .turn).loop.ready = rest ++ more := by
  rw [Session.advance_turn hr (h.ready w (hr ▸ List.mem_cons_self)).1]
  cases hy : s.task? w.task with
  | none =>
      rw [Session.run_of_task?_eq_none hy]
      exact ⟨ht, [], (List.append_nil _).symm⟩
  | some y =>
      have hwent : ∀ step l, Bustle (some w.task) { s.loop with ready := rest, current := w.task } l →
          (({ s with loop := { s.loop with ready := rest } } : Trials π).wentOn w.task step l).task? t = some x ∧
            ∃ more, (({ s with loop := { s.loop with ready := rest } } : Trials π).wentOn w.task step l).loop.ready =
              rest ++ more := by
        intro step l hb
        obtain ⟨more, hmore, -⟩ := hb.ready
        refine ⟨Session.task?_wentOn_of_ne ht hne step l, more, ?_⟩
        rw [Session.wentOn_loop _ _ _ (hb.gatherings.trans h.gatherings)]
        exact hmore
      refine Session.run_of_reaches
        (p := fun s' : Trials π => s'.task? t = some x ∧ ∃ more, s'.loop.ready = rest ++ more) hy
        ((h.reaches_goesOn hr hy).mono ?_ ?_)
      · exact fun d l hl => hwent _ l hl.1
      · exact fun r l hl => hwent _ l hl.1

/-- A task whose turn it is, and which is not to give up, ends well or waits again. -/
theorem turn_self (h : Sound methods off s) (ho : ¬off t) {w : Wake} {rest : List Wake}
    (hr : s.loop.ready = w :: rest) (hw : w.task = t)
    {x : Suspended (News π) (Distribution (Signal → Course π) π)} (ht : s.task? t = some x) :
    (t, .ok ()) ∈ (s.advance (machine methods) Watch.outside .turn).ended ∨
      ∃ signal l d, signal ≠ Signal.cancelled ∧ ((machine methods).goesOn signal x).returns l = .waits d ∧
        (s.advance (machine methods) Watch.outside .turn).task? t = some (.waiting d) := by
  obtain ⟨hturns, hoff⟩ := h.ready w (hr ▸ List.mem_cons_self)
  subst hw
  obtain ⟨hlt, -, -, -⟩ := h.tasks w.task x (Session.mem_of_task? ht)
  have hreaches := h.reaches_goesOn hr ht
  rw [Session.advance_turn hr hturns]
  refine Session.run_of_reaches (s := { s with loop := { s.loop with ready := rest } })
    (p := fun s' : Trials π => (w.task, .ok ()) ∈ s'.ended ∨ ∃ signal l d, signal ≠ Signal.cancelled ∧
      ((machine methods).goesOn signal x).returns l = .waits d ∧ s'.task? w.task = some (.waiting d)) ht ?_
  unfold Act.Reaches at hreaches ⊢
  split at hreaches <;> rename_i hs <;> rw [hs]
  · obtain ⟨hb, -⟩ := hreaches
    refine .inr ⟨w.signal, _, _, fun hc => ho (hoff hc), hs, Session.task?_wentOn_waits _ _ fun c hc heq => ?_⟩
    exact Nat.not_lt.mpr (hb.of_created h.created hc).1 (heq ▸ hlt)
  · obtain ⟨-, -, hconcludes⟩ := hreaches
    obtain ⟨rfl, -⟩ := hconcludes.resolve_right fun hc => ho hc.2
    exact .inl (Session.mem_ended_wentOn.mpr (.inr ⟨_, rfl, rfl⟩))

/-- From wherever a task that goes on here may wait next it ends well. -/
def LeadsOn (methods : Methods π) (off : TaskId → Prop) (t : TaskId)
    (x : Suspended (News π) (Distribution (Signal → Course π) π)) : Prop :=
  ∀ signal l d, signal ≠ Signal.cancelled → ((machine methods).goesOn signal x).returns l = .waits d →
    ∀ s', Sound methods off s' → s'.task? t = some (.waiting d) → CanEnd methods s' t

/-- A task that is to run comes to its turn. -/
theorem canEnd_of_ready (h : Sound methods off s) (ho : ¬off t)
    {x : Suspended (News π) (Distribution (Signal → Course π) π)} (hx : LeadsOn methods off t x)
    (ht : s.task? t = some x) {before after : List Wake} (hr : s.loop.ready = before ++ after)
    (hw : ∃ w ∈ before, w.task = t) : CanEnd methods s t := by
  induction before generalizing s after with
  | nil =>
      obtain ⟨w, hw, -⟩ := hw
      cases hw
  | cons v before ih =>
      apply CanEnd.of_advance (.inl rfl)
      by_cases hv : v.task = t
      · rcases h.turn_self ho hr hv ht with he | ⟨signal, l, d, hs, hd, hwaits⟩
        · exact .of_ended he
        · exact hx signal l d hs hd _ h.turn hwaits
      · obtain ⟨hother, more, hmore⟩ := h.turn_other hr ht (Ne.symm hv)
        obtain ⟨w, hw, heq⟩ := hw
        rcases List.mem_cons.mp hw with rfl | hw
        · exact absurd heq hv
        · exact ih h.turn hother (hmore.trans (List.append_assoc ..)) ⟨w, hw, heq⟩

theorem canEnd (h : Sound methods off s) (ho : ¬off t) {x : Suspended (News π) (Distribution (Signal → Course π) π)}
    (hx : LeadsOn methods off t x) (ht : s.task? t = some x) : CanEnd methods s t := by
  obtain ⟨-, -, hattended, -⟩ := h.tasks t x (Session.mem_of_task? ht)
  rcases hattended with hready | ⟨g, hg, heq⟩
  · exact h.canEnd_of_ready ho hx ht (List.append_nil _).symm hready
  · have hpass : (s.act (Act.pass t .go)).2 = { s with
        loop := { s.loop with
          atGates := s.loop.atGates.filter fun w => w.2 ≠ t, ready := s.loop.ready ++ [⟨t, .go, 0⟩] } } := by
      have hany : s.loop.atGates.any fun w => w.2 = t := List.any_eq_true.mpr ⟨g, hg, by simpa using heq⟩
      rw [Session.act_eq, Act.leaves_pass, if_pos hany]
      exact Session.adopt_of_created_eq_nil h.created
    have hsound : Sound methods off (s.act (Act.pass t .go)).2 := h.pass nofun
    apply CanEnd.of_advance (.inr rfl)
    show CanEnd methods (s.act (Act.pass t .go)).2 t
    rw [hpass] at hsound ⊢
    exact hsound.canEnd_of_ready ho hx ht (List.append_nil _).symm
      ⟨_, List.mem_append_right _ List.mem_cons_self, rfl⟩

theorem canEnd_of_pending (h : Sound methods off s) (ho : ¬off t)
    {x : Suspended (News π) (Distribution (Signal → Course π) π)} (ht : s.task? t = some x) :
    CanEnd methods s t := by
  have hwaiting : ∀ d s, Sound methods off s → s.task? t = some (.waiting d) → CanEnd methods s t := by
    intro d
    induction d using (wellFounded_comesAfter methods).induction with
    | _ d ih =>
        intro s h ht
        apply h.canEnd ho _ ht
        exact fun signal l d' hs hd s' h' ht' => ih d' ⟨signal, l, hs, hd⟩ s' h' ht'
  cases x with
  | created news => exact h.canEnd ho (fun signal l d _ _ => hwaiting d) ht
  | waiting d => exact hwaiting d s h ht

end Sound

/-- Whatever the handlers and whatever they do, an event reaches those that are there when it begins to be handed
out: what was done to the handlers never puts one there twice; a task that hands out an event has at any time
called a first part of them, in their order and each once; one that ended, and was not told to give up, did not
fail and has called all that have the method; and one that has not ended can come to its end. -/
theorem every_event_reaches_every_handler (methods : Methods π) (moves : List (Session.Move (Outside π))) :
    let s := Trials.run methods moves
    (s.state.subscribers = registered s.state.seen ∧
      ∀ before, before <+: s.state.seen → (registered before).handlers.Nodup) ∧
    (∀ t news, .began t news ∈ s.state.seen → ∃ rest, HandsOut methods t news rest s.state.seen) ∧
    (∀ t r, (t, r) ∈ s.ended → ¬IsCalledOff moves t → r = .ok () ∧
      ∃ news before after, s.state.seen = before ++ .began t news :: after ∧ share before t = [] ∧
        share after t = calls methods t news (registered before).handlers) ∧
    (∀ t, s.isPending t → ¬IsCalledOff moves t → ∃ more, (∀ move ∈ more, move = .turn ∨ move = .passes t .go) ∧
      (t, .ok ()) ∈ (Trials.run methods (moves ++ more)).ended) := by
  have h := sound_run methods moves
  refine ⟨⟨h.faithful, fun before _ => nodup_registered before⟩, fun t news hb => ?_, fun t r hr ho => ?_,
    fun t hp ho => ?_⟩
  · rcases h.told t with hnil | ⟨news', rest, hout⟩
    · have hmem := mem_share hb
      rw [show share (Trials.run methods moves).state.seen t = [] from hnil] at hmem
      cases hmem
    · cases hout.eq_of_began hb
      exact ⟨rest, hout⟩
  · obtain ⟨hok, news, before, after, asked, hs, hasked, hbefore, hafter⟩ :=
      (h.ended t r hr).2.resolve_right fun hc => ho hc.2
    rw [List.append_nil] at hasked
    exact ⟨hok, news, before, after, hs, hbefore, hasked ▸ hafter⟩
  · obtain ⟨x, hx⟩ := Option.isSome_iff_exists.mp hp
    obtain ⟨more, hmore, he⟩ := h.canEnd_of_pending ho hx
    refine ⟨more, hmore, ?_⟩
    unfold Trials.run
    rw [Session.after_append]
    exact he

/-- One handler takes itself out and fails, one waits and then takes out everybody, one has no such method, and
one listens. -/
def unruly : Methods Nat
  | "leaves", "handle_document_open" => some fun _ => .does (.unregisters "leaves") (.raises ⟨.runtime "lost", nofun⟩)
  | "dawdles", "handle_document_open" => some fun _ => .waits fun _ => .does .clears .returns
  | "listens", _ => some fun _ => .returns
  | _, _ => none

/-- Two documents are opened at about the same time. -/
def rush : List (Session.Move (Outside Nat)) := [
  .outside (.deed (.registers "leaves")), .outside (.deed (.registers "dawdles")),
  .outside (.deed (.registers "idles")), .outside (.deed (.registers "listens")),
  .outside (.news ⟨"handle_document_open", 1⟩), .outside (.news ⟨"handle_document_open", 2⟩),
  .turn, .turn, .passes 1 .timedOut, .passes 0 .go, .turn, .turn]

theorem unruly_handlers_keep_nobody_from_hearing :
    (0, .ok ()) ∈ (Trials.run unruly rush).ended ∧ ¬IsCalledOff rush 0 ∧
      share (Trials.run unruly rush).state.seen 0 = [
        .began 0 ⟨"handle_document_open", 1⟩,
        .called 0 "leaves" ⟨"handle_document_open", 1⟩,
        .called 0 "dawdles" ⟨"handle_document_open", 1⟩,
        .called 0 "listens" ⟨"handle_document_open", 1⟩] ∧
      (Trials.run unruly rush).state.subscribers.handlers = [] ∧
      ∃ news before after, (Trials.run unruly rush).state.seen = before ++ .began 0 news :: after ∧
        share before 0 = [] ∧ share after 0 = calls unruly 0 news (registered before).handlers := by
  have hall : (Trials.run unruly rush).ended = [(1, .ok ()), (0, .ok ())] := by rfl
  have hended : (0, .ok ()) ∈ (Trials.run unruly rush).ended := by simp [hall]
  have hon : ¬IsCalledOff rush 0 := by simp [IsCalledOff, rush]
  have hheard := ((every_event_reaches_every_handler unruly rush).2.2.1 0 _ hended hon).2
  exact ⟨hended, hon, by decide +kernel, by rfl, hheard⟩

end InkServer.Subscribers
