import InkServer.Proofs.Task.Runs

/-!
# Tasks that are alone

While a task is the only one, nothing happens between its turns but what others do to the state. `Settles`
says what such a task comes to in the end, however often it waits on the way, and is carried from the parts of
an operation to the whole. A session in which one task settles stays so until the task has ended.
-/

namespace InkServer

variable {σ ω τ υ ρ α β : Type}

/-- What a turn of a task that is alone leaves as it is. -/
structure Loop.Quiet (l l' : Loop σ ω) : Prop where
  created : l'.created = l.created
  gatherings : l'.gatherings = l.gatherings
  ready : l'.ready = l.ready

theorem Loop.Quiet.refl (l : Loop σ ω) : l.Quiet l := ⟨rfl, rfl, rfl⟩

theorem Loop.Quiet.trans {l l₁ l₂ : Loop σ ω} (h : l.Quiet l₁) (h' : l₁.Quiet l₂) : l.Quiet l₂ :=
  ⟨h'.created.trans h.created, h'.gatherings.trans h.gatherings, h'.ready.trans h.ready⟩

namespace Act

/-- What an act of a task that is alone comes to in the end. Whenever it waits it goes on as `resume` says, from
a state that others may have changed meanwhile. -/
inductive Settles (resume : τ → Act σ ω (Step τ α)) (others : σ → σ → Prop) (post : Except Failure α → σ → Prop) :
    Act σ ω (Step τ α) → Loop σ ω → Prop
  | ends {a : Act σ ω (Step τ α)} {l : Loop σ ω} {r : Except Failure α} (hr : a.returns l = .ends r)
      (hq : l.Quiet (a.leaves l)) (h : post r (a.leaves l).state) : Settles resume others post a l
  | waits {a : Act σ ω (Step τ α)} {l : Loop σ ω} {state : τ} (hr : a.returns l = .waits state)
      (hq : l.Quiet (a.leaves l))
      (h : ∀ l', others (a.leaves l).state l'.state → Settles resume others post (resume state) l') :
      Settles resume others post a l

section rules

variable {resume : τ → Act σ ω (Step τ α)} {resume' : υ → Act σ ω (Step υ β)} {others : σ → σ → Prop}
  {post : Except Failure α → σ → Prop} {post' : Except Failure β → σ → Prop} {l l' : Loop σ ω}

theorem settles_ends {r : Except Failure α} (h : post r l.state) : Settles resume others post (pure (.ends r)) l :=
  .ends rfl (.refl l) h

/-- An act that comes to the same as another one after something quiet. -/
theorem Settles.since {a a' : Act σ ω (Step τ α)} (h : Settles resume others post a' l') (hq : l.Quiet l')
    (hr : a.returns l = a'.returns l') (hl : a.leaves l = a'.leaves l') : Settles resume others post a l := by
  cases h with
  | ends hr' hq' h => exact .ends (hr.trans hr') (hl ▸ hq.trans hq') (hl ▸ h)
  | waits hr' hq' h => exact .waits (hr.trans hr') (hl ▸ hq.trans hq') (hl ▸ h)

/-- An act that does something quiet first. -/
theorem Settles.bind {x : Act σ ω β} {f : β → Act σ ω (Step τ α)}
    (h : Settles resume others post (f (x.returns l)) (x.leaves l)) (hq : l.Quiet (x.leaves l)) :
    Settles resume others post (x >>= f) l :=
  h.since hq rfl rfl

/-- Whether a gate is open or closed, who goes through it goes on behind it. -/
theorem settles_through {gate : String} {waiting : τ} {next : Act σ ω (Step τ α)} (hresume : resume waiting = next)
    (hrefl : others l.state l.state) (h : ∀ l', others l.state l'.state → Settles resume others post next l') :
    Settles resume others post (through gate waiting next) l := by
  by_cases hc : l.closed.contains gate
  · have hleaves : (through gate waiting next).leaves l = { l with atGates := l.atGates ++ [(gate, l.current)] } := by
      rw [leaves_through, if_pos hc]
    have hreturns : (through gate waiting next).returns l = .waits waiting := by rw [returns_through, if_pos hc]
    refine .waits hreturns ?_ fun l' hl' => ?_
    · rw [hleaves]
      exact ⟨rfl, rfl, rfl⟩
    · rw [hleaves] at hl'
      rw [hresume]
      exact h l' hl'
  · refine (h l hrefl).since (.refl l) ?_ ?_
    · rw [returns_through, if_neg hc]
    · rw [leaves_through, if_neg hc]

/-- Where an act ends it has come to what it comes to. -/
theorem Settles.of_ends {a : Act σ ω (Step τ α)} (h : Settles resume others post a l) {r : Except Failure α}
    (hr : a.returns l = .ends r) : post r (a.leaves l).state := by
  cases h with
  | ends hr' hq h =>
      cases hr'.symm.trans hr
      exact h
  | waits hr' hq h => cases hr'.symm.trans hr

/-- A lock that is free is taken at once. -/
theorem settles_acquire {place : LockPlace σ} {waiting : τ} {next : Act σ ω (Step τ α)} (hfree : place.get l.state = {})
    (h : Settles resume others post next { l with state := place.set { holder := some l.current } l.state }) :
    Settles resume others post (acquire place waiting next) l := by
  refine h.since ⟨rfl, rfl, rfl⟩ ?_ ?_
  · simp [acquire, hfree, Lock.request]
  · simp [acquire, hfree, Lock.request]

theorem Settles.mono {post₁ : Except Failure α → σ → Prop} {a : Act σ ω (Step τ α)}
    (h : Settles resume others post a l) (hp : ∀ r s, post r s → post₁ r s) : Settles resume others post₁ a l := by
  induction h with
  | ends hr hq h => exact .ends hr hq (hp _ _ h)
  | waits hr hq _ ih => exact .waits hr hq ih

/-- A part of an operation settles, and then the rest of it does. -/
theorem Settles.afterwards {part : Act σ ω (Step τ α)} {wrap : τ → υ} {next : Except Failure α → Act σ ω (Step υ β)}
    (h : Settles resume others post part l)
    (hresume : ∀ state, resume' (wrap state) = Act.afterwards (resume state) wrap next)
    (hn : ∀ r l', post r l'.state → Settles resume' others post' (next r) l') :
    Settles resume' others post' (Act.afterwards part wrap next) l := by
  induction h with
  | @ends a l r hr hq h =>
      refine (hn r _ h).since hq ?_ ?_
      · unfold Act.afterwards
        rw [returns_bind, hr]
      · unfold Act.afterwards
        rw [leaves_bind, hr]
  | @waits a l state hr hq _ ih =>
      have hreturns : (Act.afterwards a wrap next).returns l = .waits (wrap state) := by
        unfold Act.afterwards
        rw [returns_bind, hr]
        rfl
      have hleaves : (Act.afterwards a wrap next).leaves l = a.leaves l := by
        unfold Act.afterwards
        rw [leaves_bind, hr]
        rfl
      refine .waits hreturns (hleaves ▸ hq) fun l' hl' => ?_
      rw [hresume]
      exact ih l' (hleaves ▸ hl')

end rules

end Act

namespace Session

/-- A session in which nobody waits for others, and whoever is woken is to go on. -/
structure IsCalm (s : Session σ ω τ ρ) : Prop where
  created : s.loop.created = []
  gatherings : s.loop.gatherings = []
  ready : ∀ w ∈ s.loop.ready, w.signal = .go

/-- Where a session stands whose tasks come one at a time: one of them is under way and settles, or none is. -/
inductive Alone (m : Machine σ ω τ ρ) (others : σ → σ → Prop)
    (post : List (TaskId × Except Failure ρ) → σ → Prop) (s : Session σ ω τ ρ) : Prop where
  | busy (task : TaskId) (x : Suspended ω τ) (hc : s.IsCalm) (ht : s.tasks = [(task, x)])
      (h : ∀ l, others s.state l.state →
        Act.Settles (m.resume · .go) others (fun r s' => post (s.ended ++ [(task, r)]) s') (m.goesOn .go x) l)
  | idle (hc : s.IsCalm) (ht : s.tasks = []) (h : post s.ended s.state)

variable {m : Machine σ ω τ ρ} {others : σ → σ → Prop} {post : List (TaskId × Except Failure ρ) → σ → Prop}
  {s s' : Session σ ω τ ρ}

theorem Alone.isCalm (h : s.Alone m others post) : s.IsCalm := by cases h <;> assumption

theorem Alone.settled (h : s.Alone m others post) (ht : s.tasks = []) : post s.ended s.state := by
  cases h with
  | busy task x hc ht' h => cases ht.symm.trans ht'
  | idle hc ht' h => exact h

theorem Alone.mono {post' : List (TaskId × Except Failure ρ) → σ → Prop} (h : s.Alone m others post)
    (hp : ∀ ended state, post ended state → post' ended state) : s.Alone m others post' := by
  cases h with
  | busy task x hc ht h => exact .busy task x hc ht fun l hl => (h l hl).mono fun _ _ => hp _ _
  | idle hc ht h => exact .idle hc ht (hp _ _ h)

/-- What becomes of gates and of who is woken does not matter. -/
theorem Alone.loop (h : s.Alone m others post) {l : Loop σ ω} (hs : l.state = s.loop.state)
    (hc : ({ s with loop := l } : Session σ ω τ ρ).IsCalm) :
    ({ s with loop := l } : Session σ ω τ ρ).Alone m others post := by
  cases h with
  | busy task x _ ht h =>
      refine .busy task x hc ht fun l' hl => h l' ?_
      have hl : others l.state l'.state := hl
      rw [hs] at hl
      exact hl
  | idle _ ht h =>
      have h : post s.ended s.loop.state := h
      exact .idle hc ht (hs ▸ h : post s.ended l.state)

/-- What others do does not matter as far as what the task comes to bears it. -/
theorem Alone.changed (h : s.Alone m others post) (hs : others s.state s'.state) (ht : s'.tasks = s.tasks)
    (he : s'.ended = s.ended) (hc : s'.IsCalm) (htrans : ∀ a b c, others a b → others b c → others a c)
    (hp : ∀ ended a b, others a b → post ended a → post ended b) : s'.Alone m others post := by
  cases h with
  | busy task x _ ht' h => exact .busy task x hc (ht.trans ht') fun l hl => he ▸ h l (htrans _ _ _ hs hl)
  | idle _ ht' h => exact .idle hc (ht.trans ht') (he ▸ hp _ _ _ hs h)

theorem IsCalm.of_ready (h : s.IsCalm) {l : Loop σ ω} (hq : s.loop.created = l.created)
    (hg : s.loop.gatherings = l.gatherings) (hr : ∀ w ∈ l.ready, w ∈ s.loop.ready ∨ w.signal = .go) :
    ({ s with loop := l } : Session σ ω τ ρ).IsCalm :=
  ⟨hq.symm.trans h.created, hg.symm.trans h.gatherings, fun w hw => (hr w hw).elim (h.ready w) id⟩

/-- The task of a session is run. -/
theorem Alone.run (h : s.Alone m others post) (hrefl : ∀ a, others a a) {task : TaskId} {x : Suspended ω τ}
    (hx : s.task? task = some x) : (s.run m task .go).Alone m others post := by
  have hmem := mem_of_task? hx
  cases h with
  | idle _ ht _ =>
      rw [ht] at hmem
      cases hmem
  | busy task' x' hc ht h =>
      rw [ht] at hmem
      cases List.mem_singleton.mp hmem
      have hwithout : s.without task = [] := by
        unfold without
        rw [ht]
        simp
      refine run_of_reaches hx ?_
      have hcalm : ∀ {l : Loop σ ω}, Loop.Quiet { s.loop with current := task } l → l.created = [] ∧
          l.gatherings = [] ∧ ∀ w ∈ l.ready, w.signal = .go := fun hq =>
        ⟨hq.created.trans hc.created, hq.gatherings.trans hc.gatherings, hq.ready.symm ▸ hc.ready⟩
      cases h { s.loop with current := task } (hrefl _) with
      | ends hr hq hsettled =>
          obtain ⟨hcreated, hgatherings, hready⟩ := hcalm hq
          unfold Act.Reaches
          rw [hr]
          dsimp only
          rw [wentOn_ends hcreated hgatherings, hwithout]
          exact .idle ⟨hcreated, hgatherings, hready⟩ rfl hsettled
      | waits hr hq hwaits =>
          obtain ⟨hcreated, hgatherings, hready⟩ := hcalm hq
          unfold Act.Reaches
          rw [hr]
          dsimp only
          rw [wentOn_waits hcreated, hwithout]
          exact .busy task _ ⟨hcreated, hgatherings, hready⟩ rfl hwaits

variable {ε : Type} {outside : ε → Act σ ω Unit}

theorem Alone.turn (h : s.Alone m others post) (hrefl : ∀ a, others a a) :
    (s.advance m outside .turn).Alone m others post := by
  have hready : ∀ ready, (∀ w ∈ ready, w ∈ s.loop.ready ∨ w.signal = .go) →
      ({ s with loop := { s.loop with ready } } : Session σ ω τ ρ).Alone m others post :=
    fun ready hw => h.loop rfl (h.isCalm.of_ready rfl rfl hw)
  refine turn_keeps h (fun w rest n hr => ?_) (fun w rest hr _ => ?_) fun w rest x hr hx => ?_
  · refine hready _ fun w' hw' => ?_
    rcases List.mem_append.mp hw' with hw' | hw'
    · exact .inl (hr ▸ List.mem_cons_of_mem _ hw')
    · rw [List.mem_singleton.mp hw']
      exact .inr (h.isCalm.ready w (hr ▸ List.mem_cons_self))
  · exact hready _ fun w' hw' => .inl (hr ▸ List.mem_cons_of_mem _ hw')
  · rw [h.isCalm.ready w (hr ▸ List.mem_cons_self)]
    exact (hready rest fun w' hw' => .inl (hr ▸ List.mem_cons_of_mem _ hw')).run hrefl hx

/-- Gates are worked, or something else is done that only wakes tasks to go on. -/
theorem IsCalm.act (h : s.IsCalm) {a : Act σ ω Unit} (hc : (a.leaves s.loop).created = s.loop.created)
    (hg : (a.leaves s.loop).gatherings = s.loop.gatherings)
    (hr : ∀ w ∈ (a.leaves s.loop).ready, w ∈ s.loop.ready ∨ w.signal = .go) :
    (s.act a).2 = { s with loop := a.leaves s.loop } ∧ (s.act a).2.IsCalm := by
  have hact : (s.act a).2 = { s with loop := a.leaves s.loop } := by
    rw [act_eq]
    exact adopt_of_created_eq_nil (hc.trans h.created)
  refine ⟨hact, ?_⟩
  rw [hact]
  exact h.of_ready hc.symm hg.symm hr

/-- A task is let through. -/
theorem IsCalm.pass (h : s.IsCalm) (task : TaskId) : ∃ l : Loop σ ω,
    (s.act (Act.pass task .go)).2 = { s with loop := l } ∧ l.state = s.loop.state ∧
      ({ s with loop := l } : Session σ ω τ ρ).IsCalm := by
  have hact : ∀ l, (Act.pass task .go : Act σ ω Unit).leaves s.loop = l → l.created = s.loop.created →
      l.gatherings = s.loop.gatherings → (∀ w ∈ l.ready, w ∈ s.loop.ready ∨ w.signal = .go) →
      l.state = s.loop.state → ∃ l : Loop σ ω, (s.act (Act.pass task .go)).2 = { s with loop := l } ∧
        l.state = s.loop.state ∧ ({ s with loop := l } : Session σ ω τ ρ).IsCalm := by
    rintro l rfl hc hg hr hs
    obtain ⟨hact, hcalm⟩ := h.act hc hg hr
    exact ⟨_, hact, hs, hact ▸ hcalm⟩
  by_cases hw : s.loop.atGates.any fun w => w.2 = task
  · refine hact _ ((Act.leaves_pass task .go s.loop).trans (if_pos hw)) rfl rfl (fun w hw => ?_) rfl
    rcases List.mem_append.mp hw with hw | hw
    · exact .inl hw
    · exact .inr (by rw [List.mem_singleton.mp hw])
  · exact hact _ ((Act.leaves_pass task .go s.loop).trans (if_neg hw)) rfl rfl (fun _ => .inl) rfl

/-- A session that rests begins an operation. -/
theorem IsCalm.alone (h : s.IsCalm) (ht : s.tasks = []) {operation : ω}
    (hs : ∀ task l, others s.state l.state → Act.Settles (m.resume · .go) others
      (fun r s' => post (s.ended ++ [(task, r)]) s') (m.start operation .go) l) :
    (s.act (discard (Act.create operation))).2.Alone m others post := by
  refine .busy s.loop.nextTask (.created operation) ⟨rfl, h.gatherings, fun w hw => ?_⟩ ?_ (hs _)
  · have hw : w ∈ s.loop.ready ++ [⟨s.loop.nextTask, .go, 0⟩] := hw
    rcases List.mem_append.mp hw with hw | hw
    · exact h.ready w hw
    · rw [List.mem_singleton.mp hw]
  · show s.tasks ++ List.map _ (s.loop.created ++ [(s.loop.nextTask, operation)]) = _
    rw [ht, h.created]
    rfl

end Session

end InkServer
