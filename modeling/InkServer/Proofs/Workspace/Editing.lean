import InkServer.Proofs.Server.Runs
import InkServer.Proofs.Workspace.Edits

/-!
# Servers whose texts are edited

A server that is asked for nothing but edits of its only workspace: every task is an edit that stands where
edits wait, or fetches settings. Whatever was admitted is over or still runs, and whoever has received a text
is on the way or was compiled.
-/

namespace InkServer

open ServerState ServerAct

variable {o : Outset} {s' : ServerState} {l l' : Loop ServerState Operation} {task : TaskId} {record : List Event}

/-! ## The tasks of edits -/

/-- The record does not tell of a task. -/
def Untouched (o : Outset) (task : TaskId) (s : ServerState) : Prop := ∀ e ∈ o.since s, e.call? ≠ some task

theorem Untouched.append {s : ServerState} (h : Untouched o task s) (hb : o.Begun s)
    (he : s'.events = s.events ++ record) (hr : ∀ e ∈ record, e.call? ≠ some task) : Untouched o task s' := by
  intro e hm
  rw [Outset.since_of_events_eq hb.le_length he] at hm
  exact (List.mem_append.mp hm).elim (h e) (hr e)

theorem Edit.Stands.append {s : ServerState} {state : Edit} (h : state.Stands o task s) (hb : o.Begun s)
    (he : s'.events = s.events ++ record) (hr : ∀ e ∈ record, e.call? ≠ some task) : state.Stands o task s' := by
  have hnone : ∀ r, .admitted task o.id r ∉ record := fun r hm => hr _ hm rfl
  cases state with
  | applying document state => exact ⟨h.1, h.2.append hb he hnone⟩
  | configuring id state => exact ⟨h.1, h.2.append hb he hnone⟩
  | compiling state =>
      obtain ⟨request, job, run, hstate, hjob, hrun, ha⟩ := h
      exact ⟨request, job, run, hstate, hjob, hrun, ha.append hb he hnone⟩

/-- Where a task stands while nothing is asked for but edits. -/
def Stands (o : Outset) (s : ServerState) (task : TaskId) : Suspended Operation Waiting → Prop
  | .created (.edit document) => o.isSource document ∧ Untouched o task s
  | .created (.fetchSettings _) | .waiting (.fetching _) => Untouched o task s
  | .waiting (.editing state) => state.Stands o task s
  | _ => False

theorem Stands.append {s : ServerState} {x : Suspended Operation Waiting} (h : Stands o s task x) (hb : o.Begun s)
    (he : s'.events = s.events ++ record) (hr : ∀ e ∈ record, e.call? ≠ some task) : Stands o s' task x := by
  unfold Stands at h ⊢
  split at h
  · exact ⟨h.1, h.2.append hb he hr⟩
  · exact Untouched.append h hb he hr
  · exact Untouched.append h hb he hr
  · exact Edit.Stands.append h hb he hr
  · exact h.elim

/-- A task that was admitted and waits is one that runs its request. -/
theorem Stands.running {s : ServerState} {state : Waiting} (h : Stands o s task (.waiting state))
    {r : CompileRequest} (hm : .admitted task o.id r ∈ o.since s) :
    ∃ job run, state = .editing (.compiling (.running job r run)) := by
  cases state with
  | fetching => exact absurd rfl (h _ hm)
  | editing state =>
      cases state with
      | applying document state => exact absurd hm (h.2.unadmitted r)
      | configuring id state => exact absurd hm (h.2.unadmitted r)
      | compiling state =>
          obtain ⟨request, job, run, rfl, _, _, ha⟩ := h
          rw [ha.only r hm]
          exact ⟨job, run, rfl⟩
  | _ => exact h.elim

theorem Stands.editing {s : ServerState} {state : Waiting} (h : Stands o s task (.waiting state))
    {document : OpenDocument} (hm : .received task document ∈ o.since s) : ∃ edit, state = .editing edit := by
  cases state with
  | fetching => exact absurd rfl (h _ hm)
  | editing edit => exact ⟨edit, rfl⟩
  | _ => exact h.elim

/-- Whoever waits in an edit has received a text. -/
theorem Edit.Stands.received {s : ServerState} {state : Edit} (h : state.Stands o task s) :
    ∃ document, .received task document ∈ o.since s := by
  cases state with
  | applying document state => exact h.2.received
  | configuring id state => exact h.2.received
  | compiling state =>
      obtain ⟨request, job, run, _, _, _, ha⟩ := h
      exact ha.received

/-! ## Servers -/

namespace Server

/-- Nothing disturbs edits, and no call of an edit has failed. -/
structure Undisturbed (o : Outset) (s : Server) : Prop where
  calm : Calm o s.state
  succeeds : ∀ task f document, (task, .error f) ∈ s.ended → .received task document ∉ o.since s.state

theorem Undisturbed.earlier {s s' : Server} (h : Undisturbed o s') (hb : o.Begun s.state)
    (hp : s.state.events <+: s'.state.events) (he : s.ended ⊆ s'.ended) : Undisturbed o s :=
  ⟨h.calm.earlier hb hp, fun task f document hm hreceived =>
    h.succeeds task f document (he hm) (Outset.since_subset hb hp hreceived)⟩

/-- What holds at all times of a server whose texts are edited, as long as nothing disturbs it. -/
structure Edited (o : Outset) (s : Server) : Prop where
  lawful : Lawful s
  course : Course o s.state
  next : ∀ t ∈ s.tasks, t.1 < s.loop.nextTask
  known : ∀ e ∈ o.since s.state, ∀ task, e.call? = some task → task < s.loop.nextTask
  stands : ∀ t ∈ s.tasks, Stands o s.state t.1 t.2
  admitted : ∀ task r, .admitted task o.id r ∈ o.since s.state → Concluded o r s.state ∨
    ∃ job run, (task, .waiting (.editing (.compiling (.running job r run)))) ∈ s.tasks
  received : ∀ task document, .received task document ∈ o.since s.state →
    (∃ state, (task, .waiting (.editing state)) ∈ s.tasks) ∨
      (task, .ok (.status .compiled)) ∈ s.ended ∧ ∃ r, .admitted task o.id r ∈ o.since s.state

variable {s : Server}

/-- New tasks fetch settings, and a record that tells only of older ones does not tell of them. -/
theorem stands_of_launches {s : ServerState} {new : List (TaskId × Operation)} (hl : Launches l l' new)
    (hknown : ∀ e ∈ o.since s, ∀ task, e.call? = some task → task < l.nextTask) {c : TaskId × Operation}
    (hc : c ∈ new) : Stands o s c.1 (.created c.2) ∧ c.1 < l'.nextTask := by
  have hnumber : c.1 ∈ List.range' l.nextTask new.length := hl.numbers ▸ List.mem_map_of_mem hc
  rw [List.mem_range'_1] at hnumber
  have huntouched : Untouched o c.1 s := fun e hm ht => absurd (hknown e hm c.1 ht) (Nat.not_lt.mpr hnumber.1)
  have hfetch := hl.fetches c hc
  obtain ⟨task, operation⟩ := c
  refine ⟨?_, hl.next ▸ hnumber.2⟩
  cases operation with
  | fetchSettings => exact huntouched
  | _ => cases hfetch

/-- A task went on to its next wait or its end. -/
theorem Edited.wentOn (h : Edited o s) (ht : task < s.loop.nextTask) (hp : Paced o { s.loop with current := task } l')
    {step : Step Waiting Result} (hlawful : Lawful (s.wentOn task step l'))
    (hwaits : ∀ state, step = .waits state → Stands o l'.state task (.waiting state))
    (hends : ∀ r, step = .ends r → Untouched o task l'.state ∨ r = .ok (.status .compiled) ∧
      ∃ request, AdmittedAs o task request l'.state ∧ Concluded o request l'.state) :
    Edited o (s.wentOn task step l') := by
  obtain ⟨new, hl⟩ := hp.launches
  obtain ⟨record, he, hr⟩ := hp.record
  have hbegun : o.Begun s.state := h.course.begun
  have hsince : o.since l'.state = o.since s.state ++ record := Outset.since_of_events_eq hbegun.le_length he
  have hnew : l'.created = new := by
    rw [hl.created]
    exact List.append_left_eq_self.mpr h.lawful.created
  have hle : s.loop.nextTask ≤ l'.nextTask := by
    rw [hl.next]
    exact Nat.le_add_right _ _
  have hknown : ∀ e ∈ o.since l'.state, ∀ task, e.call? = some task → task < s.loop.nextTask := by
    intro e hm task' hc
    rw [hsince] at hm
    rcases List.mem_append.mp hm with hm | hm
    · exact h.known e hm task' hc
    · rw [hr e hm task' hc]
      exact ht
  have hother : ∀ task', task' ≠ task → ∀ e ∈ record, e.call? ≠ some task' :=
    fun task' hne e hm hc => hne (hr e hm task' hc)
  have hst : (s.wentOn task step l').state = l'.state := Session.wentOn_state ..
  have hnt : (s.wentOn task step l').loop.nextTask = l'.nextTask := Session.wentOn_nextTask ..
  refine ⟨hlawful, ?_, ?_, ?_, ?_, ?_, ?_⟩
  · rw [hst]
    exact hp.course
  · intro t hm
    rw [hnt]
    rcases Session.mem_wentOn.mp hm with hm | ⟨c, hc, rfl⟩ | ⟨state, _, rfl⟩
    · exact Nat.lt_of_lt_of_le (h.next t (Session.mem_without.mp hm).1) hle
    · exact (stands_of_launches hl hknown (hnew ▸ hc)).2
    · exact Nat.lt_of_lt_of_le ht hle
  · rw [hst, hnt]
    exact fun e hm task' hc => Nat.lt_of_lt_of_le (hknown e hm task' hc) hle
  · intro t hm
    rw [hst]
    rcases Session.mem_wentOn.mp hm with hm | ⟨c, hc, rfl⟩ | ⟨state, hstep, rfl⟩
    · obtain ⟨hm, hne⟩ := Session.mem_without.mp hm
      exact (h.stands t hm).append hbegun he (hother t.1 hne)
    · exact (stands_of_launches hl hknown (hnew ▸ hc)).1
    · exact hwaits state hstep
  · intro task' r hm
    rw [hst] at hm ⊢
    by_cases hne : task' = task
    · subst hne
      cases step with
      | waits state =>
          obtain ⟨job, run, rfl⟩ := (hwaits state rfl).running hm
          exact .inr ⟨job, run, Session.mem_wentOn.mpr (.inr (.inr ⟨_, rfl, rfl⟩))⟩
      | ends res =>
          rcases hends res rfl with huntouched | ⟨_, request, ha, hc⟩
          · exact absurd rfl (huntouched _ hm)
          · rw [ha.only r hm]
            exact .inl hc
    · rw [hsince] at hm
      rcases List.mem_append.mp hm with hm | hm
      · rcases h.admitted task' r hm with hc | ⟨job, run, hm⟩
        · exact .inl (hp.concluded r hc)
        · exact .inr ⟨job, run, Session.mem_wentOn.mpr (.inl (Session.mem_without.mpr ⟨hm, hne⟩))⟩
      · exact absurd rfl (hother task' hne _ hm)
  · intro task' document hm
    rw [hst] at hm ⊢
    by_cases hne : task' = task
    · subst hne
      cases step with
      | waits state =>
          obtain ⟨edit, rfl⟩ := (hwaits state rfl).editing hm
          exact .inl ⟨edit, Session.mem_wentOn.mpr (.inr (.inr ⟨_, rfl, rfl⟩))⟩
      | ends res =>
          rcases hends res rfl with huntouched | ⟨rfl, request, ha, _⟩
          · exact absurd rfl (huntouched _ hm)
          · exact .inr ⟨Session.mem_ended_wentOn.mpr (.inr ⟨_, rfl, rfl⟩), request, ha.admitted⟩
    · rw [hsince] at hm ⊢
      rcases List.mem_append.mp hm with hm | hm
      · rcases h.received task' document hm with ⟨state, hm⟩ | ⟨hm, r, ha⟩
        · exact .inl ⟨state, Session.mem_wentOn.mpr (.inl (Session.mem_without.mpr ⟨hm, hne⟩))⟩
        · exact .inr ⟨Session.mem_ended_wentOn.mpr (.inl hm), r, List.mem_append_left _ ha⟩
      · exact absurd rfl (hother task' hne _ hm)

/-! ## Turns -/

/-- An edit that goes on as edits do. -/
theorem reaches_editing {part : ServerAct (Step Edit SyncStatus)} (h : Course o l.state)
    (hp : Goes o part l (Edit.Stands o task) (Edit.IsOver o task)) :
    Goes o (Waiting.ending part .editing .status) l
      (fun state s => ∃ edit, state = .editing edit ∧ edit.Stands o task s)
      fun r s => ∃ status, r = .status status ∧ Edit.IsOver o task status s :=
  .andThen h hp (fun edit _ hs => ⟨edit, rfl, hs⟩) (p := Waits Waiting.Fits) (fun _ _ => .ends) fun status _ hpaced hd =>
    .done_of hpaced.course ⟨status, rfl, hd⟩

/-- A fetch of settings goes quietly. -/
theorem reaches_fetching {part : ServerAct (Step SettingsRequest Settings)} (hq : Quietly o.id part l) :
    (Waiting.ending part .fetching .settings).Reaches l
      (fun state l' => Quiet o.id l l' ∧ ∃ request, state = .fetching request) fun _ l' => Quiet o.id l l' := by
  unfold Waiting.ending Act.andThen
  rw [Act.reaches_afterwards]
  unfold Act.Reaches
  split
  · exact ⟨hq, _, rfl⟩
  · rename_i r _
    cases r <;> exact hq

theorem leaves_ending {τ α : Type} (part : ServerAct (Step τ α)) (wrap : τ → Waiting) (f : α → Result)
    (l : Loop ServerState Operation) : (Waiting.ending part wrap f).leaves l = part.leaves l := by
  unfold Waiting.ending Act.andThen Act.afterwards
  rw [Act.leaves_bind]
  split
  · rfl
  · rename_i r _
    cases r <;> rfl

/-- A text is received before anything can fail. -/
theorem received_of_start (document : OpenDocument) (hs : l.state.Sound) :
    ∃ record, ((Edit.start document).leaves l).state.events =
      l.state.events ++ [.received l.current document] ++ record := by
  have hfails : ∀ f, ((Edit.afterApplying document (pure (.fail f))).leaves
      ((note (.received l.current document)).leaves l)).state.events =
        l.state.events ++ [.received l.current document] ++ [] := fun _ => (List.append_nil _).symm
  have hthen : ∀ {β : Type} (x : ServerAct β) (f : β → ServerAct (Step Applying Applied)) l,
      (Edit.afterApplying document (x >>= f)).leaves l =
        (Edit.afterApplying document (f (x.returns l))).leaves (x.leaves l) := fun _ _ _ => rfl
  have hstate : (Act.state : ServerAct ServerState).returns ((note (.received l.current document)).leaves l) =
      { l.state with events := l.state.events ++ [.received l.current document] } := rfl
  unfold Edit.start Applying.start
  rw [hthen, hthen, hthen, Act.returns_self, Act.leaves_self, hstate]
  cases Uri.toPath document.uri with
  | error e => exact ⟨[], hfails _⟩
  | ok path =>
      cases hc : l.state.documents.change document with
      | error e => exact ⟨[], hfails _⟩
      | ok r =>
          obtain ⟨t, documents⟩ := r
          have hreceives : Leads l.state { l.state with
              documents, events := l.state.events ++ [.received l.current document] } := .single (.receives l.current hc)
          have hprocess : Proceeds (Edit.afterApplying document
              (if l.state.policy.isSource path then Applying.afterLocating document path (Locating.start path)
              else pure (.done ⟨.failed, none⟩)))
              { l with state := { l.state with
                documents, events := l.state.events ++ [.received l.current document] } } (Waits Edit.Fits) := by
            refine Edit.proceeds_afterApplying document ?_
            split
            · exact Applying.proceeds_afterLocating document path (Locating.proceeds_start path)
            · exact .ends
          obtain ⟨record, he⟩ := (hprocess (hs.leads hreceives)).1.later.events
          exact ⟨record, he.symm⟩

/-- Where the turn of a task leads that goes by steps of the server. -/
abbrev LawfullyRuns (s : Server) (task : TaskId) (a : ServerAct (Step Waiting Result)) : Prop :=
  a.Reaches { s.loop with current := task }
    (fun state l => Lawful (s.wentOn task (.waits state) l) ∧ Leads s.state (s.wentOn task (.waits state) l).state)
    fun r l => Lawful (s.wentOn task (.ends r) l) ∧ Leads s.state (s.wentOn task (.ends r) l).state

/-- The turn of a task of which the record does not tell. -/
theorem Edited.ran_quietly (h : Edited o s) (ht : task < s.loop.nextTask) (hun : Untouched o task s.state)
    {a : ServerAct (Step Waiting Result)} (hlawful : LawfullyRuns s task a)
    (hq : a.Reaches { s.loop with current := task }
      (fun state l' => Quiet o.id { s.loop with current := task } l' ∧ ∃ request, state = .fetching request)
      fun _ l' => Quiet o.id { s.loop with current := task } l') :
    a.Reaches { s.loop with current := task }
      (fun state l' => Edited o (s.wentOn task (.waits state) l')) fun r l' => Edited o (s.wentOn task (.ends r) l') := by
  have hafter : ∀ {l'}, Quiet o.id { s.loop with current := task } l' → Untouched o task l'.state := by
    intro l' hq
    obtain ⟨record, he, hr⟩ := hq.record
    refine hun.append h.course.begun he fun e hm hc => ?_
    rw [Event.call?_of_isIdle (hr e hm)] at hc
    cases hc
  have hpaced : ∀ l', Leads s.state l'.state → Quiet o.id { s.loop with current := task } l' →
      Paced o { s.loop with current := task } l' := fun _ hl hq => .of_quiet h.course hl hq
  refine (hlawful.and hq).mono (fun state l' hc => ?_) fun r l' hc => ?_
  · obtain ⟨⟨hlaw, hlead⟩, hq, request, rfl⟩ := hc
    refine h.wentOn ht (hpaced l' hlead hq) hlaw (fun state' hs => ?_) fun _ hs => ?_
    · cases hs
      exact hafter hq
    · cases hs
  · obtain ⟨⟨hlaw, hlead⟩, hq⟩ := hc
    refine h.wentOn ht (hpaced l' hlead hq) hlaw (fun _ hs => ?_) fun _ _ => ?_
    · cases hs
    · exact .inl (hafter hq)

/-- The turn of an edit that has received its text. -/
theorem Edited.ran_edit (h : Edited o s) (ht : task < s.loop.nextTask) {a : ServerAct (Step Waiting Result)}
    (hlawful : LawfullyRuns s task a)
    (hg : Goes o a { s.loop with current := task } (fun state s => ∃ edit, state = .editing edit ∧ edit.Stands o task s)
      fun r s => ∃ status, r = .status status ∧ Edit.IsOver o task status s)
    (hr : ∃ document, .received task document ∈ o.since (a.leaves { s.loop with current := task }).state) :
    a.Reaches { s.loop with current := task }
      (fun state l' => Undisturbed o (s.wentOn task (.waits state) l') → Edited o (s.wentOn task (.waits state) l'))
      fun r l' => Undisturbed o (s.wentOn task (.ends r) l') → Edited o (s.wentOn task (.ends r) l') := by
  obtain ⟨document, hr⟩ := hr
  have hcomes := hlawful.and hg.comes
  unfold Act.Reaches at hcomes ⊢
  cases hstep : a.returns { s.loop with current := task } with
  | waits state =>
      rw [hstep] at hcomes
      obtain ⟨⟨hlaw, _⟩, hc⟩ := hcomes
      intro hu
      obtain ⟨hpaced, edit, rfl, hstands⟩ := hc hu.calm
      refine h.wentOn ht hpaced hlaw (fun state' hs => ?_) fun _ hs => ?_
      · cases hs
        exact hstands
      · cases hs
  | ends r =>
      rw [hstep] at hcomes
      obtain ⟨⟨hlaw, _⟩, hc⟩ := hcomes
      intro hu
      cases r with
      | error f => exact absurd hr (hu.succeeds task f document (Session.mem_ended_wentOn.mpr (.inr ⟨_, rfl, rfl⟩)))
      | ok result =>
          obtain ⟨hpaced, status, rfl, rfl, hover⟩ := hc hu.calm result rfl
          refine h.wentOn ht hpaced hlaw (fun _ hs => ?_) fun r' hs => ?_
          · cases hs
          · cases hs
            exact .inr ⟨rfl, hover⟩

/-- A task takes its turn. -/
theorem Edited.ran (h : Edited o s) {x : Suspended Operation Waiting} (hx : s.task? task = some x)
    (signal : Signal) (hu : Undisturbed o (Session.run serverMachine s task signal)) :
    Edited o (Session.run serverMachine s task signal) := by
  revert hu
  have hmem := Session.mem_of_task? hx
  have hstands := h.stands _ hmem
  have ht := h.next _ hmem
  refine Session.run_of_reaches (p := fun s' => Undisturbed o s' → Edited o s') hx ?_
  have hprocess : Proceeds (serverMachine.goesOn signal x) { s.loop with current := task } (Waits Waiting.Fits) := by
    cases x with
    | created operation => exact Waiting.proceeds_start (h.lawful.begins task operation hmem) signal
    | waiting state =>
        exact Waiting.proceeds_resume (l := { s.loop with current := task }) (h.lawful.fits task state hmem) signal
  have hlawful : LawfullyRuns s task (serverMachine.goesOn signal x) :=
    h.lawful.wentOn (l := { s.loop with current := task }) rfl h.lawful.created hprocess
  have hquietly : Untouched o task s.state → (serverMachine.goesOn signal x).Reaches { s.loop with current := task }
      (fun state l' => Quiet o.id { s.loop with current := task } l' ∧ ∃ request, state = .fetching request)
      (fun _ l' => Quiet o.id { s.loop with current := task } l') → _ := fun hun hq =>
    (h.ran_quietly ht hun hlawful hq).mono
      (fun state l' he (_ : Undisturbed o (s.wentOn task (.waits state) l')) => he)
      fun r l' he (_ : Undisturbed o (s.wentOn task (.ends r) l')) => he
  cases x with
  | created operation =>
      cases operation with
      | edit document =>
          obtain ⟨hsource, hun⟩ := hstands
          cases signal with
          | go =>
              have hnone : ∀ r, .admitted task o.id r ∉ o.since s.state := fun r hm => hun _ hm rfl
              have hgoes := Edit.goes_start (l := { s.loop with current := task }) h.course hsource hnone
              obtain ⟨record, he⟩ := received_of_start document (l := { s.loop with current := task }) h.lawful.sound
              refine h.ran_edit ht hlawful (reaches_editing h.course hgoes) ⟨document, ?_⟩
              have hevents : ((serverMachine.goesOn .go (.created (.edit document))).leaves
                  { s.loop with current := task }).state.events =
                    s.state.events ++ ([.received task document] ++ record) := by
                rw [← List.append_assoc]
                exact (congrArg (·.state.events) (leaves_ending (Edit.start document) .editing .status _)).trans he
              rw [Outset.since_of_events_eq h.course.begun.le_length hevents]
              exact List.mem_append_right _ (List.mem_append_left _ (List.mem_singleton_self _))
          | _ => exact hquietly hun .refl
      | fetchSettings uri =>
          cases signal with
          | go => exact hquietly hstands (reaches_fetching (SettingsRequest.quietly_start uri .go))
          | _ => exact hquietly hstands (reaches_fetching (SettingsRequest.quietly_start uri _))
      | _ => exact hstands.elim
  | waiting state =>
      cases state with
      | editing edit =>
          obtain ⟨document, hr⟩ := hstands.received
          have hfits := h.lawful.fits task _ hmem
          have hgoes := Edit.goes_resume (l := { s.loop with current := task }) h.course hstands hfits signal
          have hlead := (hprocess h.lawful.sound).1
          exact h.ran_edit ht hlawful (reaches_editing h.course hgoes)
            ⟨document, Outset.since_subset h.course.begun hlead.later.events hr⟩
      | fetching request => exact hquietly hstands (reaches_fetching (SettingsRequest.quietly_resume request signal))
      | _ => exact hstands.elim

/-! ## Moves -/

/-- What happens to a server of which nothing is asked but edits: tasks take their turns and may be cancelled,
gates are worked, the client answers, and the time of a compiler may be over. -/
inductive IsEditing (o : Outset) : Session.Move External → Prop where
  | turn : IsEditing o .turn
  | cancels (task : TaskId) : IsEditing o (.cancels task)
  | passes (task : TaskId) (signal : Signal) : IsEditing o (.passes task signal)
  | closes (gate : String) : IsEditing o (.closes gate)
  | opens (gate : String) : IsEditing o (.opens gate)
  | edits {document : OpenDocument} (h : o.isSource document) : IsEditing o (.outside (.asks (.edit document)))
  | replies (index : Nat) (answer : Except Failure Value) : IsEditing o (.outside (.reply index answer))
  | expires : IsEditing o (.outside .expires)

/-- What is done quietly from outside. -/
theorem Edited.act_quietly {α : Type} (h : Edited o s) {a : ServerAct α} {post : α → ServerState → Prop}
    (ha : Proceeds a s.loop post) (hq : Quietly o.id a s.loop) : Edited o (s.act a).2 := by
  obtain ⟨hlawful, hlead⟩ := h.lawful.act ha
  have hp : Paced o s.loop (a.leaves s.loop) := .of_quiet h.course hlead hq
  obtain ⟨new, hl⟩ := hq.launches
  obtain ⟨record, he, hr⟩ := hq.record
  have hbegun : o.Begun s.state := h.course.begun
  have hsince : o.since (s.act a).2.state = o.since s.state ++ record :=
    Outset.since_of_events_eq hbegun.le_length he
  have hnone : ∀ e ∈ record, ∀ task, e.call? ≠ some task := fun e hm task hc => by
    rw [Event.call?_of_isIdle (hr e hm)] at hc
    cases hc
  have hnew : (a.leaves s.loop).created = new := by
    rw [hl.created]
    exact List.append_left_eq_self.mpr h.lawful.created
  have htasks : (s.act a).2.tasks = s.tasks ++ new.map fun c => (c.1, .created c.2) := by
    rw [← hnew]
    rfl
  have hle : s.loop.nextTask ≤ (a.leaves s.loop).nextTask := by
    rw [hl.next]
    exact Nat.le_add_right _ _
  have hknown : ∀ e ∈ o.since (s.act a).2.state, ∀ task, e.call? = some task → task < s.loop.nextTask := by
    intro e hm task hc
    rw [hsince] at hm
    rcases List.mem_append.mp hm with hm | hm
    · exact h.known e hm task hc
    · exact absurd hc (hnone e hm task)
  refine ⟨hlawful, hp.course, ?_, ?_, ?_, ?_, ?_⟩
  · intro t hm
    rw [htasks] at hm
    rcases List.mem_append.mp hm with hm | hm
    · exact Nat.lt_of_lt_of_le (h.next t hm) hle
    · obtain ⟨c, hc, rfl⟩ := List.mem_map.mp hm
      exact (stands_of_launches hl hknown hc).2
  · exact fun e hm task hc => Nat.lt_of_lt_of_le (hknown e hm task hc) hle
  · intro t hm
    rw [htasks] at hm
    rcases List.mem_append.mp hm with hm | hm
    · exact (h.stands t hm).append hbegun he fun e hm => hnone e hm t.1
    · obtain ⟨c, hc, rfl⟩ := List.mem_map.mp hm
      exact (stands_of_launches hl hknown hc).1
  · intro task r hm
    rw [hsince] at hm
    rw [htasks]
    rcases List.mem_append.mp hm with hm | hm
    · rcases h.admitted task r hm with hc | ⟨job, run, hm⟩
      · exact .inl (hp.concluded r hc)
      · exact .inr ⟨job, run, List.mem_append_left _ hm⟩
    · exact absurd rfl (hnone _ hm task)
  · intro task document hm
    rw [hsince] at hm ⊢
    rw [htasks]
    rcases List.mem_append.mp hm with hm | hm
    · rcases h.received task document hm with ⟨state, hm⟩ | ⟨hm, r, ha⟩
      · exact .inl ⟨state, List.mem_append_left _ hm⟩
      · exact .inr ⟨hm, r, List.mem_append_left _ ha⟩
    · exact absurd rfl (hnone _ hm task)

/-- An edit is asked for. -/
theorem Edited.asks (h : Edited o s) {document : OpenDocument} (hd : o.isSource document) :
    Edited o (s.act (discard (Act.create (.edit document)))).2 := by
  have hcreates : Proceeds (Act.create (.edit document)) s.loop fun _ s' => s' = s.loop.state := proceeds_create rfl
  have hlawful := (h.lawful.act hcreates).1
  have htasks : (s.act (discard (Act.create (.edit document)))).2.tasks =
      s.tasks ++ [(s.loop.nextTask, .created (.edit document))] := by
    show s.tasks ++ (s.loop.created ++ [(s.loop.nextTask, Operation.edit document)]).map _ = _
    rw [h.lawful.created]
    rfl
  refine ⟨hlawful, h.course, ?_, ?_, ?_, ?_, ?_⟩
  · intro t hm
    rw [htasks] at hm
    rcases List.mem_append.mp hm with hm | hm
    · exact Nat.lt_succ_of_lt (h.next t hm)
    · rw [List.mem_singleton.mp hm]
      exact Nat.lt_succ_self _
  · exact fun e hm task hc => Nat.lt_succ_of_lt (h.known e hm task hc)
  · intro t hm
    rw [htasks] at hm
    rcases List.mem_append.mp hm with hm | hm
    · exact h.stands t hm
    · rw [List.mem_singleton.mp hm]
      exact ⟨hd, fun e hm hc => absurd (h.known e hm _ hc) (Nat.lt_irrefl _)⟩
  · intro task r hm
    rw [htasks]
    rcases h.admitted task r hm with hc | ⟨job, run, hm⟩
    · exact .inl hc
    · exact .inr ⟨job, run, List.mem_append_left _ hm⟩
  · intro task document hm
    rw [htasks]
    rcases h.received task document hm with ⟨state, hm⟩ | hended
    · exact .inl ⟨state, List.mem_append_left _ hm⟩
    · exact .inr hended

theorem quietly_reply (index : Nat) (answer : Except Failure Value) : Quietly o.id (Reception.reply index answer) l := by
  unfold Reception.reply
  rw [quietly_state]
  dsimp only
  have hclient : ∀ (f : Client → Client) l, Quietly o.id (Reception.updateClient f) l :=
    fun f l => .aside rfl rfl rfl rfl rfl rfl rfl rfl
  split
  · exact quietly_pure _
  · refine Quietly.bind (hclient _ _) fun _ l₁ => ?_
    split
    · exact quietly_pure _
    · exact Quietly.bind (hclient _ _) fun _ _ => Quietly.bind (quietly_wake _ _ _) fun _ _ => quietly_pure _

theorem quietly_expireFirst : Quietly o.id Invocation.expireFirst l := by
  unfold Invocation.expireFirst
  rw [quietly_state]
  split
  · exact quietly_pure _
  · exact .aside rfl rfl rfl rfl rfl rfl rfl rfl

theorem Edited.ready (h : Edited o s) (ready : List Wake) : Edited o { s with loop := { s.loop with ready } } :=
  ⟨⟨h.lawful.sound, h.lawful.created, h.lawful.begins, h.lawful.fits⟩, h.course, h.next, h.known, h.stands,
    h.admitted, h.received⟩

/-- What holds at all times is kept by every move, as long as nothing disturbs edits. -/
theorem Edited.advance (h : Edited o s) {move : Session.Move External} (hm : IsEditing o move)
    (hu : Undisturbed o (Session.advance serverMachine External.act s move)) :
    Edited o (Session.advance serverMachine External.act s move) := by
  cases hm with
  | turn =>
      revert hu
      refine Session.turn_keeps (p := fun s' => Undisturbed o s' → Edited o s') (fun _ => h)
        (fun _ _ _ _ _ => h.ready _) (fun _ _ _ _ _ => h.ready _) fun w rest x _ hx => ?_
      exact (h.ready rest).ran hx w.signal
  | cancels task =>
      show Edited o (s.cancel task).2
      unfold Session.cancel
      split
      · exact h.act_quietly (proceeds_cancel task) (.aside rfl rfl rfl rfl rfl rfl rfl rfl)
      · exact h
  | passes task signal =>
      have hstate : ((Act.pass task signal).leaves s.loop).state = s.state ∧
          ((Act.pass task signal).leaves s.loop).created = s.loop.created := by
        rw [Act.pass, Act.leaves_modify]
        split <;> exact ⟨rfl, rfl⟩
      refine h.act_quietly (proceeds_of_state_eq hstate.1 hstate.2) ?_
      unfold Quietly
      rw [Act.pass, Act.leaves_modify]
      split
      · exact .aside rfl rfl rfl rfl rfl rfl rfl rfl
      · exact .refl
  | closes gate =>
      exact h.act_quietly (a := Act.close gate) (proceeds_of_state_eq rfl rfl)
        (.aside rfl rfl rfl rfl rfl rfl rfl rfl)
  | opens gate =>
      exact h.act_quietly (a := Act.open_ gate) (proceeds_of_state_eq rfl rfl)
        (.aside rfl rfl rfl rfl rfl rfl rfl rfl)
  | edits hd => exact h.asks hd
  | replies index answer =>
      exact h.act_quietly (External.proceeds_act (e := .reply index answer) nofun) (quietly_reply index answer)
  | expires => exact h.act_quietly (External.proceeds_act (e := .expires) nofun) quietly_expireFirst

/-- Such moves go by steps of the server. -/
theorem IsEditing.allows {move : Session.Move External} (h : IsEditing o move) (allowed : Foreign → Prop) :
    Allows allowed move := by
  cases h <;> trivial

/-- What holds at all times holds however a run goes on, as long as nothing has disturbed edits by its end. -/
theorem Edited.after (h : Edited o s) {moves : List (Session.Move External)} (hm : ∀ move ∈ moves, IsEditing o move)
    (hu : Undisturbed o (s.after serverMachine External.act moves)) :
    Edited o (s.after serverMachine External.act moves) := by
  induction moves generalizing s with
  | nil => exact h
  | cons move rest ih =>
      have hfirst := hm move List.mem_cons_self
      have hrest : ∀ move ∈ rest, IsEditing o move := fun move hmem => hm move (List.mem_cons_of_mem _ hmem)
      obtain ⟨hlawful, hstep⟩ := h.lawful.advance (hfirst.allows fun _ => True)
      obtain ⟨_, hsteps⟩ := hlawful.after fun move hmem => (hrest move hmem).allows fun _ => True
      have hbegun := h.course.begun.later (Steps.later hstep).events
      have hu' := hu.earlier hbegun (Steps.later hsteps).events (Session.ended_subset_after _ rest)
      exact ih (h.advance hfirst hu') hrest hu

end Server

end InkServer
