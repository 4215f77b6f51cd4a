import InkServer.Proofs.Workspace.Pace

/-!
# How the request of an edit goes

An edit whose text is in the mirror is admitted as a request, and the request waits for its turn, runs and is
decided on. When it ends well it is over: it was overtaken, or its report was delivered.
-/

namespace InkServer

open ServerState ServerAct

/-- The request that runs. -/
def Scheduler.Run.request {ι : Type} : Scheduler.Run ι → CompileRequest
  | .queued request => request
  | .invoking request _ => request

variable {o : Outset} {s : ServerState} {l : Loop ServerState Operation} {τ α : Type} {task : TaskId}
  {request : CompileRequest} {waits : τ → ServerState → Prop} {done : α → ServerState → Prop}

/-! ## Delivering a report -/

/-- The state after a report was delivered of which the user had to be told something. -/
def ServerState.delivering (s : ServerState) (id : WorkspaceId) (w : Workspace) (request : CompileRequest)
    (report : CompilerReport) (notices : List Notice) (diagnostics : List AddressedDiagnostic) : ServerState :=
  ({ s with events := s.events ++ .reported id request report :: notices.map .noticed } : ServerState).moved id
    { w with published := (groupByUri diagnostics).keys } (replacements w diagnostics)
    [.delivered id request diagnostics.length]

/-- Nothing of a delivery is about the call of an edit. -/
theorem delivering_events (s : ServerState) (id : WorkspaceId) (w : Workspace) (request : CompileRequest)
    (report : CompilerReport) (notices : List Notice) (diagnostics : List AddressedDiagnostic) :
    ∃ record, (s.delivering id w request report notices diagnostics).events = s.events ++ record ∧
      ∀ e ∈ record, e.call? = none := by
  obtain ⟨p, published, hmoved, hpublished⟩ := moved_eq { s with
      events := s.events ++ .reported id request report :: notices.map .noticed } id
    { w with published := (groupByUri diagnostics).keys } (replacements w diagnostics)
    [.delivered id request diagnostics.length]
  unfold delivering
  rw [hmoved]
  refine ⟨_, List.append_assoc _ _ _, fun e hm => ?_⟩
  rcases List.mem_append.mp hm with hm | hm
  · rcases List.mem_cons.mp hm with rfl | hm
    · rfl
    · obtain ⟨n, _, rfl⟩ := List.mem_map.mp hm
      rfl
  · rcases List.mem_append.mp hm with hm | hm
    · have hpub := hpublished e hm
      cases e <;> first | rfl | cases hpub
    · rw [List.mem_singleton.mp hm]
      rfl

namespace Delivery

/-- Reading a report: the user may be warned. -/
theorem diagnosticsOf_eq (root : Path) (report : CompilerReport) (l : Loop ServerState Operation) :
    ∃ notices : List Notice, (diagnosticsOf root report).leaves l =
        { l with state := { l.state with events := l.state.events ++ notices.map .noticed } } ∧
      (diagnosticsOf root report).returns l =
        (report.shown l.state.documents.uriForPath root).mapError Failure.report := by
  unfold diagnosticsOf CompilerReport.shown
  rw [Act.leaves_bind, Act.returns_bind, Act.leaves_state, Act.returns_state]
  dsimp only
  cases report.diagnostics l.state.documents.uriForPath root with
  | ok ds => exact ⟨[], by rw [List.map_nil, List.append_nil]; rfl, rfl⟩
  | error e =>
      cases e with
      | unrecognized u =>
          refine ⟨[.warning ("inklecate returned an unexpected report: " ++ u.message)], ?_, ?_⟩
          · dsimp only
            split <;> rfl
          · dsimp only
            rw [Act.returns_bind]
            cases u.toDiagnostic l.state.documents.uriForPath root report.entry <;> rfl
      | _ => exact ⟨[], by rw [List.map_nil, List.append_nil]; rfl, rfl⟩

theorem ne_removed_of_isReady {w : Workspace} (h : w.isReady) : w.state ≠ .removed := by
  intro hs
  simp [Workspace.isReady, hs] at h

/-- Delivering a report: it is shown, or the delivery fails and nothing is published. -/
theorem deliver_eq {id : WorkspaceId} {w : Workspace} (outcome : CompileOutcome CompilerReport)
    {report : CompilerReport} (he : outcome.error = none) (hr : outcome.result = some report)
    (hw : l.state.workspaces[id]? = some w) (hstate : w.state ≠ .removed) :
    ∃ notices : List Notice,
      (∃ e, report.shown l.state.documents.uriForPath w.root = .error e ∧
        (deliver id outcome).returns l = .error (.report e) ∧
        (deliver id outcome).leaves l = { l with
          state := { l.state with
            events := l.state.events ++ .reported id outcome.request report :: notices.map .noticed } }) ∨
      ∃ diagnostics, report.shown l.state.documents.uriForPath w.root = .ok diagnostics ∧
        (deliver id outcome).returns l = .ok diagnostics.length ∧
        (deliver id outcome).leaves l =
          { l with state := l.state.delivering id w outcome.request report notices diagnostics } := by
  have hret : (workspace? id).returns l = some w := hw
  unfold deliver withWorkspace
  rw [Act.returns_bind, Act.leaves_bind, hret]
  dsimp only
  rw [if_neg hstate, he, hr]
  dsimp only
  rw [Act.returns_bind, Act.leaves_bind, Act.returns_bind, Act.leaves_bind]
  obtain ⟨notices, hleaves, hreturns⟩ := diagnosticsOf_eq w.root report
    ((note (.reported id outcome.request report)).leaves l)
  have hreported : (diagnosticsOf w.root report).leaves ((note (.reported id outcome.request report)).leaves l) =
      { l with state := { l.state with
        events := l.state.events ++ .reported id outcome.request report :: notices.map .noticed } } := by
    rw [List.append_cons]
    exact hleaves
  have hdocuments : ((note (.reported id outcome.request report)).leaves l).state.documents = l.state.documents :=
    rfl
  have hsame : (workspace? id).leaves l = l := rfl
  rw [hdocuments] at hreturns
  rw [hsame, hreported, hreturns]
  refine ⟨notices, ?_⟩
  cases hshown : report.shown l.state.documents.uriForPath w.root with
  | error e => exact .inl ⟨e, rfl, rfl, rfl⟩
  | ok diagnostics =>
      refine .inr ⟨diagnostics, rfl, rfl, ?_⟩
      have hreplace := leaves_replace (l := { l with
        state := { l.state with
          events := l.state.events ++ .reported id outcome.request report :: notices.map .noticed } })
        diagnostics hw
      show ((do
        replace id diagnostics
        note (.delivered id outcome.request diagnostics.length)
        pure (.ok diagnostics.length)) : ServerAct (Except Failure Nat)).leaves _ = _
      rw [Act.leaves_bind, hreplace]
      rfl

/-- Delivering the failure of a compiler. -/
theorem deliver_failure_eq {id : WorkspaceId} {w : Workspace} (outcome : CompileOutcome CompilerReport)
    {e : CompilerError} (he : outcome.error = some e) (hw : l.state.workspaces[id]? = some w)
    (hstate : w.state ≠ .removed) :
    (deliver id outcome).returns l = .ok 0 ∧
      (deliver id outcome).leaves l = { l with
        state := { l.state with events := l.state.events ++ [.noticed (.serverError (some e.message))] } } := by
  have hret : (workspace? id).returns l = some w := hw
  unfold deliver withWorkspace
  rw [Act.returns_bind, Act.leaves_bind, hret]
  dsimp only
  rw [if_neg hstate, he]
  exact ⟨rfl, rfl⟩

end Delivery

namespace Compilation

/-- What a request is decided on, and what is left when it is. -/
theorem accept_eq {job : CompileJob} {w : Workspace} (request : CompileRequest) (hw : l.state.workspaces[job.id]? = some w) :
    ((invocations job).accept request).returns l = (w.scheduler.accept request).1 ∧
      ((invocations job).accept request).leaves l = { l with
        state := { l.state with
          workspaces := l.state.workspaces.set job.id { w with scheduler := (w.scheduler.accept request).2 } } } := by
  have hscheduler : schedulerOf l.state job.id = w.scheduler := schedulerOf_eq hw
  have hreturns : ((invocations job).accept request).returns l =
      ((schedulerOf l.state job.id).accept request).1 := rfl
  have hleaves : ((invocations job).accept request).leaves l = { l with
      state := { l.state with
        workspaces := l.state.workspaces.modify job.id fun w =>
          { w with scheduler := ((schedulerOf l.state job.id).accept request).2 } } } := rfl
  rw [hreturns, hleaves, hscheduler, modify_eq_set hw]
  exact ⟨rfl, rfl⟩

/-- The workspace when a request was decided on. -/
theorem workspace_of_accept {job : CompileJob} {w : Workspace} (request : CompileRequest)
    (hw : l.state.workspaces[job.id]? = some w) :
    (((invocations job).accept request).leaves l).state.workspaces[job.id]? =
      some { w with scheduler := (w.scheduler.accept request).2 } := by
  rw [(accept_eq request hw).2]
  exact List.getElem?_set_self (List.getElem?_eq_some_iff.mp hw).1

/-- What a request is concluded with if its outcome was delivered. -/
theorem leaves_conclude {job : CompileJob} {outcome : CompileOutcome CompilerReport} {count : Nat}
    (ha : outcome.accepted) (hd : (Delivery.deliver job.id outcome).returns l = .ok count) :
    ((invocations job).conclude outcome).leaves l =
      (Act.unlock (invocations job).lockPlace).leaves ((Delivery.deliver job.id outcome).leaves l) := by
  have hdeliver : ((invocations job).deliver outcome).returns l = .ok count := hd
  unfold Scheduler.Invocations.conclude
  rw [if_pos ha, Act.leaves_bind, hdeliver]
  rfl

/-- A request that is not accepted is over. -/
theorem concluded_of_rejected (h : Course o s) (ha : AdmittedAs o task request s) {w : Workspace}
    (hw : s.workspaces[o.id]? = some w) (hr : (w.scheduler.accept request).1 = false) : Concluded o request s := by
  obtain ⟨w', hw', hprogress⟩ := h.progress
  intro w₁ hw₁
  rw [hw₁] at hw hw'
  cases hw
  cases hw'
  obtain ⟨_, hle, _⟩ := hprogress.admissions.admitted task request ha.admitted
  refine ⟨hle, fun hlatest => ?_⟩
  have hrequest := hprogress.admissions.eq_latestRequest ha.admitted hlatest
  refine Nat.le_antisymm hprogress.accepted_le (Nat.not_lt.mp fun hlt => ?_)
  rw [Scheduler.accept_fst_iff.mpr ⟨hrequest, hlt⟩] at hr
  cases hr

/-- Where the lock is given back nothing else happens. -/
theorem goes_unlocked (job : CompileJob) (h : Course o l.state) {c : Scheduler.Conclusion CompilerReport Nat}
    (ha : AdmittedAs o l.current request l.state) (hc : Concluded o request l.state) :
    Goes o (do
        Act.unlock (invocations job).lockPlace
        pure (.done c) : ServerAct (Step (Scheduler.Run Invocation) (Scheduler.Conclusion CompilerReport Nat))) l
      (fun _ _ => False) fun _ s => AdmittedAs o l.current request s ∧ Concluded o request s := by
  have hlead := (proceeds_unlock (leads_lockPlace job l.state) h.established.sound).1
  have hq : Quietly o.id (Act.unlock (invocations job).lockPlace) l := quietly_unlock (quiet_lockPlace job)
  exact .quietly h hlead hq (.done_of (h.quiet hlead hq) ⟨ha.quiet h.begun hq, hc.alike h.known hq.workspace⟩)

/-- A request that is not accepted. -/
theorem goes_rejected (job : CompileJob) (h : Course o l.state) (ha : AdmittedAs o l.current request l.state)
    (hc : Concluded o request l.state) {outcome : CompileOutcome CompilerReport} (hr : outcome.accepted = false) :
    Goes o ((invocations job).conclude outcome) l (fun _ _ => False)
      fun _ s => AdmittedAs o l.current request s ∧ Concluded o request s := by
  unfold Scheduler.Invocations.conclude
  rw [if_neg (by rw [hr]; decide)]
  exact goes_unlocked job h ha hc

/-- A request that is decided on. -/
theorem goes_judged (job : CompileJob) (hjob : job.id = o.id) (h : Course o l.state)
    (ha : AdmittedAs o l.current request l.state) (outcome : Bool → CompileOutcome CompilerReport)
    (ho : ∀ accepted, (outcome accepted).accepted = accepted)
    (hp : ∀ w, l.state.workspaces[job.id]? = some w → (w.scheduler.accept request).1 = true →
      Goes o ((invocations job).accept request >>= fun accepted => (invocations job).conclude (outcome accepted)) l
        (fun _ _ => False) fun _ s => AdmittedAs o l.current request s ∧ Concluded o request s) :
    Goes o ((invocations job).accept request >>= fun accepted => (invocations job).conclude (outcome accepted)) l
      (fun _ _ => False) fun _ s => AdmittedAs o l.current request s ∧ Concluded o request s := by
  obtain ⟨w, hw, _⟩ := h.progress
  rw [← hjob] at hw
  cases hpasses : (w.scheduler.accept request).1 with
  | true => exact hp w hw hpasses
  | false =>
      obtain ⟨hreturns, hleaves⟩ := accept_eq request hw
      have hsame : ((invocations job).accept request).leaves l = l := by
        obtain ⟨hlt, hget⟩ := List.getElem?_eq_some_iff.mp hw
        rw [hleaves, Scheduler.accept_snd, hpasses, if_neg Bool.false_ne_true, ← hget, List.set_getElem_self]
      have hconclude : Goes o ((invocations job).conclude (outcome false)) l (fun _ _ => False)
          fun _ s => AdmittedAs o l.current request s ∧ Concluded o request s :=
        goes_rejected job h ha (concluded_of_rejected h ha (hjob ▸ hw) hpasses) (ho false)
      refine .after (by rw [hsame]) (by rw [hsame]; exact .of_quiet h .refl .refl) ?_
      rw [hsame, hreturns, hpasses]
      exact hconclude

/-- The failure of a compiler disturbs edits, or nobody hears of it. -/
theorem goes_failed (job : CompileJob) (hjob : job.id = o.id) (h : Course o l.state)
    (ha : AdmittedAs o l.current request l.state) (e : CompilerError) :
    Goes o ((invocations job).accept request >>= fun accepted =>
        (invocations job).conclude { request, accepted, error := some e }) l
      (fun _ _ => False) fun _ s => AdmittedAs o l.current request s ∧ Concluded o request s := by
  refine goes_judged job hjob h ha (fun accepted => { request, accepted, error := some e }) (fun _ => rfl)
    fun w hw hpasses => ?_
  have hprocess : Proceeds ((invocations job).accept request >>= fun accepted =>
      (invocations job).conclude { request, accepted, error := some e }) l (Waits (RunFits job.id)) :=
    (proceeds_accept job request).bind fun _ _ _ hc => proceeds_conclude job hc nofun
  refine .of_not_calm (hprocess h.established.sound).1 ?_
  obtain ⟨hreturns, hleaves⟩ := accept_eq request hw
  obtain ⟨w', hw', hprogress⟩ := h.progress
  rw [← hjob, hw] at hw'
  cases hw'
  have hlead := (proceeds_accept (l := l) job request h.established.sound).1
  have haccepted := workspace_of_accept request hw
  obtain ⟨hdelivered, hnoticed⟩ := Delivery.deliver_failure_eq
    { request, accepted := true, error := some e } rfl haccepted (Delivery.ne_removed_of_isReady hprogress.isReady)
  rw [Act.leaves_bind, hreturns, hpasses, leaves_conclude rfl hdelivered, Act.leaves_unlock, hnoticed]
  exact not_calm_of_leads (h.begun.later hlead.later.events) rfl (List.mem_singleton_self _)
    (e := .noticed (.serverError (some e.message))) trivial (leads_lockPlace job _ _)

/-- Things that are noted one after the other. -/
theorem leads_notes {events : List Event}
    (h : ∀ e ∈ events, IsPlain e ∧ ∀ id g m, e ≠ .made id g m ∧ e ≠ .superseded id g m) :
    Leads s { s with events := s.events ++ events } := by
  induction events generalizing s with
  | nil =>
      exact Eq.subst (motive := fun events => Leads s { s with events }) (List.append_nil s.events).symm .refl
  | cons e rest ih =>
      have hfirst : Leads s { s with events := s.events ++ [e] } := by
        obtain ⟨hplain, hs⟩ := h e List.mem_cons_self
        exact .single (.notes hplain (fun id g m he => absurd he (hs id g m).1) fun id g m he => absurd he (hs id g m).2)
      have hrest := ih (s := { s with events := s.events ++ [e] }) fun e hm => h e (List.mem_cons_of_mem _ hm)
      rw [List.append_cons]
      exact hfirst.trans hrest

/-- The report of the latest request is accepted and delivered. -/
theorem paced_delivers (h : Course o l.state) {w w' : Workspace} (hw : l.state.workspaces[o.id]? = some w)
    (hs : Started o.id w.latestRequest l.state) (hfirst : o.first < w.scheduler.latest)
    (hpasses : (w.scheduler.accept w.latestRequest).1 = true)
    (hw' : w' = { w with scheduler := (w.scheduler.accept w.latestRequest).2 }) {report : CompilerReport}
    {diagnostics : List AddressedDiagnostic}
    (hshown : report.shown l.state.documents.uriForPath o.root = .ok diagnostics) (notices : List Notice)
    {l' : Loop ServerState Operation} (hl' : l' = { l with
      state := ({ l.state with workspaces := l.state.workspaces.set o.id w' } : ServerState).delivering o.id w'
        w.latestRequest report notices diagnostics }) :
    Paced o l l' ∧ Concluded o w.latestRequest l'.state := by
  have hlt := (List.getElem?_eq_some_iff.mp hw).1
  have hscheduler : w'.scheduler = { w.scheduler with accepted := w.scheduler.latest } := by
    rw [hw', Scheduler.accept_snd, hpasses]
    rfl
  have hplain : ∀ e ∈ .reported o.id w.latestRequest report :: notices.map Event.noticed,
      e.isIdle ∧ IsPlain e ∧ ∀ id g m, e ≠ .made id g m ∧ e ≠ .superseded id g m := by
    intro e hm
    rcases List.mem_cons.mp hm with rfl | hm
    · exact ⟨rfl, rfl, fun _ _ _ => ⟨nofun, nofun⟩⟩
    · obtain ⟨n, _, rfl⟩ := List.mem_map.mp hm
      exact ⟨rfl, rfl, fun _ _ _ => ⟨nofun, nofun⟩⟩
  have haccepts : Leads l.state { l.state with workspaces := l.state.workspaces.set o.id w' } := by
    rw [hw', ← moved_nil]
    exact .single (.turns hw (.accepts w.latestRequest))
  have hlead := haccepts.trans (leads_notes (s := { l.state with workspaces := l.state.workspaces.set o.id w' })
    fun e hm => (hplain e hm).2)
  have hget : (l.state.workspaces.set o.id w')[o.id]? = some w' := List.getElem?_set_self hlt
  have hcourse := h.delivers hw (h.begun.started_since hs (Int.ofNat_lt.mpr hfirst)) hlead rfl rfl rfl
    (fun e hm => (hplain e hm).1) List.mem_cons_self hget (by rw [hw'])
    (fun hr => by rw [hw']; exact hr) (by rw [Workspace.latestRequest, hscheduler]; rfl) (by rw [hscheduler]) hshown
  have hconcluded : ∀ r : CompileRequest, r.generation ≤ w.scheduler.latest → Concluded o r l'.state := by
    intro r hle x hx
    rw [hl'] at hx
    unfold delivering at hx
    dsimp only at hx
    rw [moved_workspaces, List.set_set, List.getElem?_set_self hlt] at hx
    cases hx
    dsimp only
    rw [hscheduler]
    exact ⟨hle, fun _ => rfl⟩
  obtain ⟨record, hevents, hrecord⟩ := delivering_events
    { l.state with workspaces := l.state.workspaces.set o.id w' } o.id w' w.latestRequest report notices diagnostics
  refine ⟨?_, hconcluded _ (Int.le_refl _)⟩
  subst hl'
  refine ⟨rfl, ⟨[], (List.append_nil _).symm, rfl, rfl, fun _ h => absurd h List.not_mem_nil⟩,
    ⟨record, hevents, fun e hm task ht => ?_⟩, hcourse, fun r hc => hconcluded r (hc w hw).1⟩
  rw [hrecord e hm] at ht
  cases ht

/-- A report that is delivered if its request is accepted. -/
theorem goes_reported (job : CompileJob) (hjob : job.id = o.id) (h : Course o l.state)
    (ha : AdmittedAs o l.current request l.state) (hs : Started job.id request l.state) (report : CompilerReport) :
    Goes o ((invocations job).accept request >>= fun accepted =>
        (invocations job).conclude { request, accepted, result := some report }) l
      (fun _ _ => False) fun _ s => AdmittedAs o l.current request s ∧ Concluded o request s := by
  refine goes_judged job hjob h ha (fun accepted => { request, accepted, result := some report }) (fun _ => rfl)
    fun w hw hpasses => ?_
  obtain ⟨hreturns, hleaves⟩ := accept_eq request hw
  obtain ⟨w', hw', hprogress⟩ := h.progress
  rw [← hjob, hw] at hw'
  cases hw'
  have hlead := (proceeds_accept (l := l) job request h.established.sound).1
  have haccepted := workspace_of_accept request hw
  have hprocess : Proceeds ((invocations job).accept request >>= fun accepted =>
      (invocations job).conclude { request, accepted, result := some report }) l (Waits (RunFits job.id)) :=
    (proceeds_accept job request).bind fun _ _ hl hc => proceeds_conclude job hc fun _ => hs.later hl.later
  refine ⟨(hprocess h.established.sound).1, ?_⟩
  rw [Act.reaches_bind, hreturns, hpasses]
  obtain ⟨notices, hdelivery⟩ := Delivery.deliver_eq
    { request, accepted := true, result := some report } rfl rfl haccepted
    (Delivery.ne_removed_of_isReady hprogress.isReady)
  rcases hdelivery with ⟨e, _, hfailed, _⟩ | ⟨diagnostics, hshown, hdelivered, hdelivers⟩
  · have hdeliver : ((invocations job).deliver { request, accepted := true, result := some report }).returns
        (((invocations job).accept request).leaves l) = .error (.report e) := hfailed
    unfold Scheduler.Invocations.conclude
    rw [if_pos rfl, Act.reaches_bind, hdeliver]
    exact fun _ x hx => by cases hx
  · have hdeliver : ((invocations job).deliver { request, accepted := true, result := some report }).returns
        (((invocations job).accept request).leaves l) = .ok diagnostics.length := hdelivered
    have hrequest : request = w.latestRequest := (Scheduler.accept_fst_iff.mp hpasses).1
    obtain ⟨hfirst, _, _⟩ := hprogress.admissions.admitted l.current request ha.admitted
    subst hrequest
    rw [hleaves] at hshown
    rw [hjob] at hw hs
    have hl' : ((invocations job).deliver { request := w.latestRequest, accepted := true, result := some report }).leaves
        (((invocations job).accept w.latestRequest).leaves l) = { l with
          state := ({ l.state with
            workspaces := l.state.workspaces.set o.id
              { w with scheduler := (w.scheduler.accept w.latestRequest).2 } } : ServerState).delivering o.id
                { w with scheduler := (w.scheduler.accept w.latestRequest).2 } w.latestRequest report notices
                diagnostics } := by
      refine hdelivers.trans ?_
      rw [hleaves, hjob]
    obtain ⟨hpaced, hconcluded⟩ := paced_delivers h hw hs (Int.ofNat_lt.mp hfirst) hpasses rfl
      (hprogress.root ▸ hshown) notices hl'
    obtain ⟨record, hevents, hrecord⟩ := delivering_events
      { l.state with
        workspaces := l.state.workspaces.set o.id { w with scheduler := (w.scheduler.accept w.latestRequest).2 } }
      o.id { w with scheduler := (w.scheduler.accept w.latestRequest).2 } w.latestRequest report notices diagnostics
    have hadmitted := ha.append h.begun hevents fun r hm => by cases hrecord _ hm
    unfold Scheduler.Invocations.conclude
    rw [if_pos rfl, Act.reaches_bind, hdeliver]
    rw [hl'] at hpaced hconcluded ⊢
    have hgoes := goes_unlocked job hpaced.course 
      (c := ⟨{ request := w.latestRequest, accepted := true, result := some report }, some diagnostics.length⟩)
      hadmitted hconcluded
    exact hgoes.comes.mono (fun _ _ h hc => (h hc).2.elim) fun _ _ h hc x hx =>
      ⟨hpaced.trans (h hc x hx).1, (h hc x hx).2⟩

/-- The end of an invocation. -/
theorem goes_afterRequest (job : CompileJob) (hjob : job.id = o.id) (h : Course o l.state)
    (ha : AdmittedAs o l.current request l.state) {r : Except Failure CompilerReport}
    (hr : ∀ report, r = .ok report → Started job.id request l.state) (hidle : Idle job.id l.state) :
    Goes o ((invocations job).afterInvocation request r) l (fun _ _ => False)
      fun _ s => AdmittedAs o l.current request s ∧ Concluded o request s := by
  have hlead := (proceeds_update job (f := fun s => { s with inFlight := none })
    (fun w hw => .frees (hidle w hw)) h.established.sound).1
  have hq : Quietly o.id ((invocations job).update fun s => { s with inFlight := none }) l :=
    quietly_update job fun _ => ⟨rfl, rfl, rfl⟩
  unfold Scheduler.Invocations.afterInvocation
  refine .quietly h hlead hq ?_
  have hcourse := h.quiet hlead hq
  have hadmitted := ha.quiet h.begun hq
  split
  · rename_i report
    exact goes_reported job hjob hcourse hadmitted ((hr report rfl).later hlead.later) report
  · exact goes_failed job hjob hcourse hadmitted _
  · have hunlock := (proceeds_unlock (leads_lockPlace job _) hcourse.established.sound).1
    exact .quietly hcourse hunlock (quietly_unlock (quiet_lockPlace job)) .fails

theorem goes_scheduler {job : CompileJob} {f : Scheduler → ServerAct (Step τ α)} :
    Goes o ((invocations job).scheduler >>= f) l waits done ↔
      Goes o (f (schedulerOf l.state job.id)) l waits done :=
  ⟨fun h => ⟨h.leads, h.comes⟩, fun h => ⟨h.leads, h.comes⟩⟩

/-- The turn of a request. -/
theorem goes_takeTurn (job : CompileJob) (hjob : job.id = o.id) (h : Course o l.state)
    (ha : AdmittedAs o l.current request l.state) :
    Goes o ((invocations job).takeTurn request) l
      (fun run s => run.request = request ∧ AdmittedAs o l.current request s)
      fun _ s => AdmittedAs o l.current request s ∧ Concluded o request s := by
  obtain ⟨w, hw, _⟩ := h.progress
  have hscheduler : schedulerOf l.state job.id = w.scheduler := schedulerOf_eq (hjob ▸ hw)
  unfold Scheduler.Invocations.takeTurn
  rw [goes_scheduler, hscheduler]
  split
  · rename_i hcurrent
    have hprocess := proceeds_update (l := l) job (f := fun s => { s with inFlight := some request })
      (fun _ _ => .engages request) h.established.sound
    have hq : Quietly o.id ((invocations job).update fun s => { s with inFlight := some request }) l :=
      quietly_update job fun _ => ⟨rfl, rfl, rfl⟩
    have hcourse := h.quiet hprocess.1 hq
    have hadmitted := ha.quiet h.begun hq
    refine .quietly h hprocess.1 hq ?_
    refine .afterwards hcourse (proceeds_invoke job fun w' hw' => ?_) (quietly_invoke job request)
      (fun state l' hq' _ => ⟨rfl, hadmitted.quiet hcourse.begun hq'⟩) fun r l' hq' hcourse' hstarted => ?_
    · rw [hprocess.2.2] at hw'
      obtain ⟨w₀, hw₀, hs⟩ := scheduler_of_set (f := fun s => { s with inFlight := some request }) hw'
      rw [← schedulerOf_eq hw₀, hscheduler] at hs
      rw [hs]
      exact ⟨hcurrent, rfl⟩
    · have hgoes := goes_afterRequest job hjob hcourse' (hq'.current ▸ hadmitted.quiet hcourse.begun hq')
        hstarted.1 hstarted.2
      rw [hq'.current] at hgoes
      exact hgoes.mono (fun _ _ hw => hw.elim) fun _ _ hd => hd
  · rename_i hcurrent
    refine Goes.mono (goes_rejected job h ha (concluded_of_rejected h ha hw ?_) rfl) (fun _ _ hw => hw.elim)
      fun _ _ hd => hd
    exact Bool.eq_false_iff.mpr fun hpasses => hcurrent (Scheduler.isCurrent_of_accept hpasses)

/-- What a request that waits to run goes by. -/
def Runs (o : Outset) (task : TaskId) (request : CompileRequest) (run : Scheduler.Run Invocation)
    (s : ServerState) : Prop :=
  run.request = request ∧ AdmittedAs o task request s

theorem goes_run (job : CompileJob) (hjob : job.id = o.id) (h : Course o l.state)
    (ha : AdmittedAs o l.current request l.state) :
    Goes o ((invocations job).run request) l (Runs o l.current request)
      fun _ s => AdmittedAs o l.current request s ∧ Concluded o request s := by
  refine .acquire h (leads_lockPlace job l.state) (fun lock => quiet_lockPlace job lock l.ready)
    (fun l' hq => ⟨rfl, ha.quiet h.begun hq⟩) fun l' hq hcourse => ?_
  have hgoes := goes_takeTurn job hjob hcourse (hq.current ▸ ha.quiet h.begun hq)
  rw [hq.current] at hgoes
  exact hgoes

theorem goes_resumeRun (job : CompileJob) (hjob : job.id = o.id) (h : Course o l.state)
    {run : Scheduler.Run Invocation} (hr : Runs o l.current request run l.state) (hf : RunFits job.id run l.state)
    (signal : Signal) :
    Goes o ((invocations job).resumeRun run signal) l (Runs o l.current request)
      fun _ s => AdmittedAs o l.current request s ∧ Concluded o request s := by
  obtain ⟨rfl, ha⟩ := hr
  unfold Scheduler.Invocations.resumeRun
  cases run with
  | queued request =>
      dsimp only
      split
      · have hlead := (proceeds_abandon (l := l) (leads_lockPlace job _) h.established.sound).1
        exact .quietly h hlead (quietly_abandon (quiet_lockPlace job)) .fails
      · exact goes_takeTurn job hjob h ha
  | invoking request state =>
      refine .afterwards h (proceeds_resumeInvocation job hf signal)
        (quietly_afterInvocation (Invocation.quietly_resume state signal))
        (fun state l' hq _ => ⟨rfl, ha.quiet h.begun hq⟩) fun r l' hq hcourse hstarted => ?_
      have hgoes := goes_afterRequest job hjob hcourse (hq.current ▸ ha.quiet h.begun hq) hstarted.1 hstarted.2
      rw [hq.current] at hgoes
      exact hgoes.mono (fun _ _ hw => hw.elim) fun _ _ hd => hd

/-! ## Compiling the workspace -/

/-- A compile whose request runs. -/
def Stands (o : Outset) (task : TaskId) (request : CompileRequest) (state : Compilation) (s : ServerState) : Prop :=
  ∃ job run, state = .running job request run ∧ job.id = o.id ∧ Runs o task request run s

theorem goes_afterRunning (job : CompileJob) (hjob : job.id = o.id) (h : Course o l.state)
    {part : ServerAct (Step (Scheduler.Run Invocation) (Scheduler.Conclusion CompilerReport Nat))}
    (hp : Goes o part l (Runs o task request)
      fun _ s => AdmittedAs o task request s ∧ Concluded o request s) :
    Goes o (afterRunning job request part) l (Stands o task request)
      fun _ s => AdmittedAs o task request s ∧ Concluded o request s :=
  .andThen h hp (fun run _ hr => ⟨job, run, rfl, hjob, hr⟩) (p := Waits Fits) (fun _ _ => .ends)
    fun _ _ hpaced hd => .done_of hpaced.course hd

/-- An edit whose text is in the mirror is admitted. -/
theorem paced_admits (h : Course o l.state) {w : Workspace} (hw : l.state.workspaces[o.id]? = some w)
    (hwritten : Written o l.current l.state) {l' : Loop ServerState Operation} (hl' : l' = { l with
      state := l.state.moved o.id { w with scheduler := w.scheduler.issue.2 } []
        [.admitted l.current o.id w.scheduler.issue.1] }) :
    Paced o l l' ∧ AdmittedAs o l.current w.scheduler.issue.1 l'.state := by
  have hlt := (List.getElem?_eq_some_iff.mp hw).1
  have hcourse := h.admits hw hwritten.applied
  have hevents : l'.state.events = l.state.events ++ [.admitted l.current o.id w.scheduler.issue.1] := by
    rw [hl']
    exact moved_events ..
  have hsince := Outset.since_of_events_eq h.begun.le_length hevents
  have hnew : .admitted l.current o.id w.scheduler.issue.1 ∈ o.since l'.state :=
    hsince ▸ List.mem_append_right _ (List.mem_singleton_self _)
  obtain ⟨document, hreceived⟩ := hwritten.received
  have hadmitted : AdmittedAs o l.current w.scheduler.issue.1 l'.state := by
    refine ⟨⟨document, hsince ▸ List.mem_append_left _ hreceived⟩, hnew, fun r hm => ?_⟩
    rw [hsince] at hm
    rcases List.mem_append.mp hm with hm | hm
    · exact absurd hm (hwritten.unadmitted r)
    · cases List.mem_singleton.mp hm
      rfl
  refine ⟨?_, hadmitted⟩
  subst hl'
  refine ⟨rfl, ⟨[], (List.append_nil _).symm, rfl, rfl, fun _ h => absurd h List.not_mem_nil⟩,
    ⟨_, hevents, fun e hm task ht => ?_⟩, hcourse, fun r hc x hx => ?_⟩
  · rw [List.mem_singleton.mp hm] at ht
    exact (Option.some.inj ht).symm
  · dsimp only at hx
    rw [moved_workspaces, List.getElem?_set_self hlt] at hx
    cases hx
    obtain ⟨hle, _⟩ := hc w hw
    have hsucc : w.scheduler.issue.2.latest = w.scheduler.latest + 1 := rfl
    dsimp only
    rw [hsucc]
    exact ⟨by omega, fun heq => by omega⟩

/-- A compile of an edit whose text is in the mirror. -/
theorem goes_start (settings : Settings) (h : Course o l.state) (hwritten : Written o l.current l.state) :
    Goes o (start o.id settings none) l
      (fun state s => ∃ request, Stands o l.current request state s)
      fun _ s => ∃ request, AdmittedAs o l.current request s ∧ Concluded o request s := by
  unfold start
  split
  · exact .fails
  · rename_i entry _
    refine .andThen h (goes_ensureReady h) (fun _ _ h => h.elim) (p := Waits Fits) (fun ready l' => ?_)
      fun ready l₁ hpaced hready => ?_
    · split
      · refine proceeds_withWorkspace .ends fun w hw => ?_
        exact proceeds_admission hw fun request l₂ _ =>
          proceeds_afterRunning ⟨o.id, settings, entry⟩ request (proceeds_run ⟨o.id, settings, entry⟩ request)
      · exact .ends
    · obtain ⟨hready, hevents⟩ := hready
      obtain ⟨w, hw, _⟩ := hpaced.course.progress
      have hwritten₁ : Written o l₁.current l₁.state := by
        rw [← List.append_nil l.state.events] at hevents
        rw [hpaced.current]
        exact hwritten.append h.begun hevents fun _ => List.not_mem_nil
      obtain ⟨hreturns, hleaves⟩ := admission_eq ⟨o.id, settings, entry⟩ hw
      obtain ⟨hadmits, hadmitted⟩ := paced_admits hpaced.course hw hwritten₁ hleaves
      have hlead : Leads l₁.state ((admission ⟨o.id, settings, entry⟩).leaves l₁).state := by
        rw [hleaves]
        exact .single (.turns hw (.admits l₁.current))
      rw [if_pos hready]
      refine goes_withWorkspace hw (.after hlead hadmits ?_)
      rw [hreturns]
      rw [← hadmits.current] at hadmitted
      have hgoes := goes_afterRunning ⟨o.id, settings, entry⟩ rfl hadmits.course
        (goes_run ⟨o.id, settings, entry⟩ rfl hadmits.course hadmitted)
      rw [hadmits.current, hpaced.current] at hgoes
      exact hgoes.mono (fun _ _ hs => ⟨_, hs⟩) fun _ _ hd => ⟨_, hd⟩

theorem goes_resume {state : Compilation} (h : Course o l.state) (hs : state.Stands o l.current request l.state)
    (hf : state.Fits l.state) (signal : Signal) :
    Goes o (resume state signal) l (Stands o l.current request)
      fun _ s => AdmittedAs o l.current request s ∧ Concluded o request s := by
  obtain ⟨job, run, rfl, hjob, hr⟩ := hs
  exact goes_afterRunning job hjob h (goes_resumeRun job hjob h hr hf signal)

end Compilation

end InkServer
