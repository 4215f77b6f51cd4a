import InkServer.Proofs.Server.Removals
import InkServer.Workspace.Compilation
import InkServer.Settings.Lookup

/-!
# How workspaces are compiled

The operations that look up settings, run the compiler and deliver its report, followed step by step. A
compile whose compiler runs has its start on record, and a report is only delivered while its request is
current.
-/

namespace InkServer

open ServerState ServerAct

variable {l : Loop ServerState Operation}

/-! ## Settings -/

namespace SettingsRequest

theorem proceeds_updateCache (f : SettingsCache → SettingsCache) :
    Proceeds (updateCache f) l fun _ _ => True := proceeds_aside ⟨rfl, rfl, rfl, rfl, rfl, rfl, rfl⟩

theorem proceeds_finish (outcome : Except Failure Settings) :
    Proceeds (finish outcome) l (Waits Bare) := by
  unfold finish
  rw [proceeds_self, proceeds_state]
  refine (proceeds_updateCache _).bind fun _ l₁ _ _ => ?_
  refine Proceeds.bind (.forM fun t _ l₂ _ => ?_) fun _ _ _ _ => .ends
  exact (proceeds_wake t .go 1).mono fun _ _ _ _ => trivial

theorem proceeds_readAnswer (uri : String) : Proceeds (readAnswer uri) l (Waits Bare) := by
  unfold readAnswer
  rw [proceeds_state]
  split <;> exact proceeds_finish _

theorem proceeds_start (uri : String) (signal : Signal) :
    Proceeds (start uri signal) l (Waits Bare) := by
  unfold start
  rw [proceeds_state]
  split
  · exact (proceeds_noteCasually rfl).bind fun _ _ _ _ => .through trivial (proceeds_readAnswer uri)
  · rw [proceeds_self]
    refine (proceeds_noteCasually rfl).bind fun _ l₁ _ _ => ?_
    exact Proceeds.bind (proceeds_aside ⟨rfl, rfl, rfl, rfl, rfl, rfl, rfl⟩) fun _ _ _ _ => .pure trivial
  · exact proceeds_finish _
  · exact proceeds_finish _

theorem proceeds_takeAnswer : Proceeds takeAnswer l (Waits Bare) := by
  unfold takeAnswer
  rw [proceeds_self, proceeds_state]
  exact proceeds_finish _

theorem proceeds_resume (state : SettingsRequest) (signal : Signal) :
    Proceeds (resume state signal) l (Waits Bare) := by
  unfold resume
  split
  · exact proceeds_readAnswer _
  · exact proceeds_finish _
  · exact proceeds_takeAnswer
  · have habandon : Proceeds abandon l fun _ _ => True := by
      unfold abandon
      rw [proceeds_self]
      exact proceeds_aside ⟨rfl, rfl, rfl, rfl, rfl, rfl, rfl⟩
    exact habandon.bind fun _ _ _ _ => proceeds_finish _

end SettingsRequest

namespace SettingsLookup

open SettingsRequest

theorem proceeds_conclude (state : SettingsLookup) (outcome : Except Failure Settings) :
    Proceeds (conclude state outcome) l (Waits Bare) := by
  unfold conclude
  split
  · exact .ends
  · exact .ends
  · exact (proceeds_updateCache _).bind fun _ _ _ _ => .ends

theorem proceeds_currentFetch (uri : String) : Proceeds (currentFetch uri) l fun _ _ => True := by
  unfold currentFetch
  rw [proceeds_state]
  split
  · exact .pure trivial
  · refine (proceeds_create rfl).bind fun fetch l₁ _ _ => ?_
    exact (proceeds_updateCache _).bind fun _ _ _ _ => .pure trivial

theorem proceeds_start (uri : String) : Proceeds (start uri) l (Waits Bare) := by
  unfold start
  rw [proceeds_state]
  split
  · refine (proceeds_currentFetch uri).bind fun fetch l₁ _ _ => ?_
    rw [proceeds_state]
    split
    · exact proceeds_conclude _ _
    · rw [proceeds_self]
      exact (proceeds_updateCache _).bind fun _ _ _ _ => .pure trivial
  · exact .ends

theorem proceeds_resume (state : SettingsLookup) (signal : Signal) :
    Proceeds (resume state signal) l (Waits Bare) := by
  unfold resume
  rw [proceeds_state]
  split
  · exact proceeds_conclude _ _
  · exact .ends
  · exact .ends
  · rw [proceeds_self]
    exact (proceeds_updateCache _).bind fun _ _ _ _ => .ends

end SettingsLookup

theorem proceeds_invalidateSettings : Proceeds invalidateSettings l fun _ _ => True :=
  SettingsRequest.proceeds_updateCache _

theorem proceeds_closeDocument (uri : String) : Proceeds (closeDocument uri) l fun _ _ => True := by
  unfold closeDocument
  rw [proceeds_state]
  have hclose : Leads l.state { l.state with
      documents := l.state.documents.close uri
      settings := { l.state.settings with current := l.state.settings.current.erase uri } } :=
    .tail (.single (.closes uri)) (.aside ⟨rfl, rfl, rfl, rfl, rfl, rfl, rfl⟩)
  refine (proceeds_setState hclose).bind fun _ l₁ _ _ => ?_
  split
  · exact .pure trivial
  · split
    · exact (proceeds_cancel _).mono fun _ _ _ _ => trivial
    · exact .pure trivial

/-! ## Compilers -/

namespace Invocation

/-- The output of a process lies beside a mirror. -/
def Beside (p : CompilerProcess) (s : ServerState) : Prop :=
  ∃ m : Mirror, m.IsMade s.policy s.disk ∧ p.output = m.outputPath

theorem Beside.later {p : CompilerProcess} {s s' : ServerState} (h : Beside p s) (hl : s.Later s') :
    Beside p s' := by
  obtain ⟨m, hm, ho⟩ := h
  exact ⟨m, hm.later hl, ho⟩

/-- What an invocation that waits was given. -/
def Fits : Invocation → ServerState → Prop
  | .running p, s | .collecting p, s | .stopping p _, s | .reaping p _, s => Beside p s

theorem Fits.later {state : Invocation} {s s' : ServerState} (h : state.Fits s) (hl : s.Later s') :
    state.Fits s' := by
  cases state <;> exact Beside.later h hl

/-- Reading the entry file changes nothing. -/
theorem run_ofEntry (directory entry : Path) (d : Disk) :
    ((Behaviour.ofEntry directory entry).run d).2 = d := by
  have hread : Work.Looks (FileWork.read (directory / entry)) := FileWork.looks_ask _ _
  unfold Behaviour.ofEntry
  rw [Work.run_bind]
  have ha : (DiskWork.attempt (FileWork.read (directory / entry))).run.run d =
      (.ok (Work.returns (FileWork.read (directory / entry)) d.files), d) := by
    show (_, { d with files := Work.leaves (FileWork.read (directory / entry)) d.files }) = _
    rw [hread]
    rfl
  rw [ha]
  cases Work.returns (FileWork.read (directory / entry)) d.files <;> rfl

theorem proceeds_nextBehaviour (directory entry : Path) :
    Proceeds (nextBehaviour directory entry) l fun _ _ => True := by
  unfold nextBehaviour
  rw [proceeds_state]
  split
  · refine (proceeds_setState (.single (.aside (by constructor <;> rfl)))).bind fun _ _ _ _ => ?_
    exact .pure trivial
  · have hread := run_ofEntry directory entry l.state.disk
    generalize (Behaviour.ofEntry directory entry).run l.state.disk = r at hread ⊢
    obtain ⟨b, disk⟩ := r
    dsimp only at hread ⊢
    refine (proceeds_setState (.single (.aside ?_))).bind fun _ _ _ _ => .pure trivial
    exact ⟨hread, rfl, rfl, rfl, rfl, rfl, rfl⟩

theorem proceeds_stopTimer : Proceeds stopTimer l fun _ _ => True := by
  unfold stopTimer
  rw [proceeds_self]
  exact proceeds_aside ⟨rfl, rfl, rfl, rfl, rfl, rfl, rfl⟩

theorem proceeds_exit {p : CompilerProcess} (hp : Beside p l.state) :
    Proceeds (exit p) l fun _ _ => True := by
  unfold exit
  refine proceeds_stopTimer.bind fun _ l' hl _ => (proceeds_noteCasually rfl).bind fun _ l₁ hl' _ => ?_
  split
  · obtain ⟨m, hm, ho⟩ := (hp.later hl.later).later hl'.later
    have houtput : Leads l₁.state
        { l₁.state with disk := ((Behaviour.writeOutput p.output).run l₁.state.disk).2 } := by
      rw [ho]
      exact .single (.works (.outputs hm))
    exact (proceeds_modifyState houtput).mono fun _ _ _ _ => trivial
  · exact .pure trivial

theorem proceeds_ended {p : CompilerProcess} (hp : Beside p l.state) :
    Proceeds (ended p) l (Waits Fits) := by
  unfold ended
  refine (proceeds_exit hp).bind fun _ l' hl _ => (proceeds_noteCasually rfl).bind fun _ l₁ hl' _ => ?_
  split
  · exact .ends
  · rw [proceeds_self]
    refine (proceeds_wake _ .go 1).bind fun _ l₂ hl'' _ => .pure ?_
    exact ((hp.later hl.later).later hl'.later).later hl''.later

theorem proceeds_reap (p : CompilerProcess) (expired : Bool) : Proceeds (reap p expired) l (Waits Fits) :=
  (proceeds_noteCasually rfl).bind fun _ _ _ _ => .ends

theorem proceeds_putToEnd {p : CompilerProcess} (hp : Beside p l.state) :
    Proceeds (putToEnd p) l fun _ _ => True := by
  unfold putToEnd
  split
  · exact proceeds_exit hp
  · exact (proceeds_noteCasually rfl).mono fun _ _ _ _ => trivial

theorem proceeds_awaitEnd {p : CompilerProcess} (hp : Beside p l.state) (expired : Bool) :
    Proceeds (awaitEnd p expired) l (Waits Fits) := by
  unfold awaitEnd
  split
  · exact proceeds_waitAt hp
  · exact proceeds_reap p expired

theorem proceeds_kill {p : CompilerProcess} (hp : Beside p l.state) (expired : Bool) :
    Proceeds (kill p expired) l (Waits Fits) :=
  (proceeds_putToEnd hp).bind fun _ _ hl _ => proceeds_awaitEnd (hp.later hl.later) expired

theorem proceeds_stop {p : CompilerProcess} (hp : Beside p l.state) (expired : Bool) :
    Proceeds (stop p expired) l (Waits Fits) := by
  unfold stop
  refine proceeds_stopTimer.bind fun _ l₁ hl _ => ?_
  rw [proceeds_self]
  refine (proceeds_wake _ .go 2).bind fun _ l₂ hl' _ => .pure ?_
  exact (hp.later hl.later).later hl'.later

theorem proceeds_await {p : CompilerProcess} (hp : Beside p l.state) :
    Proceeds (await p) l (Waits Fits) := by
  unfold await
  rw [proceeds_self]
  split
  · split
    · exact .pure hp
    · split
      · exact proceeds_waitAt hp
      · exact proceeds_ended hp
  · rename_i limit _
    split
    · exact proceeds_stop hp true
    · have hruns : ∀ l', Leads l.state l'.state → Proceeds
          (if p.behaviour.hangs then pure (.waits (.running p))
          else if p.behaviour.held then Act.waitAt "compile" (.running p)
          else do
            Act.wake l.current .go 0
            pure (.waits (.running p)) : ServerAct (Step Invocation CompilerReport)) l' (Waits Fits) := by
        intro l' hl
        split
        · exact .pure (hp.later hl.later)
        · split
          · exact proceeds_waitAt (hp.later hl.later)
          · refine (proceeds_wake _ .go 0).bind fun _ l₂ hl' _ => .pure ?_
            exact (hp.later hl.later).later hl'.later
      cases limit.isShort with
      | true =>
          exact Proceeds.bind (proceeds_aside (by constructor <;> rfl)) fun _ l' hl _ => hruns l' hl
      | false => exact hruns l .refl

theorem proceeds_start (mirror : Path) (settings : Settings) (entry : Option Path) {m : Mirror}
    (hm : m.IsMade l.state.policy l.state.disk) :
    Proceeds (start mirror settings entry (some m.outputPath)) l (Waits Fits) := by
  unfold start
  rw [proceeds_state]
  split
  · exact .ends
  · dsimp only
    split
    · exact .ends
    · refine (proceeds_nextBehaviour mirror _).bind fun behaviour l₁ hl _ => ?_
      refine (proceeds_noteCasually rfl).bind fun _ l₂ hl' _ => ?_
      split
      · exact .ends
      · exact proceeds_await ⟨m, (hm.later hl.later).later hl'.later, rfl⟩

theorem proceeds_resume {state : Invocation} (h : state.Fits l.state) (signal : Signal) :
    Proceeds (resume state signal) l (Waits Fits) := by
  unfold resume
  split
  · exact proceeds_ended h
  · exact proceeds_stop h true
  · split
    · exact proceeds_stopTimer.bind fun _ _ hl _ => proceeds_kill (Beside.later h hl.later) false
    · exact proceeds_stop h false
  · exact .ends
  · exact proceeds_kill h _
  · exact proceeds_kill h _
  · exact proceeds_reap _ _
  · exact .ends

end Invocation

/-! ## Delivering reports -/

namespace Delivery

/-- Publishing the diagnostics of a workspace in place of the earlier ones. -/
theorem leaves_replace {id : WorkspaceId} {w : Workspace} (diagnostics : List AddressedDiagnostic)
    (hw : l.state.workspaces[id]? = some w) :
    (replace id diagnostics).leaves l = { l with
      state := { l.state.publishingAll (replacements w diagnostics) with
        workspaces := l.state.workspaces.set id { w with published := (groupByUri diagnostics).keys } } } := by
  show ((do
    Removal.clearAll ((((l.state.workspaces[id]?).map (·.published)).getD []).filter fun uri =>
      !(groupByUri diagnostics).contains uri)
    (groupByUri diagnostics).entries.forM fun x => publish x.1 x.2
    updateWorkspace id fun w => { w with published := (groupByUri diagnostics).keys }) :
      ServerAct Unit).leaves l = _
  rw [hw, Act.leaves_bind, leaves_clearAll, Act.leaves_bind, leaves_publishAll]
  dsimp only [Option.map_some, Option.getD_some]
  unfold updateWorkspace
  rw [← publishingAll_append, Act.leaves_modifyState]
  dsimp only
  rw [publishingAll_workspaces, modify_eq_set hw]
  rfl

/-- Reading a report changes nothing but what the user is told. -/
theorem proceeds_diagnosticsOf (root : Path) (report : CompilerReport) :
    Proceeds (diagnosticsOf root report) l fun _ s => s.workspaces = l.state.workspaces := by
  unfold diagnosticsOf
  rw [proceeds_state]
  dsimp only
  split
  · exact .pure rfl
  · refine (proceeds_tell _).bind fun _ l₁ _ hl₁ => ?_
    split <;> refine .pure ?_ <;> rw [hl₁]
  · exact .pure rfl

theorem proceeds_deliver {id : WorkspaceId} {outcome : CompileOutcome CompilerReport}
    (hr : ∀ w, l.state.workspaces[id]? = some w → w.scheduler.isCurrent outcome.request)
    (hs : outcome.result.isSome → .started id outcome.request ∈ l.state.events) :
    Proceeds (deliver id outcome) l fun _ _ => True := by
  refine proceeds_withWorkspace (.pure trivial) fun w hw => ?_
  split
  · exact .pure trivial
  · rename_i hstate
    split
    · exact (proceeds_tell _).bind fun _ _ _ _ => .pure trivial
    · exact .pure trivial
    · rename_i report _ hresult
      refine (proceeds_noteCasually rfl).bind fun _ l₀ hnote hl₀ => ?_
      refine (proceeds_diagnosticsOf w.root report).bind fun r l₁ hl hl₁ => ?_
      split
      · exact .pure trivial
      · rename_i ds
        have hsame : l₁.state.workspaces = l.state.workspaces := by rw [hl₁, hl₀]
        rw [← hsame] at hw hr
        have hleads : Leads l.state l₁.state := hnote.trans hl
        have hstarted := hleads.later.events.subset (hs (by rw [hresult]; rfl))
        have hdelivers : Leads l₁.state _ :=
          .single (.turns hw (.delivers ds (hr w hw) hstarted hstate))
        refine proceedsFrom_self.mp (.after (leaves_replace ds hw) (.after rfl (Proceeds.from hdelivers ?_)))
        exact .pure trivial

end Delivery

/-! ## Compiling a workspace -/

namespace Compilation

/-- The start of the compiler for a request is on record. -/
def Started (id : WorkspaceId) (request : CompileRequest) (s : ServerState) : Prop :=
  .started id request ∈ s.events

theorem Started.later {id : WorkspaceId} {request : CompileRequest} {s s' : ServerState}
    (h : Started id request s) (hl : s.Later s') : Started id request s' := hl.events.subset h

/-- A workspace that has a mirror is not being compiled. -/
def Idle (id : WorkspaceId) (s : ServerState) : Prop :=
  ∀ w, s.workspaces[id]? = some w → w.state = .compileInFlight → w.mirror = none

/-- What the invocation of a request comes to: it only runs or ends well once it was started, and once it has
ended the workspace is no longer being compiled. -/
abbrev Invoked (id : WorkspaceId) (request : CompileRequest) :
    Step Invocation CompilerReport → ServerState → Prop :=
  Comes (fun state s => Started id request s ∧ state.Fits s)
    fun r s => (∀ report, r = .ok report → Started id request s) ∧ Idle id s

/-- What a request that waits was given. -/
def RunFits (id : WorkspaceId) : Scheduler.Run Invocation → ServerState → Prop
  | .queued _, _ => True
  | .invoking request state, s => Started id request s ∧ state.Fits s

/-- What a compile that waits was given. -/
def Fits : Compilation → ServerState → Prop
  | .preparing _ state, s => state.Fits s
  | .running job _ state, s => RunFits job.id state s

theorem Fits.later {state : Compilation} {s s' : ServerState} (h : state.Fits s) (hl : s.Later s') :
    state.Fits s' := by
  cases state with
  | preparing => exact Initialization.Fits.later h hl
  | running job request state =>
      cases state with
      | queued => trivial
      | invoking => exact ⟨Started.later h.1 hl, Invocation.Fits.later h.2 hl⟩

/-! ### Invoking the compiler -/

/-- A workspace that is no longer being compiled. -/
theorem proceeds_settle (id : WorkspaceId) :
    Proceeds (updateWorkspace id fun w =>
      w.enter (if w.state = .compileInFlight then .ready else w.state)) l fun _ s => Idle id s := by
  refine .of_leaves rfl (leads_modify fun _ _ => .settles) fun w hw hstate => ?_
  simp only [List.getElem?_modify, if_true] at hw
  obtain ⟨w₀, _, rfl⟩ := Option.map_eq_some_iff.mp hw
  dsimp only [Workspace.enter] at hstate
  split at hstate
  · cases hstate
  · rename_i hne
    exact absurd hstate hne

theorem proceeds_afterInvocation {id : WorkspaceId} {request : CompileRequest}
    {part : ServerAct (Step Invocation CompilerReport)}
    (h : Proceeds part l (Comes (fun state s => Started id request s ∧ state.Fits s)
      fun r s => ∀ report, r = .ok report → Started id request s)) :
    Proceeds (afterInvocation id part) l (Invoked id request) := by
  unfold afterInvocation
  refine h.bind fun step l₁ _ hstep => ?_
  split
  · exact .pure hstep
  · refine (proceeds_settle id).bind fun _ l₂ hl hidle => .pure ⟨fun report hr => ?_, hidle⟩
    exact (hstep report hr).later hl.later

theorem leads_starts {s : ServerState} {id : WorkspaceId} {w : Workspace} {m : Mirror}
    {request : CompileRequest} (hw : s.workspaces[id]? = some w) (hm : w.mirror = some m)
    (hr : w.scheduler.isCurrent request) (hf : w.scheduler.inFlight = some request) :
    Leads s { s with
      workspaces := s.workspaces.set id (w.enter .compileInFlight)
      events := s.events ++ [.called id request w.mirror] ++ [.started id request] } := by
  have h : Leads s _ := .single (.turns hw (.starts hr hm hf))
  rw [← hm] at h
  rw [List.append_assoc]
  exact h

theorem leads_calls {s : ServerState} {id : WorkspaceId} {w : Workspace} {request : CompileRequest}
    (hw : s.workspaces[id]? = some w) (hm : w.mirror = none) (hr : w.scheduler.isCurrent request) :
    Leads s { s with events := s.events ++ [.called id request w.mirror] } := by
  have h := Change.turns hw (.calls hr hm)
  rw [hm]
  obtain ⟨hlt, he⟩ := List.getElem?_eq_some_iff.mp hw
  unfold moved at h
  dsimp only at h
  rw [← he, List.set_getElem_self] at h
  exact .single h

theorem proceeds_invoke (job : CompileJob) {request : CompileRequest}
    (hr : ∀ w, l.state.workspaces[job.id]? = some w →
      w.scheduler.isCurrent request ∧ w.scheduler.inFlight = some request) :
    Proceeds (invoke job request) l (Invoked job.id request) := by
  refine .of_sound fun hs => ?_
  cases hw : l.state.workspaces[job.id]? with
  | none =>
      refine proceeds_withWorkspace (.pure ⟨nofun, fun w hw' => ?_⟩) fun w hw' => ?_
      all_goals cases hw.symm.trans hw'
  | some w =>
      obtain ⟨hcurrent, hflight⟩ := hr w hw
      refine proceedsFrom_self.mp (proceedsFrom_withWorkspace hw (.after rfl ?_))
      split
      · rename_i hm
        refine Proceeds.from (leads_calls hw hm hcurrent) (.pure ⟨nofun, fun w' hw' _ => ?_⟩)
        cases hw.symm.trans hw'
        exact hm
      · rename_i m hm
        have hstarts := leads_starts hw hm hcurrent hflight
        have hmade := (hs.made w (List.mem_of_getElem? hw) m hm).later hstarts.later
        refine .updated hw (.after rfl (Proceeds.from hstarts (proceeds_afterInvocation ?_)))
        refine Proceeds.mono (Invocation.proceeds_start m.path job.settings (some job.entry) ?_)
          fun step s hl hstep => ?_
        · exact hmade
        · have hstarted : Started job.id request s := hl.later.events.subset (by simp)
          cases step with
          | waits state => exact ⟨hstarted, hstep⟩
          | ends r => exact fun _ _ => hstarted

theorem proceeds_resumeInvocation (job : CompileJob) {request : CompileRequest} {state : Invocation}
    (h : RunFits job.id (.invoking request state) l.state) (signal : Signal) :
    Proceeds (afterInvocation job.id (Invocation.resume state signal)) l (Invoked job.id request) := by
  refine proceeds_afterInvocation ((Invocation.proceeds_resume h.2 signal).mono fun step s hl hstep => ?_)
  cases step with
  | waits state => exact ⟨h.1.later hl.later, hstep⟩
  | ends r => exact fun _ _ => h.1.later hl.later

/-! ### Requests -/

theorem schedulerOf_eq {s : ServerState} {id : WorkspaceId} {w : Workspace}
    (hw : s.workspaces[id]? = some w) : schedulerOf s id = w.scheduler := by
  unfold schedulerOf
  rw [hw]
  rfl

theorem proceeds_scheduler {job : CompileJob} {α : Type} {f : Scheduler → ServerAct α}
    {post : α → ServerState → Prop} :
    Proceeds ((invocations job).scheduler >>= f) l post ↔
      Proceeds (f (schedulerOf l.state job.id)) l post := Iff.rfl

theorem leads_update {job : CompileJob} {s : ServerState} {f : Scheduler → Scheduler}
    (h : ∀ w, s.workspaces[job.id]? = some w →
      w.Turn s job.id { w with scheduler := f w.scheduler } [] []) :
    Leads s ((invocations job).set (f ((invocations job).get s)) s) := by
  refine leads_modify fun w hw => ?_
  have hget : (invocations job).get s = w.scheduler := schedulerOf_eq hw
  rw [hget]
  exact h w hw

theorem proceeds_update (job : CompileJob) {f : Scheduler → Scheduler}
    (h : ∀ w, l.state.workspaces[job.id]? = some w →
      w.Turn l.state job.id { w with scheduler := f w.scheduler } [] []) :
    Proceeds ((invocations job).update f) l fun _ s =>
      s = (invocations job).set (f ((invocations job).get l.state)) l.state := by
  unfold Scheduler.Invocations.update
  exact proceeds_modifyState (leads_update h)

/-- The scheduler of a workspace after it was changed. -/
theorem scheduler_of_set {job : CompileJob} {s : ServerState} {f : Scheduler → Scheduler} {w : Workspace}
    (hw : ((invocations job).set (f ((invocations job).get s)) s).workspaces[job.id]? = some w) :
    ∃ w₀, s.workspaces[job.id]? = some w₀ ∧ w.scheduler = f w₀.scheduler := by
  have hw' : (s.workspaces.modify job.id fun w => { w with scheduler := f (schedulerOf s job.id) })[job.id]? =
      some w := hw
  rw [List.getElem?_modify] at hw'
  simp only [if_true] at hw'
  obtain ⟨w₀, hw₀, rfl⟩ := Option.map_eq_some_iff.mp hw'
  exact ⟨w₀, hw₀, congrArg f (schedulerOf_eq hw₀)⟩

/-- The request is the latest of its workspace. -/
def Current (job : CompileJob) (request : CompileRequest) (s : ServerState) : Prop :=
  ∀ w, s.workspaces[job.id]? = some w → w.scheduler.isCurrent request

/-- What is accepted is current. -/
theorem proceeds_accept (job : CompileJob) (request : CompileRequest) :
    Proceeds ((invocations job).accept request) l fun passes s => passes → Current job request s := by
  have haccept : (invocations job).accept request = (do
      let s ← (invocations job).scheduler
      (invocations job).update fun _ => (s.accept request).2
      pure (s.accept request).1) := by
    unfold Scheduler.Invocations.accept
    rfl
  rw [haccept, proceeds_scheduler]
  have hleads : Leads l.state ((invocations job).set ((schedulerOf l.state job.id).accept request).2 l.state) :=
    leads_update (f := fun s => (s.accept request).2) fun _ _ => .accepts request
  refine (proceeds_modifyState hleads).bind fun _ l₁ _ hl₁ => .pure fun hpasses w hw => ?_
  rw [hl₁] at hw
  obtain ⟨w₀, hw₀, hs⟩ := scheduler_of_set (f := fun s => (s.accept request).2) hw
  rw [schedulerOf_eq hw₀] at hpasses
  rw [hs, Scheduler.isCurrent_accept]
  exact Scheduler.isCurrent_of_accept hpasses

theorem leads_lockPlace (job : CompileJob) (s : ServerState) (lock : Lock) :
    Leads s ((invocations job).lockPlace.set lock s) :=
  leads_update (f := fun s => { s with lock }) fun _ _ => .queues lock

theorem proceeds_conclude (job : CompileJob) {outcome : CompileOutcome CompilerReport}
    (hr : outcome.accepted → Current job outcome.request l.state)
    (hs : outcome.result.isSome → Started job.id outcome.request l.state) :
    Proceeds ((invocations job).conclude outcome) l (Waits (RunFits job.id)) := by
  unfold Scheduler.Invocations.conclude
  have hunlock : ∀ (l : Loop ServerState Operation) r, Proceeds (do
      Act.unlock (invocations job).lockPlace
      pure (.ends r) : ServerAct (Step (Scheduler.Run Invocation) (Scheduler.Conclusion CompilerReport Nat))) l
      (Waits (RunFits job.id)) :=
    fun l r => (proceeds_unlock (leads_lockPlace job l.state)).bind fun _ _ _ _ => .ends
  split
  · rename_i haccepted
    refine (Delivery.proceeds_deliver (hr haccepted) hs).bind fun r l₁ _ _ => ?_
    split
    · exact hunlock l₁ _
    · exact hunlock l₁ _
  · exact hunlock l _

theorem proceeds_afterRequest (job : CompileJob) {request : CompileRequest}
    {r : Except Failure CompilerReport} (hr : ∀ report, r = .ok report → Started job.id request l.state)
    (hidle : Idle job.id l.state) :
    Proceeds ((invocations job).afterInvocation request r) l (Waits (RunFits job.id)) := by
  unfold Scheduler.Invocations.afterInvocation
  refine (proceeds_update _ fun w hw => .frees (hidle w hw)).bind fun _ l₁ hl _ => ?_
  split
  · rename_i report
    refine (proceeds_accept job request).bind fun accepted l₂ hl' h => ?_
    exact proceeds_conclude job h fun _ => ((hr report rfl).later hl.later).later hl'.later
  · refine (proceeds_accept job request).bind fun accepted l₂ _ h => ?_
    exact proceeds_conclude job h fun h => by cases h
  · exact (proceeds_unlock (leads_lockPlace job _)).bind fun _ _ _ _ => .ends

theorem proceeds_takeTurn (job : CompileJob) (request : CompileRequest) :
    Proceeds ((invocations job).takeTurn request) l (Waits (RunFits job.id)) := by
  unfold Scheduler.Invocations.takeTurn
  rw [proceeds_scheduler]
  split
  · rename_i hcurrent
    refine (proceeds_update _ fun _ _ => .engages request).bind fun _ l₁ _ hl₁ => ?_
    refine (proceeds_invoke job fun w hw => ?_).followed (fun _ _ h => h) fun r l₂ _ h =>
      proceeds_afterRequest job h.1 h.2
    rw [hl₁] at hw
    obtain ⟨w₀, hw₀, hs⟩ := scheduler_of_set (f := fun s => { s with inFlight := some request }) hw
    rw [schedulerOf_eq hw₀] at hcurrent
    rw [hs]
    exact ⟨hcurrent, rfl⟩
  · exact proceeds_conclude job (fun h => by cases h) fun h => by cases h

theorem proceeds_run (job : CompileJob) (request : CompileRequest) :
    Proceeds ((invocations job).run request) l (Waits (RunFits job.id)) :=
  .acquire (leads_lockPlace job _) (fun _ _ => trivial) fun _ _ => proceeds_takeTurn job request

theorem proceeds_resumeRun (job : CompileJob) {state : Scheduler.Run Invocation}
    (h : RunFits job.id state l.state) (signal : Signal) :
    Proceeds ((invocations job).resumeRun state signal) l (Waits (RunFits job.id)) := by
  unfold Scheduler.Invocations.resumeRun
  split
  · split
    · exact (proceeds_abandon (leads_lockPlace job _)).bind fun _ _ _ _ => .ends
    · exact proceeds_takeTurn job _
  · exact (proceeds_resumeInvocation job h signal).followed (fun _ _ h => h) fun r l₂ _ h =>
      proceeds_afterRequest job h.1 h.2

/-! ### Compiles -/

theorem proceeds_afterRunning (job : CompileJob) (request : CompileRequest)
    {part : ServerAct (Step (Scheduler.Run Invocation) (Scheduler.Conclusion CompilerReport Nat))}
    (h : Proceeds part l (Waits (RunFits job.id))) :
    Proceeds (afterRunning job request part) l (Waits Fits) :=
  h.andThen (fun _ _ h => h) fun _ _ _ => .ends

/-- The request that is admitted, and what is left then. -/
theorem admission_eq (job : CompileJob) {w : Workspace} (hw : l.state.workspaces[job.id]? = some w) :
    (admission job).returns l = w.scheduler.issue.1 ∧ (admission job).leaves l = { l with
      state := l.state.moved job.id { w with scheduler := w.scheduler.issue.2 } []
        [.admitted l.current job.id w.scheduler.issue.1] } := by
  have hreturns : (admission job).returns l = (schedulerOf l.state job.id).issue.1 := rfl
  have hleaves : (admission job).leaves l = { l with
      state := { l.state with
        workspaces := l.state.workspaces.modify job.id fun w =>
          { w with scheduler := (schedulerOf l.state job.id).issue.2 }
        events := l.state.events ++ [.admitted l.current job.id (schedulerOf l.state job.id).issue.1] } } := rfl
  rw [hreturns, hleaves, schedulerOf_eq hw, modify_eq_set hw]
  exact ⟨rfl, rfl⟩

/-- Admitting a request is one step. -/
theorem proceeds_admission {job : CompileJob} {w : Workspace} {α : Type}
    {f : CompileRequest → ServerAct α} {post : α → ServerState → Prop}
    (hw : l.state.workspaces[job.id]? = some w)
    (hf : ∀ request l', Leads l.state l'.state → Proceeds (f request) l' post) :
    Proceeds (admission job >>= f) l post := by
  have hadmits : Leads l.state (l.state.moved job.id { w with scheduler := w.scheduler.issue.2 } []
      [.admitted l.current job.id w.scheduler.issue.1]) := .single (.turns hw (.admits l.current))
  exact proceedsFrom_self.mp (.after (admission_eq job hw).2 (Proceeds.from hadmits (hf _ _ hadmits)))

theorem proceeds_afterPreparing (job : CompileJob) {part : ServerAct (Step Initialization Bool)}
    (h : Proceeds part l (Waits Initialization.Fits)) :
    Proceeds (afterPreparing job part) l (Waits Fits) := by
  refine h.andThen (fun _ _ h => h) fun ready l₁ _ => ?_
  split
  · refine proceeds_withWorkspace .ends fun w hw => ?_
    exact proceeds_admission hw fun request l₂ _ =>
      proceeds_afterRunning job request (proceeds_run job request)
  · exact .ends

theorem proceeds_start (id : WorkspaceId) (settings : Settings) (entry : Option Path) :
    Proceeds (start id settings entry) l (Waits Fits) := by
  unfold start
  split
  · exact .ends
  · exact proceeds_afterPreparing _ (proceeds_ensureReady id)

theorem proceeds_resume {state : Compilation} (h : state.Fits l.state) (signal : Signal) :
    Proceeds (resume state signal) l (Waits Fits) := by
  unfold resume
  split
  · exact proceeds_afterPreparing _ (Initialization.proceeds_resume h signal)
  · exact proceeds_afterRunning _ _ (proceeds_resumeRun _ h signal)

end Compilation

end InkServer
