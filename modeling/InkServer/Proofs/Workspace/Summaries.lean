import InkServer.Proofs.Server.Record
import InkServer.Proofs.Workspace.Lifecycle
import InkServer.Proofs.Workspace.Requests
import InkServer.Proofs.Workspace.Touches

/-!
# What the summary of a compile says

Whoever compiles a workspace is told whether diagnostics were published, and how many. The summary goes by whether the
output of the compiler was accepted, and a report that arrives after its workspace was removed is accepted although
nothing of it is published any more. In all other cases the summary is true.
-/

namespace InkServer

open ServerState ServerAct

variable {id : WorkspaceId} {l l' l₁ : Loop ServerState Operation} {τ α β : Type}

/-- Whether an event is that a report was published. -/
def Event.isDelivery : Event → Bool
  | .delivered _ _ _ => true
  | _ => false

/-- Nothing is on record of a report that was published. -/
def IsSilent (record : List Event) : Prop := ∀ id request count, .delivered id request count ∉ record

theorem isSilent_nil : IsSilent [] := fun _ _ _ => List.not_mem_nil

theorem IsSilent.append {record record' : List Event} (h : IsSilent record) (h' : IsSilent record') :
    IsSilent (record ++ record') := fun id request count hm =>
  (List.mem_append.mp hm).elim (h id request count) (h' id request count)

theorem isSilent_of_isIdle {record : List Event} (h : ∀ e ∈ record, e.isIdle) : IsSilent record :=
  fun _ _ _ hm => by cases h _ hm

/-! ## Initializing another workspace -/

theorem quietly_updateOther {other : WorkspaceId} (h : other ≠ id) (f : Workspace → Workspace) :
    Quietly id (updateWorkspace other f) l :=
  .of_eq rfl rfl rfl rfl rfl rfl rfl fun w hw =>
    ⟨w, by rw [← hw]; exact List.getElem?_modify_ne f _ h, .refl w⟩

/-- Initializing a workspace is quiet as far as others are concerned. -/
theorem covers_quiet {other : WorkspaceId} (h : other ≠ id) : Initialization.Covers other (Quiet id) where
  refl _ := .refl
  trans := .trans
  aside _ _ _ _ := .aside rfl rfl rfl rfl rfl rfl rfl rfl
  notes _ e he := quietly_note (by cases e <;> first | rfl | cases he)
  changes _ _ f _ _ := quietly_updateOther h f

theorem quietly_ensureReady {other : WorkspaceId} (h : other ≠ id) : Quietly id (ensureReady other) l := by
  refine quietly_withWorkspace (quietly_pure _) fun w _ => ?_
  split
  · exact quietly_pure _
  · exact (covers_quiet h).start
  · split
    · exact quietly_pure _
    · refine Quietly.bind (quietly_onDisk _) fun there l₁ => ?_
      split
      · exact quietly_pure _
      · exact quietly_pure _
      · refine Quietly.bind (quietly_note rfl) fun _ l₂ => ?_
        exact Quietly.bind (quietly_updateOther h _) fun _ _ => (covers_quiet h).start

/-! ## What a compile ends with -/

/-- The diagnostics of a generation were published in place of the earlier ones of the workspace. -/
def HasPublished (id : WorkspaceId) (record : List Event) (s : ServerState) (generation : Int)
    (ds : List AddressedDiagnostic) : Prop :=
  (∃ request, .delivered id request ds.length ∈ record ∧ request.generation = generation) ∧
    ∃ w, s.workspaces[id]? = some w ∧ w.published = (groupByUri ds).keys

/-- A workspace is there no more. -/
def IsRemoved (s : ServerState) (id : WorkspaceId) : Prop := ∃ w, s.workspaces[id]? = some w ∧ w.state = .removed

/-- How a compile may end: nothing is published and the summary says so, or the report was accepted, and then it is
published unless the workspace was removed meanwhile. -/
inductive Ending (id : WorkspaceId) (record : List Event) (s : ServerState) (c : CompileSummary) : Prop where
  | silent (hr : IsSilent record) (hp : c.published = false) (hd : c.diagnostics = 0)
  | removed (hr : IsSilent record) (hs : IsRemoved s id) (hp : c.published = true) (hd : c.diagnostics = 0)
  | published (ds : List AddressedDiagnostic) (h : HasPublished id record s c.generation ds) (hs : ¬IsRemoved s id)
      (hp : c.published = true) (hd : c.diagnostics = ds.length)

namespace Ending

variable {record old : List Event} {s : ServerState} {c : CompileSummary}

theorem since (h : Ending id record s c) (ho : IsSilent old) : Ending id (old ++ record) s c := by
  cases h with
  | silent hr hp hd => exact .silent (ho.append hr) hp hd
  | removed hr hs hp hd => exact .removed (ho.append hr) hs hp hd
  | published ds h hs hp hd =>
      obtain ⟨⟨request, hm, hg⟩, hw⟩ := h
      exact .published ds ⟨⟨request, List.mem_append_right _ hm, hg⟩, hw⟩ hs hp hd

/-- What else becomes of the workspace does not matter. -/
theorem kept {s' : ServerState} (h : Ending id record s c) {w w' : Workspace} (hw : s.workspaces[id]? = some w)
    (hw' : s'.workspaces[id]? = some w') (hstate : w'.state = w.state) (hpublished : w'.published = w.published) :
    Ending id record s' c := by
  cases h with
  | silent hr hp hd => exact .silent hr hp hd
  | removed hr hs hp hd =>
      obtain ⟨w₁, hw₁, hremoved⟩ := hs
      cases hw.symm.trans hw₁
      exact .removed hr ⟨w', hw', hstate.trans hremoved⟩ hp hd
  | published ds h hs hp hd =>
      obtain ⟨hm, w₁, hw₁, hkeys⟩ := h
      cases hw.symm.trans hw₁
      refine .published ds ⟨hm, w', hw', hpublished.trans hkeys⟩ (fun ⟨w₂, hw₂, hremoved⟩ => hs ?_) hp hd
      cases hw'.symm.trans hw₂
      exact ⟨w, hw, hstate.symm.trans hremoved⟩

end Ending

namespace Compilation

/-- A turn of a compile publishes nothing if it waits, and otherwise a summary tells how it ended. -/
def Reports (id : WorkspaceId) (waits : τ → Prop) (summary : α → CompileSummary) (a : ServerAct (Step τ α))
    (l : Loop ServerState Operation) : Prop :=
  a.Reaches l
    (fun state l' => waits state ∧ ∃ record, l'.state.events = l.state.events ++ record ∧ IsSilent record)
    fun r l' => ∀ c, r = .ok c →
      ∃ record, l'.state.events = l.state.events ++ record ∧ Ending id record l'.state (summary c)

variable {waits : τ → Prop} {summary : α → CompileSummary} {other : WorkspaceId}

/-- What comes after something that publishes nothing. -/
theorem Reports.since {a : ServerAct β} {f : β → ServerAct (Step τ α)} {record : List Event}
    (h : Reports id waits summary (f (a.returns l)) (a.leaves l))
    (he : (a.leaves l).state.events = l.state.events ++ record) (hs : IsSilent record) :
    Reports id waits summary (a >>= f) l := by
  unfold Reports at h ⊢
  rw [Act.reaches_bind]
  refine h.mono (fun state l' ⟨hw, record', he', hs'⟩ => ⟨hw, _, ?_, hs.append hs'⟩) fun r l' hr c hc => ?_
  · rw [he', he, List.append_assoc]
  · obtain ⟨record', he', hending⟩ := hr c hc
    exact ⟨_, by rw [he', he, List.append_assoc], hending.since hs⟩

theorem Reports.bind {a : ServerAct β} {f : β → ServerAct (Step τ α)} (other : WorkspaceId) (hq : Quietly other a l)
    (h : Reports id waits summary (f (a.returns l)) (a.leaves l)) : Reports id waits summary (a >>= f) l := by
  obtain ⟨record, he, hr⟩ := hq.record
  exact h.since he (isSilent_of_isIdle hr)

theorem reports_waits {state : τ} (h : waits state) : Reports id waits summary (pure (.waits state)) l :=
  ⟨h, [], (List.append_nil _).symm, isSilent_nil⟩

theorem reports_fail (f : Failure) : Reports id waits summary (pure (.fail f)) l := fun _ hc => by cases hc

theorem reports_silent {c : α} (hp : (summary c).published = false) (hd : (summary c).diagnostics = 0) :
    Reports id waits summary (pure (.done c)) l := fun _ hc => by
  cases hc
  exact ⟨[], (List.append_nil _).symm, .silent isSilent_nil hp hd⟩

theorem reports_withWorkspace {absent : ServerAct (Step τ α)} {f : Workspace → ServerAct (Step τ α)}
    (ha : Reports id waits summary absent l)
    (hf : ∀ w, l.state.workspaces[other]? = some w → Reports id waits summary (f w) l) :
    Reports id waits summary (withWorkspace other absent f) l := by
  refine .bind id (quietly_pure _) ?_
  split
  · rename_i w hw
    exact hf w hw
  · exact ha

/-! ## Deliveries -/

end Compilation

namespace Delivery

/-- For a workspace that was removed there is nothing to deliver. -/
theorem deliver_removed_eq {w : Workspace} (outcome : CompileOutcome CompilerReport)
    (hw : l.state.workspaces[id]? = some w) (hs : w.state = .removed) :
    (deliver id outcome).returns l = .ok 0 ∧ (deliver id outcome).leaves l = l := by
  have hret : (workspace? id).returns l = some w := hw
  unfold deliver withWorkspace
  rw [Act.returns_bind, Act.leaves_bind, hret]
  dsimp only
  rw [if_pos hs]
  exact ⟨rfl, rfl⟩

/-- A delivery is put on record, and the workspace has the new diagnostics. -/
theorem delivering_publishes {s : ServerState} {w : Workspace} (request : CompileRequest) (report : CompilerReport)
    (notices : List Notice) (ds : List AddressedDiagnostic) (hw : s.workspaces[id]? = some w) :
    ∃ record, (s.delivering id w request report notices ds).events = s.events ++ record ∧
      .delivered id request ds.length ∈ record ∧
      (s.delivering id w request report notices ds).workspaces[id]? =
        some { w with published := (groupByUri ds).keys } := by
  obtain ⟨p, published, hmoved, -⟩ := moved_eq { s with
      events := s.events ++ .reported id request report :: notices.map .noticed } id
    { w with published := (groupByUri ds).keys } (replacements w ds) [.delivered id request ds.length]
  unfold delivering
  rw [hmoved]
  refine ⟨_, List.append_assoc _ _ _, ?_, List.getElem?_set_self (List.getElem?_eq_some_iff.mp hw).1⟩
  exact List.mem_append_right _ (List.mem_append_right _ (List.mem_singleton_self _))

/-- What a summary that goes by an accepted outcome says of its delivery. -/
theorem ending_of_deliver {w : Workspace} {outcome : CompileOutcome CompilerReport} {count : Nat} {c : CompileSummary}
    (hw : l.state.workspaces[id]? = some w) (ho : outcome.error.isSome ∨ outcome.result.isSome)
    (hd : (deliver id outcome).returns l = .ok count) (hp : c.published = outcome.error.isNone)
    (hc : c.diagnostics = count) (hg : c.generation = outcome.request.generation) :
    ∃ record w', ((deliver id outcome).leaves l).state.events = l.state.events ++ record ∧
      ((deliver id outcome).leaves l).state.workspaces[id]? = some w' ∧
      Ending id record ((deliver id outcome).leaves l).state c := by
  by_cases hs : w.state = .removed
  · obtain ⟨hreturns, hleaves⟩ := deliver_removed_eq outcome hw hs
    rw [hreturns] at hd
    cases hd
    rw [hleaves]
    refine ⟨[], w, (List.append_nil _).symm, hw, ?_⟩
    cases he : outcome.error with
    | some e => exact .silent isSilent_nil (by rw [hp, he]; rfl) hc
    | none => exact .removed isSilent_nil ⟨w, hw, hs⟩ (by rw [hp, he]; rfl) hc
  · cases he : outcome.error with
    | some e =>
        obtain ⟨hreturns, hleaves⟩ := deliver_failure_eq outcome he hw hs
        rw [hreturns] at hd
        cases hd
        rw [hleaves]
        refine ⟨_, w, rfl, hw, .silent (isSilent_of_isIdle fun e hm => ?_) (by rw [hp, he]; rfl) hc⟩
        rw [List.mem_singleton.mp hm]
        rfl
    | none =>
        rw [he] at ho
        obtain ⟨report, hr⟩ := Option.isSome_iff_exists.mp (ho.resolve_left Bool.false_ne_true)
        obtain ⟨notices, ⟨e, -, hreturns, -⟩ | ⟨ds, -, hreturns, hleaves⟩⟩ := deliver_eq outcome he hr hw hs
        · rw [hreturns] at hd
          cases hd
        · rw [hreturns] at hd
          cases hd
          obtain ⟨record, hevents, hm, hget⟩ := delivering_publishes outcome.request report notices ds hw
          rw [hleaves]
          refine ⟨record, _, hevents, hget, .published ds ⟨⟨outcome.request, hm, hg.symm⟩, _, hget, rfl⟩ ?_
            (by rw [hp, he]; rfl) hc⟩
          rintro ⟨w', hw', hremoved⟩
          cases hget.symm.trans hw'
          exact hs hremoved

end Delivery

namespace Compilation

variable {waits : τ → Prop} {summary : α → CompileSummary} {run : Scheduler.Run Invocation → Prop}

/-- Giving back the lock of requests leaves a workspace as it is. -/
theorem workspace_of_unlock (job : CompileJob) {w : Workspace} (hw : l.state.workspaces[job.id]? = some w) :
    ((Act.unlock (invocations job).lockPlace).leaves l).state.events = l.state.events ∧
      ∃ w', ((Act.unlock (invocations job).lockPlace).leaves l).state.workspaces[job.id]? = some w' ∧
        w'.state = w.state ∧ w'.published = w.published := by
  rw [Act.leaves_unlock]
  exact ⟨rfl, _, (List.getElem?_modify_eq _ _ _).trans (congrArg _ hw), rfl, rfl⟩

/-- An accepted outcome is delivered. -/
theorem reports_accepted (job : CompileJob) {w : Workspace} {outcome : CompileOutcome CompilerReport} (uri : String)
    (hw : l.state.workspaces[job.id]? = some w) (ha : outcome.accepted)
    (ho : outcome.error.isSome ∨ outcome.result.isSome) :
    Reports job.id run (Compilation.summary uri) ((invocations job).conclude outcome) l := by
  unfold Scheduler.Invocations.conclude
  rw [if_pos ha]
  unfold Reports
  rw [Act.reaches_bind]
  have hdeliver : (invocations job).deliver outcome = Delivery.deliver job.id outcome := rfl
  rw [hdeliver]
  cases hd : (Delivery.deliver job.id outcome).returns l with
  | error f => exact fun _ hc => by cases hc
  | ok count =>
      rintro c hc
      cases hc
      obtain ⟨record, w', he, hw', hending⟩ := Delivery.ending_of_deliver
        (c := Compilation.summary uri ⟨outcome, some count⟩) hw ho hd (by simp [Compilation.summary, ha]) rfl rfl
      obtain ⟨hevents, w'', hw'', hstate, hpublished⟩ := workspace_of_unlock job hw'
      exact ⟨record, hevents.trans he, hending.kept hw' hw'' hstate hpublished⟩

/-- An outcome that is not accepted is dropped. -/
theorem reports_rejected (job : CompileJob) {outcome : CompileOutcome CompilerReport} (uri : String)
    (ha : outcome.accepted = false) :
    Reports job.id run (Compilation.summary uri) ((invocations job).conclude outcome) l := by
  unfold Scheduler.Invocations.conclude
  rw [if_neg (by rw [ha]; decide)]
  have hquiet : Quietly job.id (Act.unlock (invocations job).lockPlace) l := quietly_unlock (quiet_lockPlace job)
  exact .bind job.id hquiet (reports_silent (by simp [Compilation.summary, ha]) rfl)

/-! ## Requests -/

/-- An outcome is decided on. -/
theorem reports_judged (job : CompileJob) (request : CompileRequest) (uri : String)
    {outcome : Bool → CompileOutcome CompilerReport} (ha : ∀ accepted, (outcome accepted).accepted = accepted)
    (ho : ∀ accepted, (outcome accepted).error.isSome ∨ (outcome accepted).result.isSome) :
    Reports job.id run (Compilation.summary uri)
      ((invocations job).accept request >>= fun accepted => (invocations job).conclude (outcome accepted)) l := by
  refine .since ?_ (List.append_nil _).symm isSilent_nil
  cases hpasses : ((invocations job).accept request).returns l with
  | false => exact reports_rejected job uri (ha false)
  | true =>
      cases hw : l.state.workspaces[job.id]? with
      | some w => exact reports_accepted job uri (workspace_of_accept request hw) (ha true) (ho true)
      | none =>
          -- Nothing was admitted for a workspace that is not there.
          have hreturns : ((invocations job).accept request).returns l =
              ((schedulerOf l.state job.id).accept request).1 := rfl
          rw [hreturns, schedulerOf, hw, Scheduler.accept_fst_iff] at hpasses
          exact absurd hpasses.2 (Nat.lt_irrefl 0)

theorem reports_afterRequest (job : CompileJob) (request : CompileRequest) (uri : String)
    (r : Except Failure CompilerReport) :
    Reports job.id run (Compilation.summary uri) ((invocations job).afterInvocation request r) l := by
  unfold Scheduler.Invocations.afterInvocation
  refine .bind job.id (quietly_update job fun _ => ⟨rfl, rfl, rfl⟩) ?_
  split
  · exact reports_judged job request uri (fun _ => rfl) fun _ => .inr rfl
  · exact reports_judged job request uri (fun _ => rfl) fun _ => .inl rfl
  · exact .bind job.id (quietly_unlock (quiet_lockPlace job)) (reports_fail _)

/-- A request goes on with whatever its compiler comes to. -/
theorem reports_invoking (job : CompileJob) (request : CompileRequest) (uri : String)
    {part : ServerAct (Step Invocation CompilerReport)} (hq : Quietly job.id part l) :
    Reports job.id (fun _ => True) (Compilation.summary uri)
      (Act.afterwards part (.invoking request) ((invocations job).afterInvocation request)) l := by
  refine .bind job.id hq ?_
  split
  · exact reports_waits trivial
  · exact reports_afterRequest job request uri _

theorem reports_takeTurn (job : CompileJob) (request : CompileRequest) (uri : String) :
    Reports job.id (fun _ => True) (Compilation.summary uri) ((invocations job).takeTurn request) l := by
  unfold Scheduler.Invocations.takeTurn
  refine .bind job.id (quietly_pure _) ?_
  split
  · refine .bind job.id (quietly_update job fun _ => ⟨rfl, rfl, rfl⟩) ?_
    exact reports_invoking job request uri (quietly_invoke job request)
  · exact reports_rejected job uri rfl

theorem reports_run (job : CompileJob) (request : CompileRequest) (uri : String) :
    Reports job.id (fun _ => True) (Compilation.summary uri) ((invocations job).run request) l := by
  unfold Scheduler.Invocations.run Act.acquire
  have hset : ∀ lock, Quietly job.id (Act.modifyState ((invocations job).lockPlace.set lock)) l := fun lock =>
    quiet_lockPlace job lock l.ready
  refine .bind job.id (quietly_pure _) (.bind job.id (quietly_pure _) (.bind job.id (hset _) ?_))
  split
  · exact reports_takeTurn job request uri
  · exact reports_waits trivial

theorem reports_resumeRun (job : CompileJob) (run : Scheduler.Run Invocation) (signal : Signal) (uri : String) :
    Reports job.id (fun _ => True) (Compilation.summary uri) ((invocations job).resumeRun run signal) l := by
  unfold Scheduler.Invocations.resumeRun
  cases run with
  | queued request =>
      dsimp only
      split
      · exact .bind job.id (quietly_abandon (quiet_lockPlace job)) (reports_fail _)
      · exact reports_takeTurn job request uri
  | invoking request state =>
      exact reports_invoking job request uri (quietly_afterInvocation (Invocation.quietly_resume state signal))

/-! ## Compiles -/

/-- What a compile that waits is about. -/
def job : Compilation → CompileJob
  | .preparing job _ | .running job _ _ => job

theorem reports_afterRunning (job : CompileJob) (request : CompileRequest)
    {part : ServerAct (Step (Scheduler.Run Invocation) (Scheduler.Conclusion CompilerReport Nat))}
    (h : Reports job.id (fun _ => True) (Compilation.summary request.workspace) part l) :
    Reports job.id (fun state => state.job = job) (fun c => c) (afterRunning job request part) l := by
  unfold Reports afterRunning Act.andThen
  rw [Act.reaches_afterwards]
  refine h.mono (fun _ _ hw => ⟨rfl, hw.2⟩) fun r l' hr => ?_
  cases r with
  | error f => exact fun _ hc => by cases hc
  | ok conclusion =>
      intro c hc
      cases hc
      exact hr conclusion rfl

/-- Admitting a request publishes nothing. -/
theorem reports_admission (job : CompileJob) {w : Workspace} {f : CompileRequest → ServerAct (Step τ α)}
    (hw : l.state.workspaces[job.id]? = some w) (hf : ∀ request l', Reports id waits summary (f request) l') :
    Reports id waits summary (admission job >>= f) l := by
  have hevents : ((admission job).leaves l).state.events =
      l.state.events ++ [.admitted l.current job.id w.scheduler.issue.1] := by
    rw [(admission_eq job hw).2]
    exact moved_events ..
  exact (hf _ _).since hevents fun _ _ _ hm => by cases List.mem_singleton.mp hm

theorem reports_afterPreparing (job : CompileJob) (other : WorkspaceId) {part : ServerAct (Step Initialization Bool)}
    (hq : Quietly other part l) :
    Reports job.id (fun state => state.job = job) (fun c => c) (afterPreparing job part) l := by
  unfold afterPreparing Act.andThen Act.afterwards
  refine .bind other hq ?_
  split
  · exact reports_waits rfl
  · dsimp only
    split
    · split
      · exact reports_withWorkspace (reports_fail _) fun w hw => reports_admission job hw fun request l' =>
          reports_afterRunning job request (reports_run job request _)
      · exact .bind job.id (quietly_pure _) (reports_silent rfl rfl)
    · exact reports_fail _

theorem reports_start (settings : Settings) (entry : Option Path) :
    Reports id (fun state => state.job.id = id) (fun c => c) (start id settings entry) l := by
  unfold start
  split
  · exact reports_fail _
  · rename_i path _
    have hstart := reports_afterPreparing (l := l) ⟨id, settings, path⟩ (id + 1)
      (quietly_ensureReady (Nat.succ_ne_self id).symm)
    exact hstart.mono (fun _ _ ⟨hjob, hw⟩ => ⟨congrArg CompileJob.id hjob, hw⟩) fun _ _ h => h

theorem reports_resume (state : Compilation) (signal : Signal) :
    Reports state.job.id (fun state' => state'.job = state.job) (fun c => c) (resume state signal) l := by
  cases state with
  | preparing job state =>
      obtain ⟨other, h⟩ := state.exists_isOf
      exact reports_afterPreparing job (other + 1) ((covers_quiet (Nat.succ_ne_self other).symm).resume h signal)
  | running job request run => exact reports_afterRunning job request (reports_resumeRun job run signal _)

/-! ## Summaries -/

/-- A call that compiles a workspace. -/
abbrev Calls (id : WorkspaceId) (settings : Settings) (entry : Option Path) :
    Step Compilation CompileSummary → List Event → Loop ServerState Operation → Prop :=
  Call (start id settings entry) resume

variable {settings : Settings} {entry : Option Path} {step : Step Compilation CompileSummary} {record : List Event}

/-- How far a call has come that has put a record on record. -/
def HasComeTo (id : WorkspaceId) (record : List Event) (l : Loop ServerState Operation) :
    Step Compilation CompileSummary → Prop
  | .waits state => state.job.id = id ∧ IsSilent record
  | .ends r => ∀ c, r = .ok c → Ending id record l.state c

/-- A turn of a call that has published nothing yet. -/
theorem Reports.hasComeTo {waits : Compilation → Prop} {a : ServerAct (Step Compilation CompileSummary)}
    (h : Reports id waits (fun c => c) a l) (hw : ∀ state, waits state → state.job.id = id) (hs : IsSilent record) :
    HasComeTo id (record ++ a.adds l) (a.leaves l) (a.returns l) := by
  unfold Reports Act.Reaches at h
  cases hr : a.returns l with
  | waits state =>
      rw [hr] at h
      obtain ⟨hstate, added, he, hadded⟩ := h
      exact ⟨hw state hstate, hs.append (adds_eq he ▸ hadded)⟩
  | ends r =>
      rw [hr] at h
      intro c hc
      obtain ⟨added, he, hending⟩ := h c hc
      exact Ending.since (adds_eq he ▸ hending) hs

/-- Whatever happens between its turns, a compile publishes nothing before it ends. -/
theorem Calls.hasComeTo (h : Calls id settings entry step record l) : HasComeTo id record l step := by
  induction h with
  | begins l => exact (reports_start settings entry).hasComeTo (fun _ h => h) isSilent_nil
  | goesOn h signal l' ih =>
      obtain ⟨hjob, hs⟩ := ih
      exact (hjob ▸ reports_resume _ signal).hasComeTo (fun _ h => (congrArg CompileJob.id h).trans hjob) hs

/-- The summary of a compile is true if it says that something was published exactly if it was, and as how many
diagnostics. -/
structure IsTruthful (id : WorkspaceId) (record : List Event) (s : ServerState) (c : CompileSummary) : Prop where
  published : c.published = true ↔ ∃ ds, HasPublished id record s c.generation ds
  diagnostics : c.diagnostics = 0 ∧ (¬∃ ds, HasPublished id record s c.generation ds) ∨
    ∃ ds, HasPublished id record s c.generation ds ∧ c.diagnostics = ds.length

theorem not_hasPublished_of_isSilent {s : ServerState} {generation : Int} (h : IsSilent record) :
    ¬∃ ds, HasPublished id record s generation ds :=
  fun ⟨_, ⟨request, hm, _⟩, _⟩ => h id request _ hm

/-- Whatever happens while a workspace is compiled, the summary is true unless it says that the diagnostics were
published and the workspace was removed. -/
theorem summary_is_truthful_iff {c : CompileSummary} (h : Calls id settings entry (.ends (.ok c)) record l) :
    IsTruthful id record l.state c ↔ ¬(c.published = true ∧ IsRemoved l.state id) := by
  cases h.hasComeTo c rfl with
  | silent hr hp hd =>
      have hnone : ¬∃ ds, HasPublished id record l.state c.generation ds := not_hasPublished_of_isSilent hr
      refine iff_of_true ⟨iff_of_false ?_ hnone, .inl ⟨hd, hnone⟩⟩ fun hremoved => ?_
      · rw [hp]
        exact Bool.false_ne_true
      · rw [hp] at hremoved
        exact Bool.false_ne_true hremoved.1
  | removed hr hs hp hd =>
      have hnone : ¬∃ ds, HasPublished id record l.state c.generation ds := not_hasPublished_of_isSilent hr
      exact iff_of_false (fun ht => hnone (ht.published.mp hp)) fun hn => hn ⟨hp, hs⟩
  | published ds h hs hp hd =>
      exact iff_of_true ⟨iff_of_true hp ⟨ds, h⟩, .inr ⟨ds, h, hd⟩⟩ fun hremoved => hs hremoved.2

/-! ## A compile during which the workspace is removed -/

/-- The summary that a compile has ended with. -/
def summary? : Step Compilation CompileSummary → Option CompileSummary
  | .ends (.ok c) => some c
  | _ => none

theorem calls_follow {others : ServerAct Unit} {n : Nat} {c : CompileSummary}
    (h : summary? (follow (start id settings entry) resume others l n).1 = some c) :
    Calls id settings entry (.ends (.ok c)) (follow (start id settings entry) resume others l n).2.1
      (follow (start id settings entry) resume others l n).2.2 := by
  have hcall := call_follow (start id settings entry) resume others l n
  generalize (follow (start id settings entry) resume others l n).1 = step at h hcall
  unfold summary? at h
  split at h
  · cases h
    exact hcall
  · cases h

/-- A folder is open, and the compiler is going to find a mistake in the story. -/
@[irreducible] def mistaken : Loop ServerState Operation :=
  (Server.run (Server.sample [some { output := "ERROR: 'a.ink' line 1: bad\n".toUTF8, status := some 1 }])
    Server.openingFolder).loop

/-- A compile of the folder that goes on twice. -/
@[irreducible] def mistakenCompile (others : ServerAct Unit) :
    Step Compilation CompileSummary × List Event × Loop ServerState Operation :=
  follow (start 0 .defaults none) resume others mistaken 2

theorem calls_mistakenCompile {others : ServerAct Unit} {c : CompileSummary}
    (h : summary? (mistakenCompile others).1 = some c) :
    Calls 0 .defaults none (.ends (.ok c)) (mistakenCompile others).2.1 (mistakenCompile others).2.2 := by
  unfold mistakenCompile at h ⊢
  exact calls_follow h

/-- Of a compile that nobody disturbs the one mistake is published, and the summary says so. -/
theorem summary_of_undisturbed_compile_is_truthful :
    ∃ c record l, Calls 0 .defaults none (.ends (.ok c)) record l ∧ c.published = true ∧ c.diagnostics = 1 ∧
      IsTruthful 0 record l.state c := by
  have hrun : ((summary? (mistakenCompile (pure ())).1).any fun c => c.published && c.diagnostics = 1) ∧
      ((mistakenCompile (pure ())).2.2.state.workspaces[0]?.all fun w => w.state ≠ .removed) := by decide +kernel
  obtain ⟨hsummary, hstate⟩ := hrun
  obtain ⟨c, hc, hsays⟩ := (Option.any_eq_true _ _).mp hsummary
  rw [Bool.and_eq_true, decide_eq_true_eq] at hsays
  have hcalls := calls_mistakenCompile hc
  refine ⟨c, _, _, hcalls, hsays.1, hsays.2, (summary_is_truthful_iff hcalls).mpr fun ⟨_, w, hw, hremoved⟩ => ?_⟩
  rw [hw] at hstate
  exact of_decide_eq_true hstate hremoved

/-- Of a compile whose workspace is removed meanwhile nothing is published, and the summary says it was. -/
theorem summary_of_removed_workspace_is_not_truthful :
    ∃ c record l, Calls 0 .defaults none (.ends (.ok c)) record l ∧ c.published = true ∧ IsSilent record ∧
      ¬IsTruthful 0 record l.state c := by
  have hrun : ((summary? (mistakenCompile (discard (Removal.start "file:///p"))).1).any (·.published)) ∧
      (mistakenCompile (discard (Removal.start "file:///p"))).2.1.all (!·.isDelivery) := by decide +kernel
  obtain ⟨hsummary, hrecord⟩ := hrun
  obtain ⟨c, hc, hp⟩ := (Option.any_eq_true _ _).mp hsummary
  have hsilent : IsSilent (mistakenCompile (discard (Removal.start "file:///p"))).2.1 := fun id request count hm => by
    cases List.all_eq_true.mp hrecord _ hm
  exact ⟨c, _, _, calls_mistakenCompile hc, hp, hsilent, fun ht =>
    not_hasPublished_of_isSilent hsilent (ht.published.mp hp)⟩

end Compilation

end InkServer
