import InkServer.Proofs.Server.Record
import InkServer.Proofs.Workspace.Summaries
import InkServer.Proofs.Workspace.Together
import InkServer.Workspace.Edit

/-!
# What is admitted on the way to a compile

A document is taken in, its workspace is seen to and its settings are looked up without any request being admitted.
Whoever sees to a workspace is told that it cannot be compiled only if that is so, and a request that runs comes to a
conclusion about itself.
-/

namespace InkServer

open ServerState ServerAct

variable {id : WorkspaceId} {l : Loop ServerState Operation} {record record' : List Event} {τ α β : Type}

/-- Nothing on record was admitted as a request. -/
def AdmitsNothing (record : List Event) : Prop := ∀ task id request, .admitted task id request ∉ record

theorem admitsNothing_nil : AdmitsNothing [] := fun _ _ _ => List.not_mem_nil

theorem AdmitsNothing.append (h : AdmitsNothing record) (h' : AdmitsNothing record') :
    AdmitsNothing (record ++ record') := fun task id request hm =>
  (List.mem_append.mp hm).elim (h task id request) (h' task id request)

theorem admitsNothing_of_isIdle (h : ∀ e ∈ record, e.isIdle) : AdmitsNothing record :=
  fun _ _ _ hm => by cases h _ hm

/-- What is done quietly admits nothing. -/
theorem Quietly.admits {a : ServerAct α} (h : Quietly id a l) : Records a l fun _ record => AdmitsNothing record :=
  let ⟨record, he, hr⟩ := h.record
  ⟨record, he, admitsNothing_of_isIdle hr⟩

/-! ## Seeing to a workspace -/

/-- A workspace is there and can be compiled. -/
def IsReady (s : ServerState) (id : WorkspaceId) : Prop := ∃ w, s.workspaces[id]? = some w ∧ w.isReady

namespace Initialization

variable {generation : Nat} {m : Mirror} {a : ServerAct (Step Initialization Bool)}

/-- How far a workspace was seen to: a wait is about that workspace, and when it is said that the workspace cannot be
compiled that is so. -/
def IsAnswered (id : WorkspaceId) : Step Initialization Bool → Loop ServerState Operation → Prop
  | .waits state, _ => state.IsOf id
  | .ends r, l => r = .ok false → ¬IsReady l.state id

/-- A turn in which a workspace is seen to. -/
def Answers (id : WorkspaceId) (a : ServerAct (Step Initialization Bool)) (l : Loop ServerState Operation) : Prop :=
  IsAnswered id (a.returns l) (a.leaves l)

theorem answers_bind {b : ServerAct β} {f : β → ServerAct (Step Initialization Bool)} :
    Answers id (b >>= f) l ↔ Answers id (f (b.returns l)) (b.leaves l) := .rfl

theorem answers_fail {f : Failure} : Answers id (pure (.fail f)) l := fun h => by cases h

theorem answers_true : Answers id (pure (.done true)) l := fun h => by cases h

theorem answers_isReady {w : Workspace} (hw : l.state.workspaces[id]? = some w) :
    Answers id (pure (.done w.isReady)) l := by
  rintro hr ⟨w', hw', hready⟩
  cases hw.symm.trans hw'
  cases (Except.ok.inj hr).symm.trans hready

theorem answers_false {w : Workspace} (hw : l.state.workspaces[id]? = some w) (h : w.isReady = false) :
    Answers id (pure (.done false)) l := h ▸ answers_isReady hw

theorem answers_readiness : Answers id (readiness id) l := by
  rintro hr ⟨w, hw, hready⟩
  have hany : (l.state.workspaces[id]?.any Workspace.isReady) = false := Except.ok.inj hr
  have hw : l.state.workspaces[id]? = some w := hw
  rw [hw, Option.any_some, hready] at hany
  cases hany

theorem answers_withWorkspace {f : Workspace → ServerAct (Step Initialization Bool)}
    (h : ∀ w, l.state.workspaces[id]? = some w → Answers id (f w) l) :
    Answers id (withWorkspace id (pure (.done false)) f) l := by
  refine answers_bind.mpr ?_
  split
  · rename_i w hw
    exact h w hw
  · rename_i hnone
    rintro - ⟨w, hw, -⟩
    cases hw.symm.trans hnone

theorem answers_through {gate : String} {state : Initialization} (hs : state.IsOf id)
    (h : ∀ l', Answers id a l') : Answers id (Act.through gate state a) l := by
  unfold Act.through
  refine answers_bind.mpr ?_
  split
  · exact hs
  · exact h _

theorem answers_giveUp (error : MirrorError) : Answers id (giveUp id generation error) l := by
  unfold giveUp
  refine answers_bind.mpr ?_
  split
  · refine answers_bind.mpr ?_
    split
    · exact answers_fail
    · split
      · exact answers_bind.mpr answers_readiness
      · exact answers_bind.mpr (answers_bind.mpr answers_readiness)
  · exact answers_readiness

theorem answers_afterFailure (f : Failure) : Answers id (afterFailure id generation f) l := by
  unfold afterFailure
  split
  · split
    · exact answers_through rfl fun _ => answers_bind.mpr (answers_giveUp _)
    · exact answers_giveUp _
  · exact answers_fail

theorem answers_install : Answers id (install id generation m) l := by
  unfold install
  refine answers_bind.mpr ?_
  split
  · refine answers_bind.mpr (answers_bind.mpr (answers_bind.mpr ?_))
    split
    · exact answers_through trivial fun _ => answers_bind.mpr answers_true
    · exact answers_true
  · exact answers_bind.mpr (answers_through rfl fun _ => answers_bind.mpr answers_readiness)

theorem answers_writeOver (documents : List (Path × ByteArray)) :
    Answers id (writeOver id generation m documents) l := by
  refine answers_withWorkspace fun w _ => answers_bind.mpr ?_
  split
  · exact answers_bind.mpr answers_install
  · exact answers_afterFailure _

theorem answers_overlay : Answers id (overlay id generation m) l := by
  refine answers_withWorkspace fun w _ => answers_bind.mpr ?_
  dsimp only
  split
  · exact answers_install
  · exact answers_through rfl fun _ => answers_writeOver _

theorem answers_create : Answers id (create id generation) l := by
  refine answers_withWorkspace fun w _ => answers_bind.mpr ?_
  split
  · exact answers_bind.mpr answers_overlay
  · exact answers_afterFailure _

theorem answers_start : Answers id (start id) l := by
  refine answers_withWorkspace fun w hw => ?_
  split
  · rename_i hremoved
    refine answers_false hw ?_
    simp [Workspace.isReady, hremoved]
  · exact answers_bind.mpr (answers_bind.mpr (answers_through rfl fun _ => answers_create))

theorem answers_resume {state : Initialization} (hs : state.IsOf id) (signal : Signal) :
    Answers id (resume state signal) l := by
  unfold resume
  cases signal with
  | go =>
      cases state with
      | creating =>
          cases hs
          exact answers_create
      | overlaying =>
          cases hs
          exact answers_writeOver _
      | discardingFailed =>
          cases hs
          exact answers_bind.mpr (answers_giveUp _)
      | discardingSuperseded =>
          cases hs
          exact answers_bind.mpr answers_readiness
      | deletingPrevious => exact answers_bind.mpr answers_true
  | cancelled | timedOut | failed => exact answers_fail

theorem answers_ensureReady : Answers id (ensureReady id) l := by
  refine answers_withWorkspace fun w hw => ?_
  split
  · rename_i hstate
    refine answers_false hw ?_
    simp [Workspace.isReady, hstate]
  · exact answers_start
  · split
    · exact answers_isReady hw
    · refine answers_bind.mpr ?_
      split
      · exact answers_fail
      · exact answers_isReady hw
      · exact answers_bind.mpr (answers_bind.mpr answers_start)

abbrev Readying (id : WorkspaceId) : Step Initialization Bool → List Event → Loop ServerState Operation → Prop :=
  Call (ensureReady id) resume

variable {step : Step Initialization Bool}

theorem Readying.isAnswered (h : Readying id step record l) : IsAnswered id step l := by
  induction h with
  | begins l => exact answers_ensureReady
  | goesOn h signal l' ih => exact answers_resume ih signal

/-- Whoever is told that a workspace cannot be compiled is told the truth. -/
theorem Readying.not_isReady (h : Readying id (.done false) record l) : ¬IsReady l.state id := h.isAnswered rfl

theorem Readying.quietly_resume {state : Initialization} (h : Readying id (.waits state) record l)
    {l' : Loop ServerState Operation} (signal : Signal) : Quietly (id + 1) (resume state signal) l' :=
  -- Any other workspace would do: only what concerns a workspace itself can disturb it.
  (covers_quiet (Nat.succ_ne_self id).symm).resume h.isAnswered signal

theorem Readying.admitsNothing (h : Readying id step record l) : AdmitsNothing record := by
  induction h with
  | begins l => exact ((quietly_ensureReady (Nat.succ_ne_self id).symm).admits (l := l)).adds
  | goesOn h signal l' ih => exact ih.append (Readying.quietly_resume h signal).admits.adds

end Initialization

/-! ## Requests -/

namespace Scheduler.Invocations

variable {σ ω ι δ : Type} (env : Invocations σ ω ι α δ) {request : CompileRequest} {l : Loop σ ω}

/-- Whatever a run has come to is about the request that it was made for. -/
def IsAbout (request : CompileRequest) : Step (Run ι) (Conclusion α δ) → Prop
  | .waits run => run.request = request
  | .ends r => ∀ c, r = .ok c → c.outcome.request = request

theorem isAbout_fail {f : Failure} : IsAbout request (.fail f : Step (Run ι) (Conclusion α δ)) := fun _ h => by cases h

theorem isAbout_conclude {outcome : CompileOutcome α} (h : outcome.request = request) :
    IsAbout request ((env.conclude outcome).returns l) := by
  unfold conclude
  split
  · rw [Act.returns_bind]
    split
    · rintro _ ⟨⟩
      exact h
    · exact isAbout_fail
  · rintro _ ⟨⟩
    exact h

theorem isAbout_afterInvocation (r : Except Failure α) :
    IsAbout request ((env.afterInvocation request r).returns l) := by
  unfold afterInvocation
  rw [Act.returns_bind]
  split
  · exact isAbout_conclude env rfl
  · exact isAbout_conclude env rfl
  · exact isAbout_fail

theorem isAbout_invoking (part : Act σ ω (Step ι α)) :
    IsAbout request ((Act.afterwards part (.invoking request) (env.afterInvocation request)).returns l) := by
  unfold Act.afterwards
  rw [Act.returns_bind]
  split
  · exact rfl
  · exact isAbout_afterInvocation env _

theorem isAbout_takeTurn : IsAbout request ((env.takeTurn request).returns l) := by
  unfold takeTurn
  rw [Act.returns_bind]
  split
  · exact isAbout_invoking env _
  · exact isAbout_conclude env rfl

theorem isAbout_run : IsAbout request ((env.run request).returns l) := by
  unfold run Act.acquire
  rw [Act.returns_bind, Act.returns_bind, Act.returns_bind]
  split
  · exact isAbout_takeTurn env
  · exact rfl

theorem isAbout_resumeRun {run : Run ι} (h : run.request = request) (signal : Signal) :
    IsAbout request ((env.resumeRun run signal).returns l) := by
  cases run with
  | queued =>
      cases h
      unfold resumeRun
      dsimp only
      split
      · exact isAbout_fail
      · exact isAbout_takeTurn env
  | invoking =>
      cases h
      exact isAbout_invoking env _

end Scheduler.Invocations

namespace Compilation

abbrev Requested (job : CompileJob) (request : CompileRequest) :
    Step (Scheduler.Run Invocation) (Scheduler.Conclusion CompilerReport Nat) → List Event →
      Loop ServerState Operation → Prop :=
  Call ((invocations job).run request) (invocations job).resumeRun

theorem Requested.isAbout {job : CompileJob} {request : CompileRequest}
    {step : Step (Scheduler.Run Invocation) (Scheduler.Conclusion CompilerReport Nat)}
    (h : Requested job request step record l) : Scheduler.Invocations.IsAbout request step := by
  induction h with
  | begins l => exact Scheduler.Invocations.isAbout_run (invocations job)
  | goesOn h signal l' ih => exact Scheduler.Invocations.isAbout_resumeRun (invocations job) ih signal

end Compilation

/-! ## Taking in a document -/

namespace JointInitialization

theorem events_register (folder : Folder) : ((register folder).leaves l).state.events = l.state.events := by
  unfold register
  rw [Act.leaves_bind, Act.returns_state, Act.leaves_state]
  split
  · rfl
  · split <;> rfl

theorem events_registerAll (folders : List Folder) :
    ((registerAll folders).leaves l).state.events = l.state.events := by
  induction folders generalizing l with
  | nil => rfl
  | cons folder rest ih =>
      unfold registerAll
      rw [Act.leaves_bind]
      split
      · exact events_register folder
      · exact ih.trans (events_register folder)

theorem events_start (folders : List Folder) : ((start folders).leaves l).state.events = l.state.events := by
  unfold start
  rw [Act.leaves_bind]
  split
  · exact events_registerAll folders
  · rw [Act.leaves_bind, Act.returns_state, Act.leaves_state]
    dsimp only
    unfold Act.gather
    rw [Act.leaves_bind, (Act.mapM_create _ _).2]
    split
    · exact events_registerAll folders
    · exact events_registerAll folders

theorem events_resume (state : JointInitialization) (signal : Signal) :
    ((resume state signal).leaves l).state.events = l.state.events := by
  unfold resume
  split <;> rfl

end JointInitialization

namespace Locating

theorem events_look (path : Path) :
    ((look path : ServerAct (Step τ WorkspaceId)).leaves l).state.events = l.state.events := by
  unfold look
  rw [Act.leaves_bind, Act.returns_state, Act.leaves_state]
  split <;> rfl

theorem events_afterRestoring (path : Path) {part : ServerAct (Step JointInitialization (Dict String Bool))}
    (h : (part.leaves l).state.events = l.state.events) :
    ((afterRestoring path part).leaves l).state.events = l.state.events := by
  unfold afterRestoring Act.andThen Act.afterwards
  rw [Act.leaves_bind]
  split
  · exact h
  · dsimp only
    split
    · exact (events_look path).trans h
    · exact h

theorem events_start (path : Path) : ((start path).leaves l).state.events = l.state.events := by
  unfold start
  rw [Act.leaves_bind, Act.returns_state, Act.leaves_state]
  split
  · rfl
  · split
    · rfl
    · exact events_look path
    · exact events_afterRestoring path (JointInitialization.events_start _)

theorem events_resume (state : Locating) (signal : Signal) :
    ((resume state signal).leaves l).state.events = l.state.events :=
  events_afterRestoring state.path (JointInitialization.events_resume _ signal)

end Locating

namespace Applying

/-- What becomes of a document that is taken in, and what is put on record meanwhile. -/
inductive Takes : Step Applying Applied → List Event → Prop where
  | waits {state : Applying} {record : List Event} (h : AdmitsNothing record) : Takes (.waits state) record
  | applied {task : TaskId} {id : WorkspaceId} {record : List Event} (h : AdmitsNothing record)
      (ha : .applied task id ∈ record) : Takes (.done ⟨.applied, some id⟩) record
  | refused {status : SyncStatus} {workspace : Option WorkspaceId} {record : List Event} (ha : status ≠ .applied)
      (hc : status ≠ .compiled) : Takes (.done ⟨status, workspace⟩) record
  | fails {f : Failure} {record : List Event} : Takes (.fail f) record

variable {step : Step Applying Applied}

theorem Takes.since (h : Takes step record') (ho : AdmitsNothing record) : Takes step (record ++ record') := by
  cases h with
  | waits h => exact .waits (ho.append h)
  | applied h ha => exact .applied (ho.append h) (List.mem_append_right _ ha)
  | refused ha hc => exact .refused ha hc
  | fails => exact .fails

/-- What comes after something that admits nothing. -/
theorem takes_after {a : ServerAct β} {f : β → ServerAct (Step Applying Applied)} (h : Records a l fun _ record => AdmitsNothing record)
    (hf : Records (f (a.returns l)) (a.leaves l) Takes) : Records (a >>= f) l Takes :=
  let ⟨record, he, hn⟩ := h
  let ⟨record', he', ht⟩ := hf
  ⟨record ++ record', by rw [Act.leaves_bind, he', he, List.append_assoc], ht.since hn⟩

theorem takes_quietly (other : WorkspaceId) {a : ServerAct β} {f : β → ServerAct (Step Applying Applied)}
    (h : Quietly other a l) (hf : Records (f (a.returns l)) (a.leaves l) Takes) : Records (a >>= f) l Takes := takes_after h.admits hf

theorem takes_waits {state : Applying} : Records (pure (.waits state)) l Takes := .pure (.waits admitsNothing_nil)

theorem takes_refused {status : SyncStatus} {workspace : Option WorkspaceId} (ha : status ≠ .applied)
    (hc : status ≠ .compiled) : Records (pure (.done ⟨status, workspace⟩)) l Takes := .pure (.refused ha hc)

theorem takes_fail {f : Failure} : Records (pure (.fail f)) l Takes := .pure .fails

theorem takes_afterWriting (other : WorkspaceId) {part : ServerAct (Step DocumentWrite MirrorEntry)}
    (hq : Quietly other part l) : Records (afterWriting id part) l Takes := by
  unfold afterWriting Act.afterwards
  refine takes_quietly other hq ?_
  split
  · exact takes_waits
  · dsimp only
    split
    · rw [records_self]
      refine .noting fun l' => .pure (.applied ?_ (List.mem_singleton_self _))
      exact fun _ _ _ hm => by cases List.mem_singleton.mp hm
    · exact takes_quietly id (quietly_note rfl) (takes_refused nofun nofun)
    · exact takes_fail

theorem takes_afterPreparing (document : OpenDocument) (path : Path) (other : WorkspaceId)
    {part : ServerAct (Step Initialization Bool)} (hq : Quietly other part l) :
    Records (afterPreparing document path id part) l Takes := by
  unfold afterPreparing Act.andThen Act.afterwards
  refine takes_quietly other hq ?_
  split
  · exact takes_waits
  · dsimp only
    split
    · split
      · exact takes_refused nofun nofun
      · refine takes_quietly id (quietly_pure _) ?_
        split
        · exact takes_refused nofun nofun
        · exact takes_afterWriting id (DocumentWrite.quietly_start _ _)
    · exact takes_fail

theorem takes_afterLocating (document : OpenDocument) (path : Path) {part : ServerAct (Step Locating WorkspaceId)}
    (he : (part.leaves l).state.events = l.state.events) : Records (afterLocating document path part) l Takes := by
  unfold afterLocating Act.afterwards
  refine takes_after (.silent he admitsNothing_nil) ?_
  split
  · exact takes_waits
  · dsimp only
    split
    · exact takes_afterPreparing document path _ (quietly_ensureReady (Nat.succ_ne_self _).symm)
    · exact takes_quietly 0 (quietly_note rfl) (takes_refused nofun nofun)
    · exact takes_fail

theorem takes_start (document : OpenDocument) : Records (start document) l Takes := by
  unfold start
  rw [records_self]
  refine takes_after (records_note fun _ _ _ hm => by cases List.mem_singleton.mp hm) ?_
  rw [records_state]
  split
  · exact takes_fail
  · split
    · exact takes_fail
    · refine takes_after (.silent rfl admitsNothing_nil) ?_
      split
      · exact takes_afterLocating document _ (Locating.events_start _)
      · exact takes_refused nofun nofun

theorem takes_resume (state : Applying) (signal : Signal) : Records (resume state signal) l Takes := by
  cases state with
  | locating document state => exact takes_afterLocating document state.path (Locating.events_resume state signal)
  | preparing document path id state =>
      obtain ⟨other, h⟩ := state.exists_isOf
      exact takes_afterPreparing document path (other + 1) ((covers_quiet (Nat.succ_ne_self other).symm).resume h signal)
  | writing id state => exact takes_afterWriting id (DocumentWrite.quietly_resume state signal)

end Applying

end InkServer
