import InkServer.Proofs.Workspace.Admissions
import InkServer.Proofs.Workspace.Order

/-!
# A document that was compiled

Whoever edits a document is told in the end that it was compiled. It was, with the text that was written, unless its
workspace was found not to be ready once the settings were there: then nothing was admitted at all.
-/

namespace InkServer

open ServerState ServerAct

variable {id : WorkspaceId} {l : Loop ServerState Operation} {before after record : List Event} {task : TaskId}

theorem Quietly.gets {τ α : Type} {a : ServerAct (Step τ α)}
    {q : Step τ α → List Event → Loop ServerState Operation → Prop} (h : Quietly id a l) (hq : q (a.returns l) (a.adds l) (a.leaves l)) : Gets a l q := by
  obtain ⟨record, he, -⟩ := h.record
  rw [adds_eq he] at hq
  exact .inr ⟨record, he, hq⟩

namespace Compilation

variable {job : CompileJob} {request : CompileRequest} {settings : Settings}

theorem Reports.gets {τ α : Type} {waits : τ → Prop} {summary : α → CompileSummary} {a : ServerAct (Step τ α)}
    {q : Step τ α → List Event → Loop ServerState Operation → Prop} (h : Reports id waits summary a l)
    (hq : q (a.returns l) (a.adds l) (a.leaves l)) : Gets a l q := by
  unfold Reports Act.Reaches at h
  cases hr : a.returns l with
  | waits state =>
      rw [hr] at h
      obtain ⟨-, record, he, -⟩ := h
      rw [adds_eq he] at hq
      exact .inr ⟨record, he, hq⟩
  | ends r =>
      rw [hr] at h
      cases r with
      | error f => exact .inl ⟨f, hr⟩
      | ok c =>
          obtain ⟨record, he, -⟩ := h c rfl
          rw [adds_eq he] at hq
          exact .inr ⟨record, he, hq⟩

/-! ## What becomes of a compile -/

/-- How far the compile of a workspace has come: the workspace is seen to, then a request is admitted and run. Without
a request there is an end only if the workspace is said not to be ready. -/
inductive Stage (id : WorkspaceId) : Step Compilation CompileSummary → List Event → Loop ServerState Operation → Prop where
  | readies {job : CompileJob} {state : Initialization} {record : List Event} {l : Loop ServerState Operation}
      (hid : job.id = id) (h : Initialization.Readying id (.waits state) record l) :
      Stage id (.waits (.preparing job state)) record l
  | runs {job : CompileJob} {request : CompileRequest} {run : Scheduler.Run Invocation} {task : TaskId}
      {before after : List Event} {l : Loop ServerState Operation} (hid : job.id = id) (hb : AdmitsNothing before)
      (h : Requested job request (.waits run) after l) :
      Stage id (.waits (.running job request run)) (before ++ .admitted task id request :: after) l
  | concludes {job : CompileJob} {request : CompileRequest} {task : TaskId} {before after : List Event}
      {c : Scheduler.Conclusion CompilerReport Nat} {l : Loop ServerState Operation} (hid : job.id = id)
      (hb : AdmitsNothing before) (h : Requested job request (.done c) after l) :
      Stage id (.done (summary request.workspace c)) (before ++ .admitted task id request :: after) l
  | unready {s : CompileSummary} {record : List Event} {l : Loop ServerState Operation}
      (h : Initialization.Readying id (.done false) record l) : Stage id (.done s) record l
  | fails {f : Failure} {record : List Event} {l : Loop ServerState Operation} : Stage id (.fail f) record l

theorem stage_afterRunning (task : TaskId) (hid : job.id = id) (hb : AdmitsNothing before)
    {part : ServerAct (Step (Scheduler.Run Invocation) (Scheduler.Conclusion CompilerReport Nat))}
    (h : Gets part l fun step more l' => Requested job request step (after ++ more) l') :
    Gets (afterRunning job request part) l fun step more l' =>
      Stage id step (before ++ .admitted task id request :: (after ++ more)) l' := by
  refine h.andThen (fun run more l' h => .runs hid hb h) fun c more l' h => .pure ?_
  rw [List.append_nil]
  exact .concludes hid hb h

theorem stage_afterPreparing (job : CompileJob) (hid : job.id = id) {part : ServerAct (Step Initialization Bool)}
    (h : Gets part l fun step more l' => Initialization.Readying id step (record ++ more) l') :
    Gets (afterPreparing job part) l fun step more l' => Stage id step (record ++ more) l' := by
  refine h.andThen (fun state more l' h => .readies hid h) fun ready more l' h => ?_
  cases ready with
  | false =>
      refine Gets.after [] (List.append_nil _).symm (.pure ?_)
      rw [List.append_nil, List.append_nil]
      exact .unready h
  | true =>
      refine Gets.withWorkspace .fails fun w hw => ?_
      obtain ⟨hreturns, hleaves⟩ := admission_eq job hw
      refine Gets.after [.admitted l'.current id w.scheduler.issue.1] ?_ ?_
      · rw [hleaves, ← hid]
        exact moved_events ..
      · rw [hreturns]
        have hrun : Gets ((invocations job).run w.scheduler.issue.1) ((admission job).leaves l') fun step rest l'' =>
            Requested job w.scheduler.issue.1 step ([] ++ rest) l'' := (reports_run job _ "").gets (.begins _)
        refine (stage_afterRunning l'.current hid (Initialization.Readying.admitsNothing h) hrun).mono
          fun step rest l'' hs => ?_
        rw [List.append_assoc] at hs
        exact hs

theorem stage_start (settings : Settings) (entry : Option Path) : Gets (start id settings entry) l (Stage id) := by
  unfold start
  split
  · exact .fails
  · rename_i path _
    have hready : Gets (ensureReady id) l fun step more l' => Initialization.Readying id step ([] ++ more) l' :=
      (quietly_ensureReady (Nat.succ_ne_self id).symm).gets (.begins l)
    exact stage_afterPreparing ⟨id, settings, path⟩ rfl hready

theorem Stage.goesOn {state : Compilation} {l₀ : Loop ServerState Operation} (h : Stage id (.waits state) record l₀)
    (signal : Signal) : Gets (resume state signal) l fun step more l' => Stage id step (record ++ more) l' := by
  cases h with
  | readies hid h =>
      exact stage_afterPreparing _ hid ((Initialization.Readying.quietly_resume h signal).gets (h.goesOn signal l))
  | @runs job request run task before after _ hid hb h =>
      have hrun : Gets ((invocations job).resumeRun run signal) l fun step more l' =>
          Requested job request step (after ++ more) l' := (reports_resumeRun job run signal "").gets (h.goesOn signal l)
      refine (stage_afterRunning task hid hb hrun).mono fun step more l' hs => ?_
      rw [List.append_assoc]
      exact hs

theorem Calls.stage {entry : Option Path} {step : Step Compilation CompileSummary}
    (h : Calls id settings entry step record l) : Stage id step record l := by
  induction h with
  | begins l => exact (stage_start settings entry).adds fun _ _ _ => .fails
  | goesOn h signal l' ih => exact (ih.goesOn signal).adds fun _ _ _ => .fails

end Compilation

namespace Edit

open Compilation (Calls)

/-! ## What becomes of an edit -/

/-- A text was written into the mirror of a workspace, and nothing was admitted. -/
structure IsWritten (id : WorkspaceId) (record : List Event) : Prop where
  applied : ∃ task, .applied task id ∈ record
  admitsNothing : AdmitsNothing record

theorem IsWritten.append (h : IsWritten id before) (ha : AdmitsNothing after) : IsWritten id (before ++ after) :=
  ⟨h.applied.imp fun _ hm => List.mem_append_left _ hm, h.admitsNothing.append ha⟩

/-- How far an edit has come: the document is taken in, its settings are looked up, and its workspace is compiled. -/
inductive Stage : Step Edit SyncStatus → List Event → Loop ServerState Operation → Prop where
  | applies {document : OpenDocument} {state : Applying} {record : List Event} {l : Loop ServerState Operation}
      (h : AdmitsNothing record) : Stage (.waits (.applying document state)) record l
  | configures {id : WorkspaceId} {state : SettingsLookup} {record : List Event} {l : Loop ServerState Operation}
      (h : IsWritten id record) : Stage (.waits (.configuring id state)) record l
  | compiles {id : WorkspaceId} {settings : Settings} {state : Compilation} {before after : List Event}
      {l : Loop ServerState Operation} (h : IsWritten id before) (hc : Calls id settings none (.waits state) after l) :
      Stage (.waits (.compiling state)) (before ++ after) l
  | compiled {id : WorkspaceId} {settings : Settings} {summary : CompileSummary} {before after : List Event}
      {l : Loop ServerState Operation} (h : IsWritten id before) (hc : Calls id settings none (.done summary) after l) :
      Stage (.done .compiled) (before ++ after) l
  | refused {status : SyncStatus} {record : List Event} {l : Loop ServerState Operation} (h : status ≠ .compiled) :
      Stage (.done status) record l
  | fails {f : Failure} {record : List Event} {l : Loop ServerState Operation} : Stage (.fail f) record l

theorem stage_afterCompiling {settings : Settings} (h : IsWritten id before)
    {part : ServerAct (Step Compilation CompileSummary)}
    (hc : Gets part l fun step more l' => Calls id settings none step (after ++ more) l') :
    Gets (afterCompiling part) l fun step more l' => Stage step (before ++ (after ++ more)) l' := by
  refine hc.andThen (fun state more l' hc => .compiles h hc) fun summary more l' hc => .pure ?_
  rw [List.append_nil]
  exact .compiled h hc

theorem stage_afterConfiguring (h : IsWritten id before) {part : ServerAct (Step SettingsLookup Settings)}
    (hq : Quietly id part l) :
    Gets (afterConfiguring id part) l fun step more l' => Stage step (before ++ more) l' := by
  have hp : Gets part l fun _ more _ => AdmitsNothing more := hq.gets hq.admits.adds
  refine hp.andThen (fun state more l' hn => .configures (h.append hn)) fun settings more l' hn => ?_
  have hstart : Gets (Compilation.start id settings none) l' fun step rest l'' =>
      Calls id settings none step ([] ++ rest) l'' := (Compilation.reports_start settings none).gets (.begins l')
  refine (stage_afterCompiling (h.append hn) hstart).mono fun step rest l'' hs => ?_
  rw [List.append_assoc] at hs
  exact hs

theorem stage_afterApplying (document : OpenDocument) (h : AdmitsNothing before)
    {part : ServerAct (Step Applying Applied)} (hp : Records part l Applying.Takes) :
    Gets (afterApplying document part) l fun step more l' => Stage step (before ++ more) l' := by
  have hget : Gets part l fun step more _ => Applying.Takes step more := by
    obtain ⟨record, he, ht⟩ := hp
    exact .inr ⟨record, he, ht⟩
  refine hget.andThen (fun state more l' ht => ?_) fun a more l' ht => ?_
  · cases ht with
    | waits hn => exact .applies (h.append hn)
  · cases ht with
    | applied hn ha =>
        have hwritten : IsWritten _ (before ++ more) := ⟨⟨_, List.mem_append_right _ ha⟩, h.append hn⟩
        refine (stage_afterConfiguring hwritten (SettingsLookup.quietly_start _)).mono fun step rest l'' hs => ?_
        rw [List.append_assoc] at hs
        exact hs
    | refused ha hc =>
        split
        · rename_i happlied _
          exact absurd happlied ha
        · exact .pure (.refused hc)

theorem stage_start (document : OpenDocument) : Gets (start document) l Stage :=
  stage_afterApplying document admitsNothing_nil (Applying.takes_start document)

theorem Stage.goesOn {state : Edit} {l₀ : Loop ServerState Operation} (h : Stage (.waits state) record l₀)
    (signal : Signal) : Gets (resume state signal) l fun step more l' => Stage step (record ++ more) l' := by
  cases h with
  | applies h => exact stage_afterApplying _ h (Applying.takes_resume _ signal)
  | configures h => exact stage_afterConfiguring h (SettingsLookup.quietly_resume _ signal)
  | @compiles id settings state before after _ h hc =>
      have hresume : Gets (Compilation.resume state signal) l fun step more l' =>
          Calls id settings none step (after ++ more) l' :=
        (Compilation.reports_resume state signal).gets (hc.goesOn signal l)
      refine (stage_afterCompiling h hresume).mono fun step more l' hs => ?_
      rw [List.append_assoc]
      exact hs

variable {document : OpenDocument} {step : Step Edit SyncStatus}

abbrev Edits (document : OpenDocument) : Step Edit SyncStatus → List Event → Loop ServerState Operation → Prop :=
  Call (start document) resume

theorem Edits.stage (h : Edits document step record l) : Stage step record l := by
  induction h with
  | begins l => exact (stage_start document).adds fun _ _ _ => .fails
  | goesOn h signal l' ih => exact (ih.goesOn signal).adds fun _ _ _ => .fails

/-! ## COMPILED means compiled -/

/-- After the text was written a request was admitted for the same workspace, and its run has ended. -/
def WasCompiled (record : List Event) (l : Loop ServerState Operation) : Prop :=
  ∃ before after id task job request c, record = before ++ .admitted task id request :: after ∧ IsWritten id before ∧
    job.id = id ∧ Compilation.Requested job request (.done c) after l ∧ c.outcome.request = request

/-- After the text was written the workspace was seen to once more and is not ready, and nothing was admitted. -/
def WasLeft (record : List Event) (l : Loop ServerState Operation) : Prop :=
  ∃ before after id, record = before ++ after ∧ IsWritten id before ∧
    Initialization.Readying id (.done false) after l ∧ ¬IsReady l.state id ∧ AdmitsNothing record

/-- Whatever happens between its turns, an edit that is said to be compiled was compiled unless its workspace is not
ready once its settings are there. -/
theorem compiled_means_compiled_iff (h : Edits document (.done .compiled) record l) :
    WasCompiled record l ↔ ¬WasLeft record l := by
  constructor
  · rintro ⟨before, after, id, task, job, request, c, rfl, -⟩ ⟨_, _, _, -, -, -, -, hn⟩
    exact hn task id request (List.mem_append_right _ List.mem_cons_self)
  · intro hleft
    cases h.stage with
    | refused hne => exact absurd rfl hne
    | @compiled id settings summary before after _ hwritten hc =>
        cases hc.stage with
        -- The text was written before the workspace was seen to once more, and that admits nothing either.
        | @concludes job request task between rest c _ hid hb hr =>
            refine ⟨before ++ between, rest, id, task, job, request, c, ?_, hwritten.append hb, hid, hr, ?_⟩
            · rw [List.append_assoc]
            · exact hr.isAbout c rfl
        | unready hr =>
            refine absurd ⟨before, after, id, rfl, hwritten, hr, ?_, ?_⟩ hleft
            · exact Initialization.Readying.not_isReady hr
            · exact hwritten.admitsNothing.append (Initialization.Readying.admitsNothing hr)

/-! ## An edit whose workspace is removed while its settings are looked up -/

def isCompiled : Step Edit SyncStatus → Bool
  | .ends (.ok .compiled) => true
  | _ => false

theorem edits_follow {others : ServerAct Unit} {n : Nat}
    (h : isCompiled (follow (start document) resume others l n).1) :
    Edits document (.done .compiled) (follow (start document) resume others l n).2.1
      (follow (start document) resume others l n).2.2 := by
  have hcall := call_follow (start document) resume others l n
  generalize (follow (start document) resume others l n).1 = step at h hcall
  unfold isCompiled at h
  split at h
  · exact hcall
  · cases h

def admits : Event → Bool
  | .admitted _ _ _ => true
  | _ => false

theorem admitsNothing_iff : AdmitsNothing record ↔ record.any admits = false := by
  rw [List.any_eq_false]
  refine ⟨fun h e hm he => ?_, fun h _ _ _ hm => h _ hm rfl⟩
  cases e with
  | admitted task id request => exact h task id request hm
  | _ => cases he

/-- A folder is open. -/
@[irreducible] def folderOpened : Loop ServerState Operation := (Server.run (Server.sample []) Server.openingFolder).loop

/-- An edit that nobody disturbs is compiled. -/
theorem undisturbed_edit_was_compiled :
    ∃ record l, Edits (Server.sampleDocument 1 "One.") (.done .compiled) record l ∧ WasCompiled record l := by
  have hrun : isCompiled (follow (start (Server.sampleDocument 1 "One.")) resume (pure ()) folderOpened 2).1 ∧
      (follow (start (Server.sampleDocument 1 "One.")) resume (pure ()) folderOpened 2).2.1.any admits := by
    decide +kernel
  have hedits := edits_follow hrun.1
  refine ⟨_, _, hedits, (compiled_means_compiled_iff hedits).mpr fun ⟨_, _, _, _, _, _, _, hn⟩ => ?_⟩
  cases hrun.2.symm.trans (admitsNothing_iff.mp hn)

/-- A folder is open whose settings are slow to come. -/
def settingsHeld : List (Session.Move External) := Server.openingFolder ++ [.closes "settings"]

/-- The folder is closed while an edit of its story waits for the settings. -/
def closedMeanwhile : List (Session.Move External) :=
  settingsHeld ++ Server.firstEdit ++ [.turn, .outside (.asks (.remove "file:///p")), .turn, .passes 2 .go] ++
    Server.settling

/-- What there is when an edit begins whose settings are slow to come. -/
@[irreducible] def folderHeld : Loop ServerState Operation := (Server.run Server.configured settingsHeld).loop

/-- What there is when the folder was closed and the settings have come. -/
@[irreducible] def folderClosed : Loop ServerState Operation := (Server.run Server.configured closedMeanwhile).loop

/-- The status that a task has ended with. -/
def status? (s : Server) (task : TaskId) : Option SyncStatus :=
  match s.result? task with
  | some (.ok (.status status)) => some status
  | _ => none

/-- An edit whose workspace is removed while the settings are looked up is said to be compiled although nothing was
admitted. -/
theorem edit_of_removed_workspace_is_said_to_be_compiled :
    (∃ record l, Edits (Server.sampleDocument 1 "One.") (.done .compiled) record l ∧ ¬WasCompiled record l) ∧
      status? (Server.run Server.configured closedMeanwhile) 1 = some .compiled ∧
      AdmitsNothing (Server.run Server.configured closedMeanwhile).state.events := by
  have hrun : isCompiled (follow (start (Server.sampleDocument 1 "One.")) resume
        (Act.modifyLoop fun _ => folderClosed) folderHeld 1).1 ∧
      (follow (start (Server.sampleDocument 1 "One.")) resume
        (Act.modifyLoop fun _ => folderClosed) folderHeld 1).2.1.any admits = false := by decide +kernel
  have hwhole : status? (Server.run Server.configured closedMeanwhile) 1 = some .compiled ∧
      (Server.run Server.configured closedMeanwhile).state.events.any admits = false := by decide +kernel
  refine ⟨⟨_, _, edits_follow hrun.1, ?_⟩, hwhole.1, admitsNothing_iff.mpr hwhole.2⟩
  rintro ⟨before, after, id, task, _, request, _, he, -⟩
  have hm : .admitted task id request ∈ (follow (start (Server.sampleDocument 1 "One.")) resume
      (Act.modifyLoop fun _ => folderClosed) folderHeld 1).2.1 :=
    he ▸ List.mem_append_right _ List.mem_cons_self
  exact admitsNothing_iff.mpr hrun.2 task id request hm

end Edit

end InkServer
