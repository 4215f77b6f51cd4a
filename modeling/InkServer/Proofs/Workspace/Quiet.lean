import InkServer.Proofs.Workspace.Progress
import InkServer.Proofs.Task.Acts

/-!
# What calls do quietly

Most of what the call of an edit does leaves open how far the edits have got: it waits for its turn, writes,
asks for settings and runs the compiler. The only tasks that it creates then fetch
settings.
-/

namespace InkServer

open ServerState ServerAct

/-- Whether an operation fetches settings. -/
def Operation.isFetch : Operation → Bool
  | .fetchSettings _ => true
  | _ => false

variable {τ α β : Type} {id : WorkspaceId} {l l₁ l₂ : Loop ServerState Operation}

/-- New tasks have the next numbers, and all of them fetch settings. -/
structure Launches (l l' : Loop ServerState Operation) (new : List (TaskId × Operation)) : Prop where
  created : l'.created = l.created ++ new
  numbers : new.map Prod.fst = List.range' l.nextTask new.length
  next : l'.nextTask = l.nextTask + new.length
  fetches : ∀ c ∈ new, c.2.isFetch

theorem Launches.trans {new new' : List (TaskId × Operation)} (h : Launches l l₁ new) (h' : Launches l₁ l₂ new') :
    Launches l l₂ (new ++ new') := by
  refine ⟨?_, ?_, ?_, fun c hc => (List.mem_append.mp hc).elim (h.fetches c) (h'.fetches c)⟩
  · rw [h'.created, h.created, List.append_assoc]
  · rw [List.map_append, h.numbers, h'.numbers, h.next, List.length_append, List.range'_append_1]
  · rw [h'.next, h.next, List.length_append, Nat.add_assoc]

/-- What a call does quietly. -/
structure Quiet (id : WorkspaceId) (l l' : Loop ServerState Operation) : Prop where
  current : l'.current = l.current
  launches : ∃ new, Launches l l' new
  policy : l'.state.policy = l.state.policy
  registered : l'.state.registered = l.state.registered
  documents : l'.state.documents = l.state.documents
  record : ∃ record, l'.state.events = l.state.events ++ record ∧ ∀ e ∈ record, e.isIdle
  workspace : ∀ w, l.state.workspaces[id]? = some w → ∃ w', l'.state.workspaces[id]? = some w' ∧ w.Alike w'

theorem Quiet.trans (h : Quiet id l l₁) (h' : Quiet id l₁ l₂) : Quiet id l l₂ := by
  obtain ⟨new, hnew⟩ := h.launches
  obtain ⟨new', hnew'⟩ := h'.launches
  obtain ⟨record, he, hr⟩ := h.record
  obtain ⟨record', he', hr'⟩ := h'.record
  refine ⟨h'.current.trans h.current, ⟨_, hnew.trans hnew'⟩, h'.policy.trans h.policy,
    h'.registered.trans h.registered, h'.documents.trans h.documents,
    ⟨record ++ record', by rw [he', he, List.append_assoc],
      fun e hm => (List.mem_append.mp hm).elim (hr e) (hr' e)⟩, fun w hw => ?_⟩
  · obtain ⟨w', hw', ha⟩ := h.workspace w hw
    obtain ⟨w'', hw'', ha'⟩ := h'.workspace w' hw'
    exact ⟨w'', hw'', ha.trans ha'⟩

/-- What creates no task and adds nothing to the record. -/
theorem Quiet.of_eq {l' : Loop ServerState Operation} (hcurrent : l'.current = l.current)
    (hcreated : l'.created = l.created) (hnext : l'.nextTask = l.nextTask) (hp : l'.state.policy = l.state.policy)
    (hr : l'.state.registered = l.state.registered) (hd : l'.state.documents = l.state.documents)
    (he : l'.state.events = l.state.events)
    (hw : ∀ w, l.state.workspaces[id]? = some w → ∃ w', l'.state.workspaces[id]? = some w' ∧ w.Alike w') :
    Quiet id l l' :=
  ⟨hcurrent, ⟨[], by rw [hcreated, List.append_nil], rfl, hnext, fun _ h => absurd h List.not_mem_nil⟩, hp, hr, hd,
    ⟨[], by rw [he, List.append_nil], fun _ h => absurd h List.not_mem_nil⟩, hw⟩

/-- What no workspace takes notice of. -/
theorem Quiet.aside {l' : Loop ServerState Operation} (hcurrent : l'.current = l.current)
    (hcreated : l'.created = l.created) (hnext : l'.nextTask = l.nextTask) (hp : l'.state.policy = l.state.policy)
    (hr : l'.state.registered = l.state.registered) (hd : l'.state.documents = l.state.documents)
    (he : l'.state.events = l.state.events) (hw : l'.state.workspaces = l.state.workspaces) : Quiet id l l' :=
  .of_eq hcurrent hcreated hnext hp hr hd he fun w h => ⟨w, by rw [hw, h], .refl w⟩

theorem Quiet.refl : Quiet id l l := .aside rfl rfl rfl rfl rfl rfl rfl rfl

/-! ## Acts -/

/-- An act that does all it does quietly. -/
def Quietly (id : WorkspaceId) (a : ServerAct α) (l : Loop ServerState Operation) : Prop :=
  Quiet id l (a.leaves l)

theorem quietly_pure (a : α) : Quietly id (pure a) l := .refl

theorem Quietly.bind {a : ServerAct β} {f : β → ServerAct α} (ha : Quietly id a l)
    (hf : ∀ x l', Quietly id (f x) l') : Quietly id (a >>= f) l := ha.trans (hf _ _)

theorem quietly_state {f : ServerState → ServerAct α} :
    Quietly id (Act.state >>= f) l ↔ Quietly id (f l.state) l := Iff.rfl

theorem quietly_workspace? {id' : WorkspaceId} {f : Option Workspace → ServerAct α} :
    Quietly id (workspace? id' >>= f) l ↔ Quietly id (f l.state.workspaces[id']?) l := Iff.rfl

theorem quietly_self {f : TaskId → ServerAct α} :
    Quietly id (Act.self >>= f) l ↔ Quietly id (f l.current) l := Iff.rfl

theorem quietly_wake (task : TaskId) (signal : Signal) (turns : Nat) :
    Quietly id (Act.wake task signal turns) l := .aside rfl rfl rfl rfl rfl rfl rfl rfl

theorem quietly_waitAt (gate : String) (state : τ) :
    Quietly id (Act.waitAt gate state : ServerAct (Step τ α)) l := .aside rfl rfl rfl rfl rfl rfl rfl rfl

theorem Quietly.through {gate : String} {state : τ} {next : ServerAct (Step τ α)} (h : Quietly id next l) :
    Quietly id (Act.through gate state next) l := by
  unfold Quietly
  rw [Act.leaves_through]
  split
  · exact quietly_waitAt (α := α) gate state
  · exact h

theorem Quietly.forM {xs : List β} {f : β → ServerAct Unit} (hf : ∀ x l', Quietly id (f x) l') :
    Quietly id (xs.forM f) l := by
  induction xs generalizing l with
  | nil => exact quietly_pure ()
  | cons x rest ih => exact Quietly.bind (hf x l) fun _ _ => ih

theorem quietly_note {e : Event} (h : e.isIdle) : Quietly id (note e) l := by
  refine ⟨rfl, ⟨[], (List.append_nil _).symm, rfl, rfl, fun _ h => absurd h List.not_mem_nil⟩, rfl, rfl, rfl,
    ⟨[e], rfl, fun e' hm => ?_⟩, fun w h => ⟨w, h, .refl w⟩⟩
  rw [List.mem_singleton.mp hm]
  exact h

theorem quietly_fetch (uri : String) : Quietly id (Act.create (.fetchSettings uri)) l := by
  refine ⟨rfl, ⟨[(l.nextTask, .fetchSettings uri)], rfl, rfl, rfl, fun c hc => ?_⟩, rfl, rfl, rfl,
    ⟨[], (List.append_nil _).symm, fun _ h => absurd h List.not_mem_nil⟩, fun w h => ⟨w, h, .refl w⟩⟩
  rw [List.mem_singleton.mp hc]
  rfl

/-- A change of a workspace that leaves it as ready and as far as it was. -/
theorem alike_modify {ws : List Workspace} {id' : WorkspaceId} {f : Workspace → Workspace}
    (hf : ∀ w, ws[id']? = some w → w.Alike (f w)) {w : Workspace} (hw : ws[id]? = some w) :
    ∃ w', (ws.modify id' f)[id]? = some w' ∧ w.Alike w' := by
  rw [List.getElem?_modify, hw]
  by_cases hid : id' = id
  · subst hid
    exact ⟨f w, by simp, hf w hw⟩
  · exact ⟨w, by simp [hid], .refl w⟩

theorem quiet_modify {id' : WorkspaceId} {f : Workspace → Workspace} (ready : List Wake)
    (hf : ∀ w, l.state.workspaces[id']? = some w → w.Alike (f w)) :
    Quiet id l { l with state := { l.state with workspaces := l.state.workspaces.modify id' f }, ready } :=
  .of_eq rfl rfl rfl rfl rfl rfl rfl fun _ hw => alike_modify hf hw

theorem quietly_updateWorkspace {id' : WorkspaceId} {f : Workspace → Workspace}
    (hf : ∀ w, l.state.workspaces[id']? = some w → w.Alike (f w)) : Quietly id (updateWorkspace id' f) l :=
  quiet_modify l.ready hf

theorem quietly_withWorkspace {id' : WorkspaceId} {absent : ServerAct α} {f : Workspace → ServerAct α}
    (ha : Quietly id absent l) (hf : ∀ w, l.state.workspaces[id']? = some w → Quietly id (f w) l) :
    Quietly id (withWorkspace id' absent f) l := by
  unfold withWorkspace
  rw [quietly_workspace?]
  split
  · rename_i w hw
    exact hf w hw
  · exact ha

theorem quietly_onDisk (work : DiskWork α) : Quietly id (onDisk work) l := .aside rfl rfl rfl rfl rfl rfl rfl rfl

/-- Taking a free lock or standing in line for it. -/
theorem Quietly.acquire {place : Act.LockPlace ServerState} {state : τ} {next : ServerAct (Step τ α)}
    (hp : ∀ lock, Quiet id l { l with state := place.set lock l.state })
    (hn : ∀ l', Quietly id next l') : Quietly id (Act.acquire place state next) l := by
  unfold Act.acquire
  rw [quietly_self, quietly_state]
  refine Quietly.bind (hp _) fun _ l' => ?_
  split
  · exact hn l'
  · exact quietly_pure _

theorem quietly_unlock {place : Act.LockPlace ServerState}
    (hp : ∀ lock ready, Quiet id l { l with state := place.set lock l.state, ready }) :
    Quietly id (Act.unlock place) l := by
  unfold Quietly
  rw [Act.leaves_unlock]
  exact hp _ _

theorem quietly_abandon {place : Act.LockPlace ServerState}
    (hp : ∀ lock ready, Quiet id l { l with state := place.set lock l.state, ready }) :
    Quietly id (Act.abandon place) l := by
  unfold Quietly
  rw [Act.leaves_abandon]
  exact hp _ _

/-! ## Writing -/

namespace DocumentWrite

variable {id' : WorkspaceId} {mirror : Mirror} {relative : Path} {content : ByteArray}

theorem quiet_writingLock (lock : Lock) (ready : List Wake) :
    Quiet id l { l with state := (writingLock id').set lock l.state, ready } :=
  quiet_modify ready fun _ _ => ⟨rfl, fun h => h, rfl, rfl⟩

theorem quietly_finish (r : Except Failure α) :
    Quietly id (finish id' r : ServerAct (Step τ α)) l :=
  Quietly.bind (quietly_unlock quiet_writingLock) fun _ _ => quietly_pure _

theorem quietly_write : Quietly id (write id' mirror relative content) l := by
  unfold write
  refine Quietly.bind (quietly_onDisk _) fun r l' => ?_
  split
  · have hrecord : ∀ entries, Quietly id (record mirror entries) l' := fun _ => .aside rfl rfl rfl rfl rfl rfl rfl rfl
    exact Quietly.bind (hrecord _) fun _ _ => quietly_finish _
  · exact quietly_finish _

theorem quietly_takeTurn : Quietly id (takeTurn id' mirror relative content) l := by
  unfold takeTurn
  refine Quietly.bind (quietly_pure _) fun index l₁ => ?_
  refine Quietly.bind (quietly_onDisk _) fun known l₂ => ?_
  split
  · exact quietly_finish _
  · exact quietly_finish _
  · exact .through quietly_write

theorem quietly_start (path : Path) (content : ByteArray) : Quietly id (start id' path content) l := by
  refine quietly_withWorkspace (quietly_pure _) fun w hw => ?_
  split
  · exact quietly_pure _
  · rw [quietly_state]
    split
    · exact quietly_pure _
    · exact .acquire (fun lock => quiet_writingLock lock l.ready) fun _ => quietly_takeTurn

theorem quietly_resume (state : DocumentWrite) (signal : Signal) : Quietly id (resume state signal) l := by
  unfold resume
  split
  · exact quietly_takeTurn
  · exact Quietly.bind (quietly_abandon quiet_writingLock) fun _ _ => quietly_pure _
  · exact quietly_write
  · exact quietly_finish _

end DocumentWrite

/-! ## Settings -/

namespace SettingsRequest

theorem quietly_updateCache (f : SettingsCache → SettingsCache) : Quietly id (updateCache f) l :=
  .aside rfl rfl rfl rfl rfl rfl rfl rfl

theorem quietly_finish (outcome : Except Failure Settings) : Quietly id (finish outcome) l := by
  unfold finish
  rw [quietly_self, quietly_state]
  refine Quietly.bind (quietly_updateCache _) fun _ l₁ => ?_
  exact Quietly.bind (.forM fun task _ => quietly_wake task .go 1) fun _ _ => quietly_pure _

theorem quietly_readAnswer (uri : String) : Quietly id (readAnswer uri) l := by
  unfold readAnswer
  rw [quietly_state]
  split <;> exact quietly_finish _

theorem quietly_start (uri : String) (signal : Signal) : Quietly id (start uri signal) l := by
  unfold start
  rw [quietly_state]
  split
  · exact Quietly.bind (quietly_note rfl) fun _ _ => .through (quietly_readAnswer uri)
  · rw [quietly_self]
    refine Quietly.bind (quietly_note rfl) fun _ l₁ => ?_
    exact Quietly.bind (.aside rfl rfl rfl rfl rfl rfl rfl rfl) fun _ _ => quietly_pure _
  · exact quietly_finish _
  · exact quietly_finish _

theorem quietly_resume (state : SettingsRequest) (signal : Signal) : Quietly id (resume state signal) l := by
  unfold resume
  split
  · exact quietly_readAnswer _
  · exact quietly_finish _
  · unfold takeAnswer
    rw [quietly_self, quietly_state]
    exact quietly_finish _
  · have habandon : Quietly id abandon l := .aside rfl rfl rfl rfl rfl rfl rfl rfl
    exact Quietly.bind habandon fun _ _ => quietly_finish _

end SettingsRequest

namespace SettingsLookup

open SettingsRequest

theorem quietly_conclude (state : SettingsLookup) (outcome : Except Failure Settings) :
    Quietly id (conclude state outcome) l := by
  unfold conclude
  split
  · exact quietly_pure _
  · exact quietly_pure _
  · exact Quietly.bind (quietly_updateCache _) fun _ _ => quietly_pure _

theorem quietly_start (uri : String) : Quietly id (start uri) l := by
  unfold start
  rw [quietly_state]
  split
  · refine Quietly.bind ?_ fun fetch l₁ => ?_
    · unfold currentFetch
      rw [quietly_state]
      split
      · exact quietly_pure _
      · refine Quietly.bind (quietly_fetch uri) fun fetch l₁ => ?_
        exact Quietly.bind (quietly_updateCache _) fun _ _ => quietly_pure _
    · rw [quietly_state]
      split
      · exact quietly_conclude _ _
      · rw [quietly_self]
        exact Quietly.bind (quietly_updateCache _) fun _ _ => quietly_pure _
  · exact quietly_pure _

theorem quietly_resume (state : SettingsLookup) (signal : Signal) : Quietly id (resume state signal) l := by
  unfold resume
  rw [quietly_state]
  split
  · exact quietly_conclude _ _
  · exact quietly_pure _
  · exact quietly_pure _
  · rw [quietly_self]
    exact Quietly.bind (quietly_updateCache _) fun _ _ => quietly_pure _

end SettingsLookup

/-! ## Compilers -/

namespace Invocation

theorem quietly_stopTimer : Quietly id stopTimer l := .aside rfl rfl rfl rfl rfl rfl rfl rfl

theorem quietly_exit (p : CompilerProcess) : Quietly id (exit p) l := by
  unfold exit
  refine Quietly.bind quietly_stopTimer fun _ _ => Quietly.bind (quietly_note rfl) fun _ l₁ => ?_
  split
  · exact .aside rfl rfl rfl rfl rfl rfl rfl rfl
  · exact quietly_pure _

theorem quietly_ended (p : CompilerProcess) : Quietly id (ended p) l := by
  unfold ended
  refine Quietly.bind (quietly_exit p) fun _ _ => Quietly.bind (quietly_note rfl) fun _ l₁ => ?_
  split
  · exact quietly_pure _
  · rw [quietly_self]
    exact Quietly.bind (quietly_wake _ _ _) fun _ _ => quietly_pure _

theorem quietly_reap (p : CompilerProcess) (expired : Bool) : Quietly id (reap p expired) l :=
  Quietly.bind (quietly_note rfl) fun _ _ => quietly_pure _

theorem quietly_kill (p : CompilerProcess) (expired : Bool) : Quietly id (kill p expired) l := by
  unfold kill putToEnd awaitEnd
  refine Quietly.bind ?_ fun _ _ => ?_
  · split
    · exact quietly_exit p
    · exact quietly_note rfl
  · split
    · exact quietly_waitAt _ _
    · exact quietly_reap p expired

theorem quietly_stop (p : CompilerProcess) (expired : Bool) : Quietly id (stop p expired) l := by
  unfold stop
  refine Quietly.bind quietly_stopTimer fun _ l₁ => ?_
  rw [quietly_self]
  exact Quietly.bind (quietly_wake _ _ _) fun _ _ => quietly_pure _

theorem quietly_await (p : CompilerProcess) : Quietly id (await p) l := by
  unfold await
  rw [quietly_self]
  split
  · split
    · exact quietly_pure _
    · split
      · exact quietly_waitAt _ _
      · exact quietly_ended p
  · split
    · exact quietly_stop p true
    · have hrest : ∀ l', Quietly id (if p.behaviour.hangs then pure (.waits (.running p))
          else if p.behaviour.held then Act.waitAt "compile" (.running p)
          else do
            Act.wake l.current .go 0
            pure (.waits (.running p)) : ServerAct (Step Invocation CompilerReport)) l' := by
        intro l'
        split
        · exact quietly_pure _
        · split
          · exact quietly_waitAt _ _
          · exact Quietly.bind (quietly_wake _ _ _) fun _ _ => quietly_pure _
      rename_i limit _ _
      cases limit.isShort with
      | true =>
          have htimer : Quietly id (Act.modifyState fun s => { s with timers := s.timers ++ [l.current] }) l :=
            .aside rfl rfl rfl rfl rfl rfl rfl rfl
          exact Quietly.bind htimer fun _ l' => hrest l'
      | false => exact hrest l

theorem quietly_start (mirror : Path) (settings : Settings) (entry output : Option Path) :
    Quietly id (start mirror settings entry output) l := by
  unfold start
  rw [quietly_state]
  dsimp only
  split
  · exact quietly_pure _
  · split
    · exact quietly_pure _
    · refine Quietly.bind ?_ fun behaviour l₁ => ?_
      · unfold nextBehaviour
        rw [quietly_state]
        split
        · exact Quietly.bind (.aside rfl rfl rfl rfl rfl rfl rfl rfl) fun _ _ => quietly_pure _
        · exact Quietly.bind (.aside rfl rfl rfl rfl rfl rfl rfl rfl) fun _ _ => quietly_pure _
      · refine Quietly.bind (quietly_note rfl) fun _ l₂ => ?_
        split
        · exact quietly_pure _
        · exact quietly_await _

theorem quietly_resume (state : Invocation) (signal : Signal) : Quietly id (resume state signal) l := by
  unfold resume
  split
  · exact quietly_ended _
  · exact quietly_stop _ _
  · split
    · exact Quietly.bind quietly_stopTimer fun _ _ => quietly_kill _ _
    · exact quietly_stop _ _
  · exact quietly_pure _
  · exact quietly_kill _ _
  · exact quietly_kill _ _
  · exact quietly_reap _ _
  · exact quietly_pure _

end Invocation

/-! ## Requests -/

namespace Compilation

variable {id' : WorkspaceId}

/-- When the compiler has ended the workspace is as ready as it was. -/
theorem alike_settle (w : Workspace) :
    w.Alike (w.enter (if w.state = .compileInFlight then .ready else w.state)) := by
  refine ⟨rfl, fun h => ?_, rfl, rfl⟩
  unfold Workspace.isReady at h ⊢
  dsimp only [Workspace.enter]
  split
  · simpa using (Bool.and_eq_true_iff.mp h).1
  · exact h

theorem quietly_afterInvocation {part : ServerAct (Step Invocation CompilerReport)} (h : Quietly id part l) :
    Quietly id (afterInvocation id' part) l := by
  unfold afterInvocation
  refine Quietly.bind h fun step l₁ => ?_
  split
  · exact quietly_pure _
  · exact Quietly.bind (quietly_updateWorkspace fun w _ => alike_settle w) fun _ _ => quietly_pure _

theorem quietly_invoke (job : CompileJob) (request : CompileRequest) : Quietly id (invoke job request) l := by
  refine quietly_withWorkspace (quietly_pure _) fun w hw => ?_
  refine Quiet.trans (quietly_note (e := .called job.id request w.mirror) rfl) ?_
  change Quietly id _ _
  split
  · exact quietly_pure _
  · rename_i mirror hm
    refine Quietly.bind (quietly_updateWorkspace fun w' hw' => ?_) fun _ l₁ => ?_
    · have hsame : w' = w := Option.some.inj (hw'.symm.trans hw)
      refine ⟨rfl, fun _ => ?_, rfl, rfl⟩
      rw [hsame]
      simp [Workspace.isReady, Workspace.enter, hm]
    · refine Quietly.bind (quietly_note rfl) fun _ l₂ => ?_
      exact quietly_afterInvocation (Invocation.quietly_start _ _ _ _)

/-- A change of a scheduler that admits and accepts nothing. -/
theorem quiet_set (job : CompileJob) (f : Scheduler → Scheduler) (ready : List Wake)
    (hf : ∀ s, (f s).workspace = s.workspace ∧ (f s).latest = s.latest ∧ (f s).accepted = s.accepted) :
    Quiet id l { l with
      state := (invocations job).set (f ((invocations job).get l.state)) l.state, ready } := by
  refine quiet_modify ready fun w hw => ?_
  have hget : (invocations job).get l.state = w.scheduler := schedulerOf_eq hw
  obtain ⟨hworkspace, hlatest, haccepted⟩ := hf w.scheduler
  refine ⟨rfl, fun h => h, ?_, ?_⟩
  · rw [hget]
    show CompileRequest.mk _ _ = CompileRequest.mk _ _
    dsimp only
    rw [hworkspace, hlatest]
  · rw [hget]
    exact haccepted

theorem quietly_update (job : CompileJob) {f : Scheduler → Scheduler}
    (hf : ∀ s, (f s).workspace = s.workspace ∧ (f s).latest = s.latest ∧ (f s).accepted = s.accepted) :
    Quietly id ((invocations job).update f) l := quiet_set job f l.ready hf

theorem quiet_lockPlace (job : CompileJob) (lock : Lock) (ready : List Wake) :
    Quiet id l { l with state := (invocations job).lockPlace.set lock l.state, ready } :=
  quiet_set job (fun s => { s with lock }) ready fun _ => ⟨rfl, rfl, rfl⟩

end Compilation

end InkServer
