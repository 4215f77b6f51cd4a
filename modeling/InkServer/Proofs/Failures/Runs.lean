import InkServer.Proofs.Failures.Operations
import InkServer.Proofs.Server.Runs
import InkServer.Proofs.Workspace.Lifecycle

/-!
# Errors of workspaces stay inside

In a run tasks wait for each other, and a task that fails may take those along that wait for it. Those who are
waited for are initializations, and the failures that they end in are no errors of workspaces. So whatever the
server does for its workspaces and documents, in whichever order, none of it ends in such an error. The one
exception is a request for settings, which fails as the client does, and nobody is harmed by that either.
-/

namespace InkServer

open Failure ServerAct

/-! ## What arrives from outside -/

namespace Reception

theorem harmless_updateClient (f : Client → Client) : Harmless (updateClient f) fun _ => True := harmless_modifyState _

theorem harmless_handle (operation : Operation) : Harmless (handle operation) fun _ => True :=
  (harmless_create operation).bind fun _ _ => harmless_updateClient _

theorem harmless_changeWorkspace (f : ClientWorkspace → Except Failure ClientWorkspace) :
    Harmless (changeWorkspace f) fun _ => True := by
  unfold changeWorkspace
  refine harmless_state.bind fun s _ => ?_
  split
  · exact .pure trivial
  · split
    · exact .pure trivial
    · exact (harmless_updateClient _).bind fun _ _ => .pure trivial

theorem harmless_takeNote (method : String) (params : Value) : Harmless (takeNote method params) fun _ => True := by
  unfold takeNote
  dsimp only
  split
  · exact harmless_changeWorkspace _
  · exact harmless_changeWorkspace _
  · exact harmless_changeWorkspace _
  · exact harmless_changeWorkspace _
  · exact .pure trivial

theorem harmless_invalidateSettings : Harmless invalidateSettings fun _ => True := harmless_modifyState _

theorem harmless_dispatch (method : String) (params : Value) : Harmless (dispatch method params) fun _ => True := by
  unfold dispatch
  refine harmless_state.bind fun s _ => ?_
  split
  · exact harmless_handle _
  · split
    · exact harmless_invalidateSettings
    · exact .pure trivial

theorem harmless_notification (method : String) (params : Value) :
    Harmless (notification method params) fun _ => True := by
  unfold notification
  refine harmless_state.bind fun s _ => ?_
  split
  · exact harmless_updateClient _
  · split
    · refine (harmless_takeNote method params).bind fun r _ => ?_
      split
      · exact harmless_dispatch method params
      · exact harmless_tell _
    · exact .pure trivial

theorem harmless_initialize (id params : Value) : Harmless (initialize_ id params) fun _ => True := by
  unfold initialize_
  split
  · exact harmless_note _
  · exact (harmless_updateClient _).bind fun _ _ => harmless_state.bind fun s _ => harmless_note _

theorem harmless_shutdown (id : Value) : Harmless (shutdown id) fun _ => True := by
  unfold shutdown
  refine harmless_state.bind fun s _ => ?_
  refine Harmless.bind (.forM fun task => harmless_cancel task) fun _ _ => ?_
  refine Harmless.bind (.forM fun r => harmless_cancel r.task) fun _ _ => ?_
  exact (harmless_modifyState _).bind fun _ _ => harmless_note _

theorem harmless_command (id params : Value) : Harmless (command id params) fun _ => True := by
  unfold command
  refine harmless_state.bind fun s _ => ?_
  split
  · exact harmless_handle _
  · exact harmless_note _

theorem harmless_nextRequest (method : String) (params : Value) :
    Harmless (nextRequest method params) fun _ => True := by
  unfold nextRequest request
  refine (harmless_updateClient _).bind fun _ _ => harmless_state.bind fun s _ => harmless_state.bind fun s' _ => ?_
  split
  · split
    · exact harmless_initialize _ _
    · exact harmless_shutdown _
    · exact harmless_command _ _
    · exact harmless_note _
  · exact .pure trivial

theorem harmless_reply (index : Nat) (answer : Except Failure Value) : Harmless (reply index answer) fun _ => True := by
  unfold reply
  refine harmless_state.bind fun s _ => ?_
  dsimp only
  split
  · exact .pure trivial
  · refine (harmless_updateClient _).bind fun _ _ => ?_
    split
    · exact .pure trivial
    · refine (harmless_updateClient _).bind fun _ _ => ?_
      exact (harmless_wake_go _ 0).bind fun _ _ => .pure trivial

end Reception

theorem Invocation.harmless_expireFirst : Harmless expireFirst fun _ => True := by
  have hgates : ∀ g : List (String × TaskId) → List (String × TaskId), Harmless
      (Act.modifyLoop fun l : Loop ServerState Operation => { l with atGates := g l.atGates }) fun _ => True :=
    fun g l => ⟨.of_ready rfl rfl rfl fun _ h => .inl h, trivial⟩
  unfold expireFirst
  refine harmless_state.bind fun s _ => ?_
  split
  · exact .pure trivial
  · refine (harmless_modifyState _).bind fun _ _ => Harmless.bind (hgates _) fun _ _ => ?_
    have hsignal : Signal.timedOut.IsHarmless := trivial
    exact (harmless_wake hsignal _ 1).bind fun _ _ => .pure trivial

theorem harmless_discard {α : Type} {a : ServerAct α} {post : α → Prop} (h : Harmless a post) :
    Harmless (discard a) fun _ => True := fun l => ⟨(h l).1, trivial⟩

theorem External.harmless_act (e : External) : Harmless e.act fun _ => True := by
  cases e with
  | asks operation =>
      show Harmless (if operation.isServed then discard (Act.create operation) else pure ()) fun _ => True
      split
      · exact harmless_discard (harmless_create operation)
      · exact .pure trivial
  | notification method params => exact Reception.harmless_notification method params
  | request method params => exact Reception.harmless_nextRequest method params
  | reply index answer => exact harmless_discard (Reception.harmless_reply index answer)
  | registers folder => exact harmless_discard (JointInitialization.harmless_register folder)
  | closes uri => exact harmless_closeDocument uri
  | invalidates => exact Reception.harmless_invalidateSettings
  | expires => exact harmless_discard Invocation.harmless_expireFirst
  | adjusts other => exact harmless_modifyState _
  | foreign f => exact harmless_modifyState _

/-! ## Tasks -/

/-- What the server does for its workspaces and documents: everything but asking for settings and handling
messages. -/
def Operation.isForWorkspaces : Operation → Bool
  | .fetchSettings _ | .notification _ _ | .request _ _ _ => false
  | operation => operation.isServed

/-- Where such an operation waits. -/
def Waiting.isForWorkspaces : Waiting → Bool
  | .initializing _ | .initializingAll _ | .removing _ | .shuttingDown _ | .stopping _ | .updating _ | .editing _
  | .copyingAll _ | .compilingTarget _ | .compiling _ | .changingFolders _ | .lookingUp _ => true
  | _ => false

def Suspended.isForWorkspaces : Suspended Operation Waiting → Bool
  | .created operation => operation.isForWorkspaces
  | .waiting state => state.isForWorkspaces

/-- How far an operation for workspaces gets: it waits as one, or it ends in no error of workspaces. -/
def StaysInside : Step Waiting Result → Prop
  | .waits state => state.isForWorkspaces
  | .ends r => Fails IsOther r

namespace Waiting

variable {τ α : Type} {P : Failure → Prop} {part : ServerAct (Step τ α)} {wrap : τ → Waiting} {f : α → Result}

theorem harmless_ending (h : Harmless part (Ends P)) : Harmless (ending part wrap f) fun _ => True :=
  (h.andThen fun _ => .done).any

theorem inside_ending (h : Harmless part (Ends IsOther)) (hw : ∀ state, (wrap state).isForWorkspaces) :
    Harmless (ending part wrap f) StaysInside := by
  unfold ending Act.andThen Act.afterwards
  refine h.bind fun step hstep => ?_
  cases step with
  | waits state => exact .pure (hw state)
  | ends r =>
      cases r with
      | ok a => exact .pure (Fails.ok _)
      | error e => exact .pure (Fails.error (hstep e rfl))

theorem inside_fail {e : Failure} (h : e.IsOther) : Harmless (pure (.fail e)) StaysInside := .pure (Fails.error h)

theorem inside_withLast (uri : String) {next : WorkspaceId → ServerAct (Step Waiting Result)}
    (h : ∀ id, Harmless (next id) StaysInside) : Harmless (withLast uri next) StaysInside := by
  unfold withLast
  refine harmless_state.bind fun s _ => ?_
  split
  · exact h _
  · exact inside_fail rfl

theorem inside_add (folder : Folder) : Harmless (add folder) StaysInside := by
  unfold add
  refine (JointInitialization.harmless_register folder).bind fun r hr => ?_
  split
  · exact inside_fail (hr _ rfl)
  · exact inside_ending (Initialization.harmless_start _) fun _ => rfl

theorem inside_afterStopping {part : ServerAct (Step Shutdown Unit)} (h : Harmless part (Ends IsOther)) :
    Harmless (afterStopping part) StaysInside := by
  unfold afterStopping Act.afterwards
  refine h.bind fun step _ => ?_
  cases step with
  | waits state => exact .pure rfl
  | ends r =>
      dsimp only
      split
      · exact inside_fail rfl
      · exact .pure (Fails.ok _)

theorem inside_begin {operation : Operation} (h : operation.isForWorkspaces) :
    Harmless (begin operation) StaysInside := by
  cases operation with
  | createMirror | overlay | writeDocument | copyCreated | deleteMirror | invoke | fetchSettings | notification
  | request => cases h
  | resolveSettings uri => exact inside_ending (SettingsLookup.harmless_start uri) fun _ => rfl
  | add folder => exact inside_add folder
  | initialize_ id => exact inside_ending (Initialization.harmless_start id) fun _ => rfl
  | initializeLast uri =>
      exact inside_withLast uri fun id => inside_ending (Initialization.harmless_start id) fun _ => rfl
  | initializeAll folders => exact inside_ending (JointInitialization.harmless_start folders) fun _ => rfl
  | remove uri => exact inside_ending (Removal.harmless_start uri) fun _ => rfl
  | shutdown => exact inside_ending Shutdown.harmless_start fun _ => rfl
  | stop => exact (harmless_modifyState _).bind fun _ _ => inside_afterStopping Shutdown.harmless_start
  | update document => exact inside_ending (Applying.harmless_start document) fun _ => rfl
  | edit document => exact inside_ending (Edit.harmless_start document) fun _ => rfl
  | copyAllCreated paths => exact inside_ending (CreatedFiles.harmless_copyAll {} paths) fun _ => rfl
  | compileTarget target => exact inside_ending (TargetCompile.harmless_start target) fun _ => rfl
  | compile uri settings entry =>
      exact inside_withLast uri fun id => inside_ending (Compilation.harmless_start id settings entry) fun _ => rfl
  | didOpen document => exact inside_ending (DocumentService.harmless_opened document) fun _ => rfl
  | didChange uri version texts =>
      exact inside_ending (DocumentService.harmless_changed uri version texts) fun _ => rfl
  | didSave uri text => exact inside_ending (DocumentService.harmless_saved uri text) fun _ => rfl
  | changeFolders added removed => exact inside_ending (FolderChange.harmless_start removed added) fun _ => rfl
  | watchFiles changes => exact inside_ending (CreatedFiles.harmless_copyAll {} _) fun _ => rfl

theorem inside_resume {state : Waiting} (h : state.isForWorkspaces) {signal : Signal} (hs : signal.IsHarmless) :
    Harmless (resume state signal) StaysInside := by
  cases state with
  | creatingMirror | overlaying | writing | copying | deletingMirror | fetching | invoking | handling => cases h
  | lookingUp state => exact inside_ending (SettingsLookup.harmless_resume state signal) fun _ => rfl
  | initializing state => exact inside_ending (Initialization.harmless_resume state signal) fun _ => rfl
  | initializingAll state => exact inside_ending (JointInitialization.harmless_resume state hs) fun _ => rfl
  | removing state => exact inside_ending (Removal.harmless_resume state signal) fun _ => rfl
  | shuttingDown state => exact inside_ending (Shutdown.harmless_resume state signal) fun _ => rfl
  | stopping state => exact inside_afterStopping (Shutdown.harmless_resume state signal)
  | updating state => exact inside_ending (Applying.harmless_resume state hs) fun _ => rfl
  | editing state => exact inside_ending (Edit.harmless_resume state hs) fun _ => rfl
  | copyingAll state => exact inside_ending (CreatedFiles.harmless_resume state signal) fun _ => rfl
  | compilingTarget state => exact inside_ending (TargetCompile.harmless_resume state hs) fun _ => rfl
  | compiling state => exact inside_ending (Compilation.harmless_resume state signal) fun _ => rfl
  | changingFolders state => exact inside_ending (FolderChange.harmless_resume state hs) fun _ => rfl

/-! ### Mirrors on their own, settings and messages -/

theorem harmless_createMirror (root : Path) : Harmless (createMirror root) (Ends fun _ => True) := by
  unfold createMirror keep
  refine (Initialization.harmless_makeMirror root).bind fun r _ => ?_
  split
  · exact .fail trivial
  · refine Harmless.bind (harmless_state.bind fun s _ => harmless_setState _) fun _ _ => ?_
    exact (harmless_index _).bind fun _ _ => .done

theorem harmless_overlay (id : WorkspaceId) (m : Mirror) (documents : List (Path × ByteArray)) :
    Harmless (overlay id m documents) (Ends fun _ => True) := by
  unfold overlay
  refine .withWorkspace (.fail trivial) fun w => ?_
  refine (harmless_onDisk (Mirror.failing_overlay m w.root documents)).bind fun r _ => ?_
  split
  · exact .fail trivial
  · exact (harmless_record m _).bind fun _ _ => .done

theorem harmless_overlayAll (documents : List (Path × ByteArray)) (id : WorkspaceId) :
    Harmless (overlayAll documents id) fun _ => True := by
  unfold overlayAll
  refine .withWorkspace (.pure trivial) fun w => harmless_state.bind fun s _ => ?_
  dsimp only
  split
  · exact .pure trivial
  · exact .pure trivial
  · exact (Harmless.through (harmless_overlay id _ _)).any

theorem harmless_deleteMirror (m : Mirror) : Harmless (deleteMirror m) (Ends fun _ => True) :=
  (Initialization.harmless_delete m).bind fun _ _ => .done

theorem harmless_deleteAt (number : Nat) : Harmless (deleteAt number) fun _ => True := by
  unfold deleteAt mirrorAt?
  refine Harmless.bind (harmless_state.bind fun s _ => .pure trivial) fun m? (_ : True) => ?_
  split
  · exact (Harmless.through (harmless_deleteMirror _)).any
  · exact .pure trivial

theorem harmless_withKept (root : Path) {next : WorkspaceId → ServerAct (Step Waiting Result)}
    (h : ∀ id, Harmless (next id) fun _ => True) : Harmless (withKept root next) fun _ => True := by
  unfold withKept
  refine harmless_state.bind fun s _ => ?_
  split
  · exact h _
  · exact .pure trivial

theorem ends_true {τ α : Type} (step : Step τ α) : Ends (fun _ => True) step := by
  cases step with
  | waits => trivial
  | ends r => exact fun _ _ => trivial

theorem harmless_settings {part : ServerAct (Step SettingsRequest Settings)} (h : Harmless part fun _ => True) :
    Harmless (ending part .fetching .settings) fun _ => True :=
  harmless_ending (h.mono fun step _ => ends_true step)

/-- Nobody is harmed by what begins, whatever it is. -/
theorem harmless_begin (operation : Operation) : Harmless (begin operation) fun _ => True := by
  by_cases ho : operation.isForWorkspaces
  · exact (inside_begin ho).any
  · cases operation with
    | createMirror root => exact (Harmless.through (harmless_createMirror root)).any
    | overlay root documents => exact harmless_withKept root fun id => harmless_overlayAll documents id
    | writeDocument root path content =>
        exact harmless_withKept root fun id => harmless_ending (DocumentWrite.harmless_start id path content)
    | copyCreated root path =>
        exact harmless_withKept root fun id => harmless_ending (CreatedCopy.harmless_start id path)
    | deleteMirror number => exact harmless_deleteAt number
    | fetchSettings uri => exact harmless_settings (SettingsRequest.harmless_start uri .go)
    | invoke mirror settings entry output => exact harmless_ending (Invocation.harmless_start _ _ _ _)
    | notification method params => exact harmless_ending (Handling.harmless_notification method params)
    | request id method params => exact harmless_ending (Handling.harmless_request id params)
    | _ => exact absurd rfl ho

theorem harmless_onGo (signal : Signal) {next : ServerAct (Step Waiting Result)}
    (h : Harmless next (Ends fun _ => True)) : Harmless (onGo signal next) fun _ => True := by
  unfold onGo
  split
  · exact h.any
  · exact .pure trivial

/-- Nobody is harmed by what goes on after a harmless signal. -/
theorem harmless_resume (state : Waiting) {signal : Signal} (hs : signal.IsHarmless) :
    Harmless (resume state signal) fun _ => True := by
  by_cases hw : state.isForWorkspaces
  · exact (inside_resume hw hs).any
  · cases state with
    | creatingMirror root => exact harmless_onGo signal (harmless_createMirror root)
    | overlaying id m documents => exact harmless_onGo signal (harmless_overlay id m documents)
    | writing state => exact harmless_ending (DocumentWrite.harmless_resume state signal)
    | copying state => exact harmless_ending (CreatedCopy.harmless_resume state signal)
    | deletingMirror m => exact harmless_onGo signal (harmless_deleteMirror m)
    | fetching state => exact harmless_settings (SettingsRequest.harmless_resume state signal)
    | invoking state => exact harmless_ending (Invocation.harmless_resume state signal)
    | handling state =>
        exact harmless_ending ((Handling.harmless_resume state hs).mono fun step _ => ends_true step)
    | _ => exact absurd rfl hw

end Waiting

theorem harmless_goesOn (x : Suspended Operation Waiting) {signal : Signal} (hs : signal.IsHarmless) :
    Harmless (serverMachine.goesOn signal x) fun _ => True := by
  cases x with
  | created operation =>
      show Harmless (Waiting.start operation signal) fun _ => True
      unfold Waiting.start
      split
      · exact Waiting.harmless_begin _
      · exact Waiting.harmless_settings (SettingsRequest.harmless_start _ _)
      · exact .pure trivial
  | waiting state => exact Waiting.harmless_resume state hs

theorem inside_goesOn {x : Suspended Operation Waiting} (hx : x.isForWorkspaces) {signal : Signal}
    (hs : signal.IsHarmless) : Harmless (serverMachine.goesOn signal x) StaysInside := by
  cases x with
  | created operation =>
      show Harmless (Waiting.start operation signal) StaysInside
      unfold Waiting.start
      split
      · exact Waiting.inside_begin hx
      · cases hx
      · exact Waiting.inside_fail rfl
  | waiting state => exact Waiting.inside_resume hx hs

/-! ## Sessions -/

namespace Server

variable {s : Server} {l : Loop ServerState Operation} {task : TaskId}

/-- What a task does is for workspaces, as long as it is there, and it has not ended in an error of
workspaces. -/
structure IsInside (s : Server) (task : TaskId) : Prop where
  lt : task < s.loop.nextTask
  tasks : ∀ x, (task, x) ∈ s.tasks → x.isForWorkspaces
  ended : ∀ r, (task, r) ∈ s.ended → Fails IsOther r

/-- Nobody is on the way to hear of an error of workspaces: no wake-up brings one, and no task that others wait
for can end in one. -/
structure Contains (s : Server) : Prop where
  created : s.loop.created = []
  tasks : ∀ t ∈ s.tasks, t.1 < s.loop.nextTask
  ended : ∀ t ∈ s.ended, t.1 < s.loop.nextTask
  ready : ∀ w ∈ s.loop.ready, w.signal.IsHarmless
  children : ∀ g ∈ s.loop.gatherings, ∀ child ∈ g.children, IsInside s child

theorem contains_ofState (s : ServerState) : Contains (Session.ofState s) :=
  ⟨rfl, fun _ h => absurd h List.not_mem_nil, fun _ h => absurd h List.not_mem_nil,
    fun _ h => absurd h List.not_mem_nil, fun _ h => absurd h List.not_mem_nil⟩

/-- An initialization is for workspaces. -/
theorem isForWorkspaces_of_isInitialization {operation : Operation} (h : operation.IsInitialization) :
    operation.isForWorkspaces := by
  cases operation with
  | initialize_ id => rfl
  | _ => cases h

/-- What the tasks share changes without harm, and nothing but that. -/
theorem Contains.adopt {tasks : List (TaskId × Suspended Operation Waiting)} (h : Contains s)
    (hl : Unharmed s.loop l) (ht : ∀ t ∈ tasks, t ∈ s.tasks) :
    Contains ({ s with loop := l, tasks } : Server).adopt ∧
      ∀ task, IsInside s task → IsInside ({ s with loop := l, tasks } : Server).adopt task := by
  have hcreated : ∀ c ∈ l.created, s.loop.nextTask ≤ c.1 ∧ c.1 < l.nextTask := fun c hc => by
    rcases hl.created c hc with hc | hc
    · rw [h.created] at hc
      cases hc
    · exact hc
  have hinside : ∀ task, IsInside s task → IsInside ({ s with loop := l, tasks } : Server).adopt task := by
    intro task hi
    refine ⟨Nat.lt_of_lt_of_le hi.lt hl.nextTask, fun x hx => ?_, hi.ended⟩
    rcases List.mem_append.mp hx with hx | hx
    · exact hi.tasks x (ht _ hx)
    · obtain ⟨c, hc, he⟩ := List.mem_map.mp hx
      cases he
      exact absurd hi.lt (Nat.not_lt.mpr (hcreated c hc).1)
  refine ⟨⟨rfl, fun t hm => ?_, fun t hm => Nat.lt_of_lt_of_le (h.ended t hm) hl.nextTask, fun w hw => ?_,
    fun g hg child hchild => ?_⟩, hinside⟩
  · rcases List.mem_append.mp hm with hm | hm
    · exact Nat.lt_of_lt_of_le (h.tasks t (ht _ hm)) hl.nextTask
    · obtain ⟨c, hc, rfl⟩ := List.mem_map.mp hm
      exact (hcreated c hc).2
  · exact (hl.ready w hw).elim (h.ready w) fun h => h
  · rcases hl.gatherings g hg with hg | hnew
    · exact hinside child (h.children g hg child hchild)
    · -- New tasks that somebody waits for have just been created, to initialize workspaces.
      obtain ⟨hle, hlt, ho⟩ := hnew child hchild
      refine ⟨hlt, fun x hx => ?_, fun r hr => absurd (h.ended _ hr) (Nat.not_lt.mpr hle)⟩
      rcases List.mem_append.mp hx with hx | hx
      · exact absurd (h.tasks _ (ht _ hx)) (Nat.not_lt.mpr hle)
      · obtain ⟨c, hc, he⟩ := List.mem_map.mp hx
        cases he
        rcases ho _ hc with hc | ho
        · rw [h.created] at hc
          cases hc
        · exact isForWorkspaces_of_isInitialization ho

theorem Contains.act {α : Type} {a : ServerAct α} {post : α → Prop} (h : Contains s) (ha : Harmless a post) :
    Contains (s.act a).2 ∧ ∀ task, IsInside s task → IsInside (s.act a).2 task := by
  rw [Session.act_eq]
  exact h.adopt (ha s.loop).1 fun _ h => h

/-- Those who wait for a task hear of no error of workspaces when it has ended. -/
theorem signal_of_noteEnd {g : Gathering} {child : TaskId} {failure : Option Failure} {signal : Signal}
    (h : (Act.Gathering.noteEnd g child failure).2 = some signal)
    (hf : child ∈ g.children → ∀ f ∈ failure, f.IsOther) : signal.IsHarmless := by
  unfold Act.Gathering.noteEnd at h
  split at h
  · rename_i hchild
    dsimp only at h
    split at h
    · split at h
      · cases h
      · cases h
        exact hf hchild _ rfl
    · split at h
      · cases h
        trivial
      · cases h
  · cases h

theorem children_noteEnd (g : Gathering) (child : TaskId) (failure : Option Failure) :
    (Act.Gathering.noteEnd g child failure).1.children ⊆ g.children := by
  have hfilter : g.children.filter (· ≠ child) ⊆ g.children := List.filter_subset_self _
  unfold Act.Gathering.noteEnd
  split
  · dsimp only
    split
    · split <;> exact hfilter
    · split <;> exact hfilter
  · exact List.Subset.refl _

theorem mem_ready_noteEnd {child : TaskId} {failure : Option Failure} {w : Wake}
    (h : w ∈ ((Act.noteEnd child failure : ServerAct Unit).leaves l).ready) :
    w ∈ l.ready ∨ ∃ g ∈ l.gatherings, (Act.Gathering.noteEnd g child failure).2 = some w.signal := by
  rcases List.mem_append.mp h with h | h
  · exact .inl h
  · obtain ⟨told, htold, h⟩ := List.mem_filterMap.mp h
    obtain ⟨g, hg, rfl⟩ := List.mem_map.mp htold
    obtain ⟨signal, hsignal, rfl⟩ := Option.map_eq_some_iff.mp h
    exact .inr ⟨g, hg, hsignal⟩

theorem mem_gatherings_noteEnd {child : TaskId} {failure : Option Failure} {g : Gathering}
    (h : g ∈ ((Act.noteEnd child failure : ServerAct Unit).leaves l).gatherings) :
    ∃ g' ∈ l.gatherings, (Act.Gathering.noteEnd g' child failure).1 = g := by
  obtain ⟨told, htold, rfl⟩ := List.mem_map.mp (List.mem_filter.mp h).1
  obtain ⟨g', hg', rfl⟩ := List.mem_map.mp htold
  exact ⟨g', hg', rfl⟩

theorem failure?_eq_some {r : Except Failure Result} {f : Failure} : Session.failure? r = some f ↔ r = .error f := by
  cases r <;> simp [Session.failure?]

/-- A task goes on to its next wait or to its end. -/
theorem Contains.wentOn {step : Step Waiting Result} (h : Contains s) (ht : task < s.loop.nextTask)
    (hl : Unharmed s.loop l) (hstep : IsInside s task → StaysInside step) :
    Contains (s.wentOn task step l) ∧ ∀ other, IsInside s other → IsInside (s.wentOn task step l) other := by
  obtain ⟨hadopt, hinside⟩ := h.adopt hl fun t hm => (Session.mem_without.mp hm).1
  have hlt : task < l.nextTask := Nat.lt_of_lt_of_le ht hl.nextTask
  -- Nobody begins to wait for the task now that did not before, as it is not new.
  have hwaited : ∀ g ∈ l.gatherings, task ∈ g.children → IsInside s task := fun g hg hm => by
    rcases hl.gatherings g hg with hg | hnew
    · exact h.children g hg task hm
    · exact absurd ht (Nat.not_lt.mpr (hnew task hm).1)
  cases step with
  | waits state =>
      have hfiled : ∀ other, IsInside ({ s with loop := l, tasks := s.without task } : Server).adopt other →
          (other = task → IsInside s task) → IsInside (s.wentOn task (.waits state) l) other := by
        intro other hother hsame
        refine ⟨hother.lt, fun x hx => ?_, hother.ended⟩
        rcases List.mem_append.mp hx with hx | hx
        · exact hother.tasks x hx
        · cases List.mem_singleton.mp hx
          exact hstep (hsame rfl)
      refine ⟨⟨rfl, fun t hm => ?_, hadopt.ended, hadopt.ready, fun g hg child hchild => ?_⟩, fun other hother =>
        hfiled other (hinside other hother) fun he => he ▸ hother⟩
      · rcases List.mem_append.mp hm with hm | hm
        · exact hadopt.tasks t hm
        · rw [List.mem_singleton.mp hm]
          exact hlt
      · exact hfiled child (hadopt.children g hg child hchild) fun he => hwaited g hg (he ▸ hchild)
  | ends r =>
      have hends : s.wentOn task (.ends r) l = _ :=
        Session.file_ends (s := ({ s with loop := l, tasks := s.without task } : Server).adopt) rfl task r
      have hfiled : ∀ other, IsInside ({ s with loop := l, tasks := s.without task } : Server).adopt other →
          (other = task → IsInside s task) → IsInside (s.wentOn task (.ends r) l) other := by
        intro other hother hsame
        rw [hends]
        refine ⟨hother.lt, hother.tasks, fun r' hr' => ?_⟩
        rcases List.mem_append.mp hr' with hr' | hr'
        · exact hother.ended r' hr'
        · cases List.mem_singleton.mp hr'
          exact hstep (hsame rfl)
      refine ⟨?_, fun other hother => hfiled other (hinside other hother) fun he => he ▸ hother⟩
      refine ⟨rfl, hends ▸ hadopt.tasks, fun t hm => ?_, fun w hw => ?_, fun g hg child hchild => ?_⟩
      · rcases List.mem_append.mp hm with hm | hm
        · exact hadopt.ended t hm
        · rw [List.mem_singleton.mp hm]
          exact hlt
      · rw [hends] at hw
        rcases mem_ready_noteEnd hw with hw | ⟨g, hg, hw⟩
        · exact hadopt.ready w hw
        · refine signal_of_noteEnd hw fun hchild f hf => ?_
          exact hstep (hwaited g hg hchild) f (failure?_eq_some.mp hf)
      · rw [hends] at hg
        obtain ⟨g', hg', rfl⟩ := mem_gatherings_noteEnd hg
        have hchild' := children_noteEnd g' task (Session.failure? r) hchild
        exact hfiled child (hadopt.children g' hg' child hchild') fun he => hwaited g' hg' (he ▸ hchild')

/-! ## Runs -/

/-- A move that lets nobody through a gate with an error of workspaces; at gates nothing fails. -/
def IsHarmlessMove : Session.Move External → Prop
  | .passes _ signal => signal.IsHarmless
  | _ => True

/-- What the next task does on its turn stays inside. -/
theorem Contains.turn {outside : External → ServerAct Unit} (h : Contains s) :
    Contains (s.advance serverMachine outside .turn) ∧
      ∀ task, IsInside s task → IsInside (s.advance serverMachine outside .turn) task := by
  have hready : ∀ ready : List Wake, (∀ w ∈ ready, w.signal.IsHarmless) →
      Contains { s with loop := { s.loop with ready } } ∧
        ∀ task, IsInside s task → IsInside { s with loop := { s.loop with ready } } task := fun ready hw =>
    ⟨⟨h.created, h.tasks, h.ended, hw, fun g hg child hchild =>
      ⟨(h.children g hg child hchild).lt, (h.children g hg child hchild).tasks, (h.children g hg child hchild).ended⟩⟩,
      fun _ hi => ⟨hi.lt, hi.tasks, hi.ended⟩⟩
  refine Session.turn_keeps
    (p := fun s' => Contains s' ∧ ∀ task, IsInside s task → IsInside s' task) ⟨h, fun _ hi => hi⟩
    (fun w rest n hr => hready _ fun w' hw' => ?_) (fun w rest hr _ => hready _ fun w' hw' => ?_)
    fun w rest x hr hx => ?_
  · rcases List.mem_append.mp hw' with hw' | hw'
    · exact h.ready w' (hr ▸ List.mem_cons_of_mem _ hw')
    · rw [List.mem_singleton.mp hw']
      exact h.ready w (hr ▸ List.mem_cons_self)
  · exact h.ready w' (hr ▸ List.mem_cons_of_mem _ hw')
  · obtain ⟨hrest, hcarries⟩ := hready rest fun w' hw' => h.ready w' (hr ▸ List.mem_cons_of_mem _ hw')
    have hsignal : w.signal.IsHarmless := h.ready w (hr ▸ List.mem_cons_self)
    have hmem := Session.mem_of_task? hx
    let begun : Server := { s with loop := { s.loop with ready := rest } }
    let l : Loop ServerState Operation := { begun.loop with current := w.task }
    let act := serverMachine.goesOn w.signal x
    have hcurrent : Unharmed begun.loop l := .of_ready rfl rfl rfl fun _ h => .inl h
    have hgone : Unharmed l (act.leaves l) := (harmless_goesOn x hsignal l).1
    have hwent : ∀ step, act.returns l = step → Contains (begun.wentOn w.task step (act.leaves l)) ∧
        ∀ task, IsInside s task → IsInside (begun.wentOn w.task step (act.leaves l)) task := by
      intro step hstep
      have hstays : IsInside begun w.task → StaysInside step := fun hi =>
        hstep ▸ (inside_goesOn (hi.tasks x hmem) hsignal l).2
      obtain ⟨hcontains, hinside⟩ := hrest.wentOn (h.tasks _ hmem) (hcurrent.trans hgone) hstays
      exact ⟨hcontains, fun task hi => hinside task (hcarries task hi)⟩
    refine Session.run_of_reaches
      (p := fun s' => Contains s' ∧ ∀ task, IsInside s task → IsInside s' task) hx ?_
    unfold Act.Reaches
    split
    · rename_i state hstate
      exact hwent _ hstate
    · rename_i r hr
      exact hwent _ hr

/-- Every move keeps errors of workspaces inside. -/
theorem Contains.advance (h : Contains s) {move : Session.Move External} (hm : IsHarmlessMove move) :
    Contains (s.advance serverMachine External.act move) ∧
      ∀ task, IsInside s task → IsInside (s.advance serverMachine External.act move) task := by
  have hquiet : ∀ a : ServerAct Unit, (∀ l, Unharmed l (a.leaves l)) →
      Contains (s.act a).2 ∧ ∀ task, IsInside s task → IsInside (s.act a).2 task :=
    fun a ha => by
      have hharmless : Harmless a fun _ => True := fun l => ⟨ha l, trivial⟩
      exact h.act hharmless
  cases move with
  | turn => exact h.turn
  | cancels task =>
      show Contains (s.cancel task).2 ∧ ∀ other, IsInside s other → IsInside (s.cancel task).2 other
      unfold Session.cancel
      split
      · exact h.act (harmless_cancel task)
      · exact ⟨h, fun _ hi => hi⟩
  | passes task signal =>
      refine hquiet (Act.pass task signal) fun l => ?_
      unfold Act.pass
      rw [Act.leaves_modify]
      split
      · refine .of_ready rfl rfl rfl fun w hw => ?_
        rcases List.mem_append.mp hw with hw | hw
        · exact .inl hw
        · rw [List.mem_singleton.mp hw]
          exact .inr hm
      · exact .refl l
  | closes gate => exact hquiet (Act.close gate) fun l => .of_ready rfl rfl rfl fun _ h => .inl h
  | opens gate => exact hquiet (Act.open_ gate) fun l => .of_ready rfl rfl rfl fun _ h => .inl h
  | outside e => exact h.act e.harmless_act

/-- However a run goes, errors of workspaces stay inside. -/
theorem Contains.after (h : Contains s) {moves : List (Session.Move External)}
    (hm : ∀ move ∈ moves, IsHarmlessMove move) :
    Contains (s.after serverMachine External.act moves) ∧
      ∀ task, IsInside s task → IsInside (s.after serverMachine External.act moves) task := by
  induction moves generalizing s with
  | nil => exact ⟨h, fun _ hi => hi⟩
  | cons move rest ih =>
      obtain ⟨hmove, hcarries⟩ := h.advance (hm move List.mem_cons_self)
      obtain ⟨hrest, hcarries'⟩ := ih hmove fun move hmem => hm move (List.mem_cons_of_mem _ hmem)
      exact ⟨hrest, fun task hi => hcarries' task (hcarries task hi)⟩

/-- What the server is asked to do for its workspaces is inside from the first. -/
theorem Contains.inside_asked {operation : Operation} (h : Contains s) (ho : operation.isForWorkspaces) :
    IsInside (s.advance serverMachine External.act (.outside (.asks operation))) s.loop.nextTask := by
  have hserved : operation.isServed := by
    cases operation <;> first | rfl | cases ho
  have hact : External.act (.asks operation) = discard (Act.create operation) := if_pos hserved
  show IsInside (s.act (External.act (.asks operation))).2 _
  rw [hact]
  refine ⟨Nat.lt_succ_self _, fun x hx => ?_, fun r hr => absurd (h.ended _ hr) (Nat.lt_irrefl _)⟩
  rcases List.mem_append.mp hx with hx | hx
  · exact absurd (h.tasks _ hx) (Nat.lt_irrefl _)
  · obtain ⟨c, hc, he⟩ := List.mem_map.mp hx
    rcases List.mem_append.mp hc with hc | hc
    · rw [h.created] at hc
      cases hc
    · cases List.mem_singleton.mp hc
      cases he
      exact ho

theorem mem_ended_of_result? {r : Except Failure Result} (h : s.result? task = some r) : (task, r) ∈ s.ended := by
  unfold Session.result? at h
  obtain ⟨⟨t, r'⟩, ht, rfl⟩ := Option.map_eq_some_iff.mp h
  have heq := List.find?_some ht
  simp only [decide_eq_true_eq] at heq
  subst heq
  exact List.mem_of_find?_eq_some ht

/-- Whatever the server does for its workspaces and documents, in whichever order and whatever becomes of its
files and compilers: registering a folder fails with no error of workspaces, and nothing else that the server is
asked to do for them ends in one. -/
theorem no_workspace_error_escapes {s : ServerState} {before after : List (Session.Move External)}
    {operation : Operation} (ho : operation.isForWorkspaces)
    (hm : ∀ move ∈ before ++ after, IsHarmlessMove move) :
    (∀ folder f, (JointInitialization.register folder).returns (run s before).loop = .error f →
      f.isWorkspaceError = false) ∧
    ∀ f, (run s (before ++ .outside (.asks operation) :: after)).result? (run s before).loop.nextTask =
      some (.error f) → f.isWorkspaceError = false := by
  refine ⟨fun folder f hf => (JointInitialization.harmless_register folder _).2 f hf, fun f hf => ?_⟩
  obtain ⟨hbefore, -⟩ := (contains_ofState s).after fun move hmem => hm move (List.mem_append_left _ hmem)
  have hmove : IsHarmlessMove (.outside (.asks operation)) := trivial
  obtain ⟨hasked, -⟩ := hbefore.advance hmove
  obtain ⟨-, hcarries⟩ := hasked.after fun move hmem => hm move (List.mem_append_right _ hmem)
  have hinside := hcarries _ (hbefore.inside_asked ho)
  unfold run at hf
  rw [Session.after_append, Session.after_cons] at hf
  exact hinside.ended _ (mem_ended_of_result? hf) f rfl

/-- An edit whose document cannot be written into the mirror ends, and in no such error. -/
theorem no_workspace_error_escapes_blocked :
    let before := openingFolder ++ [.outside (.foreign (.blocks (some "No space left on device")))]
    let edit : Operation := .edit (sampleDocument 1 "One.")
    let s := run (sample []) (before ++ .outside (.asks edit) :: [.turn])
    (s.result? (run (sample []) before).loop.nextTask).isSome ∧
      (∀ folder f, (JointInitialization.register folder).returns (run (sample []) before).loop = .error f →
        f.isWorkspaceError = false) ∧
      ∀ f, s.result? (run (sample []) before).loop.nextTask = some (.error f) → f.isWorkspaceError = false :=
  ⟨by decide +kernel, no_workspace_error_escapes rfl (by simp [openingFolder, IsHarmlessMove])⟩

end Server

end InkServer
