import InkServer.Proofs.Server.Compiles
import InkServer.Server.Machine

/-!
# How the operations of the server go

Edits, commands, folders and messages are made of the operations on workspaces, and so is everything that
the server is asked to do.
-/

namespace InkServer

open ServerState ServerAct

variable {l : Loop ServerState Operation}

/-! ## Edits -/

namespace Edit

/-- What an edit that waits was given. -/
def Fits : Edit → ServerState → Prop
  | .applying _ state, s => state.Fits s
  | .configuring _ _, _ => True
  | .compiling state, s => state.Fits s

theorem Fits.later {state : Edit} {s s' : ServerState} (h : state.Fits s) (hl : s.Later s') :
    state.Fits s' := by
  cases state with
  | applying => exact Applying.Fits.later h hl
  | configuring => trivial
  | compiling => exact Compilation.Fits.later h hl

theorem proceeds_afterCompiling {part : ServerAct (Step Compilation CompileSummary)}
    (h : Proceeds part l (Waits Compilation.Fits)) : Proceeds (afterCompiling part) l (Waits Fits) :=
  h.andThen (fun _ _ h => h) fun _ _ _ => .ends

theorem proceeds_afterConfiguring (id : WorkspaceId) {part : ServerAct (Step SettingsLookup Settings)}
    (h : Proceeds part l (Waits Bare)) : Proceeds (afterConfiguring id part) l (Waits Fits) :=
  h.andThen (fun _ _ _ => trivial) fun _ _ _ =>
    proceeds_afterCompiling (Compilation.proceeds_start id _ none)

theorem proceeds_afterApplying (document : OpenDocument) {part : ServerAct (Step Applying Applied)}
    (h : Proceeds part l (Waits Applying.Fits)) :
    Proceeds (afterApplying document part) l (Waits Fits) := by
  refine h.andThen (fun _ _ h => h) fun a l₁ _ => ?_
  split
  · exact proceeds_afterConfiguring _ (SettingsLookup.proceeds_start document.uri)
  · exact .ends

theorem proceeds_start (document : OpenDocument) : Proceeds (start document) l (Waits Fits) :=
  proceeds_afterApplying document (Applying.proceeds_start document)

theorem proceeds_resume {state : Edit} (h : state.Fits l.state) (signal : Signal) :
    Proceeds (resume state signal) l (Waits Fits) := by
  unfold resume
  split
  · exact proceeds_afterApplying _ (Applying.proceeds_resume h signal)
  · exact proceeds_afterConfiguring _ (SettingsLookup.proceeds_resume _ signal)
  · exact proceeds_afterCompiling (Compilation.proceeds_resume h signal)

end Edit

/-! ## Commands -/

namespace TargetCompile

/-- What the compile of a target that waits was given. -/
def Fits : TargetCompile → ServerState → Prop
  | .restoring _, _ | .choosing _ _, _ | .locating _ _, _ | .configuring _ _ _, _ => True
  | .applying _ state, s => state.Fits s
  | .preparing _ _ state, s => state.Fits s
  | .compiling state, s => state.Fits s

theorem Fits.later {state : TargetCompile} {s s' : ServerState} (h : state.Fits s) (hl : s.Later s') :
    state.Fits s' := by
  cases state with
  | restoring | choosing | locating | configuring => trivial
  | applying => exact Applying.Fits.later h hl
  | preparing => exact Initialization.Fits.later h hl
  | compiling => exact Compilation.Fits.later h hl

theorem proceeds_afterCompiling {part : ServerAct (Step Compilation CompileSummary)}
    (h : Proceeds part l (Waits Compilation.Fits)) : Proceeds (afterCompiling part) l (Waits Fits) :=
  h.andThen (fun _ _ h => h) fun _ _ _ => .ends

theorem proceeds_afterConfiguring (id : WorkspaceId) (entry : Option Path)
    {part : ServerAct (Step SettingsLookup Settings)} (h : Proceeds part l (Waits Bare)) :
    Proceeds (afterConfiguring id entry part) l (Waits Fits) :=
  h.andThen (fun _ _ _ => trivial) fun _ _ _ =>
    proceeds_afterCompiling (Compilation.proceeds_start id _ entry)

theorem proceeds_compile (uri : String) (id : WorkspaceId) :
    Proceeds (compile uri id) l (Waits Fits) := by
  unfold compile
  split
  · exact .ends
  · exact proceeds_afterConfiguring id _ (SettingsLookup.proceeds_start uri)

theorem proceeds_afterPreparing (uri : String) (id : WorkspaceId)
    {part : ServerAct (Step Initialization Bool)} (h : Proceeds part l (Waits Initialization.Fits)) :
    Proceeds (afterPreparing uri id part) l (Waits Fits) := by
  refine h.andThen (fun _ _ h => h) fun ready l₁ _ => ?_
  split
  · exact proceeds_compile uri id
  · exact (proceeds_tell _).bind fun _ _ _ _ => .ends

theorem proceeds_afterLocating (uri : String) {part : ServerAct (Step Locating WorkspaceId)}
    (h : Proceeds part l (Waits Bare)) : Proceeds (afterLocating uri part) l (Waits Fits) := by
  refine h.afterwards (fun _ _ _ => trivial) fun r l₁ _ => ?_
  split
  · exact proceeds_afterPreparing uri _ (proceeds_ensureReady _)
  · exact (proceeds_tell _).bind fun _ _ _ _ => .ends
  · exact .ends

theorem proceeds_afterApplying (uri : String) {part : ServerAct (Step Applying Applied)}
    (h : Proceeds part l (Waits Applying.Fits)) :
    Proceeds (afterApplying uri part) l (Waits Fits) := by
  refine h.andThen (fun _ _ h => h) fun a l₁ _ => ?_
  split
  · exact proceeds_compile uri _
  · exact .ends

theorem proceeds_compileTarget (target : DocumentTarget) :
    Proceeds (compileTarget target) l (Waits Fits) := by
  unfold compileTarget
  split
  · exact proceeds_afterApplying _ (Applying.proceeds_start _)
  · split
    · exact .ends
    · exact proceeds_afterLocating _ (Locating.proceeds_start _)

theorem proceeds_afterChoosing (id : WorkspaceId) {part : ServerAct (Step SettingsLookup Settings)}
    (h : Proceeds part l (Waits Bare)) : Proceeds (afterChoosing id part) l (Waits Fits) := by
  refine h.andThen (fun _ _ _ => trivial) fun settings l₁ _ => ?_
  split
  · exact .ends
  · rw [proceeds_workspace?]
    dsimp only
    rw [proceeds_state]
    split
    · exact .ends
    · exact proceeds_compileTarget _

theorem proceeds_compileFirst : Proceeds compileFirst l (Waits Fits) := by
  unfold compileFirst
  rw [proceeds_state]
  split
  · exact (proceeds_tell _).bind fun _ _ _ _ => .ends
  · exact proceeds_afterChoosing _ (SettingsLookup.proceeds_start _)

theorem proceeds_afterRestoring {part : ServerAct (Step JointInitialization (Dict String Bool))}
    (h : Proceeds part l (Waits Bare)) : Proceeds (afterRestoring part) l (Waits Fits) :=
  h.andThen (fun _ _ _ => trivial) fun _ _ _ => proceeds_compileFirst

theorem proceeds_start (target : Option DocumentTarget) : Proceeds (start target) l (Waits Fits) := by
  unfold start
  split
  · exact proceeds_compileTarget _
  · rw [proceeds_state]
    split
    · split
      · exact .ends
      · exact proceeds_compileFirst
      · exact proceeds_afterRestoring (JointInitialization.proceeds_start _)
    · exact proceeds_compileFirst

theorem proceeds_resume {state : TargetCompile} (h : state.Fits l.state) (signal : Signal) :
    Proceeds (resume state signal) l (Waits Fits) := by
  unfold resume
  split
  · exact proceeds_afterRestoring (JointInitialization.proceeds_resume _ signal)
  · exact proceeds_afterChoosing _ (SettingsLookup.proceeds_resume _ signal)
  · exact proceeds_afterApplying _ (Applying.proceeds_resume h signal)
  · exact proceeds_afterLocating _ (Locating.proceeds_resume _ signal)
  · exact proceeds_afterPreparing _ _ (Initialization.proceeds_resume h signal)
  · exact proceeds_afterConfiguring _ _ (SettingsLookup.proceeds_resume _ signal)
  · exact proceeds_afterCompiling (Compilation.proceeds_resume h signal)

end TargetCompile

/-! ## Documents, folders and files -/

namespace DocumentService

theorem proceeds_textOnDisk (uri : String) : Proceeds (textOnDisk uri) l fun _ _ => True := by
  unfold textOnDisk
  split
  · exact .pure trivial
  · have hlooks : ∀ p, Work.Looks (DiskWork.plainly (FileWork.readText p)) := fun p =>
      DiskWork.looks_telling ((FileWork.looks_ask _ _).bind fun _ => Work.looks_pure _)
    exact (proceeds_onDisk_of_looks (hlooks _)).mono fun _ _ _ _ => trivial

theorem proceeds_currentText (uri : String) : Proceeds (currentText uri) l fun _ _ => True := by
  unfold currentText
  rw [proceeds_state]
  split
  · split
    · exact .pure trivial
    · split
      · exact .pure trivial
      · exact (proceeds_textOnDisk uri).bind fun _ _ _ _ => .pure trivial
  · exact .pure trivial

theorem proceeds_opened (document : OpenDocument) :
    Proceeds (opened document) l (Waits Edit.Fits) := by
  have hnote := proceeds_noteCasually (l := l) (e := .opened l.current document) rfl
  unfold opened
  rw [proceeds_self, proceeds_note_state]
  dsimp only
  cases hd : l.state.documents.open_ document with
  | error e => exact hnote.bind fun _ _ _ _ => .ends
  | ok r =>
      dsimp only
      rw [proceeds_note_setState]
      exact (proceeds_setState (.single (.opens l.current hd))).bind fun _ _ _ _ =>
        Edit.proceeds_start document

theorem proceeds_changed (uri : String) (version : Int) (texts : List String) :
    Proceeds (changed uri version texts) l (Waits Edit.Fits) := by
  unfold changed
  refine (proceeds_currentText uri).bind fun r l₁ _ _ => ?_
  split
  · exact .ends
  · exact Edit.proceeds_start _

theorem proceeds_saved (uri : String) (text : Option String) :
    Proceeds (saved uri text) l (Waits Edit.Fits) := by
  have hedits : ∀ text (l : Loop ServerState Operation), Proceeds
      (Act.state >>= fun s => Edit.start ⟨uri, ((s.documents.get? uri).map (·.version)).getD 0, text⟩) l
      (Waits Edit.Fits) := fun _ _ => proceeds_state.mpr (Edit.proceeds_start _)
  unfold saved
  cases text with
  | some text => exact hedits text l
  | none =>
      refine (proceeds_currentText uri).bind fun current l₁ _ _ => ?_
      dsimp only
      split
      · exact .ends
      · exact .ends
      · exact hedits _ l₁

end DocumentService

namespace FolderChange

/-- What a change of folders that waits was given. -/
def Fits : FolderChange → ServerState → Prop
  | .removing _ _ state, s => state.Fits s
  | .adding _, _ => True

theorem Fits.later {state : FolderChange} {s s' : ServerState} (h : state.Fits s) (hl : s.Later s') :
    state.Fits s' := by
  cases state with
  | removing => exact Removal.Fits.later h hl
  | adding => trivial

theorem proceeds_afterAdding {part : ServerAct (Step JointInitialization (Dict String Bool))}
    (h : Proceeds part l (Waits Bare)) : Proceeds (afterAdding part) l (Waits Fits) :=
  h.andThen (fun _ _ _ => trivial) fun _ _ _ => .ends

theorem proceeds_start (removed added : List Folder) :
    Proceeds (start removed added) l (Waits Fits) := by
  induction removed generalizing l with
  | nil =>
      unfold start add
      split
      · exact .ends
      · exact proceeds_afterAdding (JointInitialization.proceeds_start added)
  | cons folder rest ih =>
      unfold start
      exact (Removal.proceeds_start folder.uri).andThen (fun _ _ h => h) fun _ _ _ => ih

theorem proceeds_resume {state : FolderChange} (h : state.Fits l.state) (signal : Signal) :
    Proceeds (resume state signal) l (Waits Fits) := by
  unfold resume
  split
  · exact (Removal.proceeds_resume h signal).andThen (fun _ _ h => h) fun _ _ _ => proceeds_start _ _
  · exact proceeds_afterAdding (JointInitialization.proceeds_resume _ signal)

end FolderChange

/-! ## Messages of the client -/

namespace Handling

/-- What the handing out of an event that waits was given. -/
def Busy (event : Subscribers.Distribution Edit Value) (s : ServerState) : Prop := event.busy.Fits s

/-- What the handling of a message that waits was given. -/
def Fits : Handling → ServerState → Prop
  | .distributing event, s => Busy event s
  | .welcoming _, _ | .answering _ _, _ => True
  | .changingFolders state, s => state.Fits s
  | .copying state, s => state.Fits s
  | .compiling _ state, s => state.Fits s

theorem Fits.later {state : Handling} {s s' : ServerState} (h : state.Fits s) (hl : s.Later s') :
    state.Fits s' := by
  cases state with
  | welcoming | answering => trivial
  | distributing => exact Edit.Fits.later h hl
  | changingFolders => exact FolderChange.Fits.later h hl
  | copying => exact CreatedCopy.Fits.later h hl
  | compiling => exact TargetCompile.Fits.later h hl

theorem proceeds_edited {part : ServerAct (Step Edit SyncStatus)}
    (h : Proceeds part l (Waits Edit.Fits)) : Proceeds (edited part) l (Waits Edit.Fits) :=
  h.andThen (fun _ _ h => h) fun _ _ _ => .ends

/-- What a handler that is called comes to, if it is called. -/
def Called (step? : Option (Step Edit Unit)) (s : ServerState) : Prop :=
  ∀ step, step? = some step → Waits Edit.Fits step s

theorem proceeds_called {part : ServerAct (Step Edit Unit)} (h : Proceeds part l (Waits Edit.Fits)) :
    Proceeds (do return some (← part)) l Called := by
  refine h.bind fun step l₁ _ hstep => .pure fun step' he => ?_
  cases he
  exact hstep

theorem proceeds_compileOn (method : String) (params : Value) :
    Proceeds (compileOn method params) l Called := by
  unfold compileOn
  dsimp only
  split
  · exact proceeds_called (proceeds_edited (DocumentService.proceeds_opened _))
  · exact proceeds_called (proceeds_edited (DocumentService.proceeds_changed _ _ _))
  · exact proceeds_called (proceeds_edited (DocumentService.proceeds_saved _ _))
  · refine (proceeds_closeDocument _).bind fun _ l₁ _ _ => .pure fun step he => ?_
    cases he
    trivial
  · exact .pure fun step he => by cases he

theorem proceeds_callAll (method : String) (params : Value) (names : List String) :
    Proceeds (handlers.callAll method params names) l (Waits Busy) := by
  induction names generalizing l with
  | nil => exact .ends
  | cons name rest ih =>
      unfold Subscribers.Handlers.callAll
      refine (proceeds_compileOn method params).bind fun step? l₁ _ hstep => ?_
      split
      · exact .pure (hstep _ rfl)
      · exact .ends
      · exact ih

theorem proceeds_distribute (method : String) (params : Value) :
    Proceeds (handlers.distribute method params) l (Waits Busy) := by
  unfold Subscribers.Handlers.distribute
  rw [proceeds_state]
  exact proceeds_callAll method params _

theorem proceeds_resumeDistribution {event : Subscribers.Distribution Edit Value}
    (h : Busy event l.state) (signal : Signal) :
    Proceeds (handlers.resumeDistribution event signal) l (Waits Busy) := by
  unfold Subscribers.Handlers.resumeDistribution
  refine (proceeds_edited (Edit.proceeds_resume h signal)).bind fun step l₁ _ hstep => ?_
  split
  · exact .pure hstep
  · exact .ends
  · exact proceeds_callAll _ _ _

theorem proceeds_afterDistributing
    {part : ServerAct (Step (Subscribers.Distribution Edit Value) Unit)}
    (h : Proceeds part l (Waits Busy)) : Proceeds (afterDistributing part) l (Waits Fits) :=
  h.andThen (fun _ _ h => h) fun _ _ _ => .ends

theorem proceeds_afterWelcoming {part : ServerAct (Step JointInitialization (Dict String Bool))}
    (h : Proceeds part l (Waits Bare)) : Proceeds (afterWelcoming part) l (Waits Fits) := by
  refine h.afterwards (fun _ _ _ => trivial) fun r l₁ _ => ?_
  split
  · exact .ends
  · exact .ends
  · exact Proceeds.bind (proceeds_aside (by constructor <;> rfl)) fun _ _ _ _ => .ends

theorem proceeds_welcome : Proceeds welcome l (Waits Fits) := by
  unfold welcome
  refine Proceeds.bind (proceeds_aside (by constructor <;> rfl)) fun _ l₁ _ _ => ?_
  rw [proceeds_state]
  split
  · split
    · exact proceeds_afterWelcoming (JointInitialization.proceeds_start _)
    · exact proceeds_afterWelcoming .ends
  · exact .ends

theorem proceeds_regardless {τ α : Type} {part : ServerAct (Step τ α)} {wrap : τ → Handling}
    {fits : τ → ServerState → Prop} (h : Proceeds part l (Waits fits))
    (hw : ∀ state s, fits state s → (wrap state).Fits s) :
    Proceeds (regardless part wrap) l (Waits Fits) := by
  refine h.afterwards hw fun r l₁ _ => ?_
  split <;> exact .ends

theorem proceeds_afterCompiling (id : Value)
    {part : ServerAct (Step TargetCompile (Option CompileSummary))}
    (h : Proceeds part l (Waits TargetCompile.Fits)) :
    Proceeds (afterCompiling id part) l (Waits Fits) := by
  have hanswers : ∀ (l : Loop ServerState Operation) (result : Except Failure Value), Proceeds (do
      Act.wake (← Act.self) .go 0
      pure (.waits (.answering id result)) : ServerAct (Step Handling Unit)) l (Waits Fits) := by
    intro l result
    rw [proceeds_self]
    exact (proceeds_wake _ _ _).bind fun _ _ _ _ => .pure trivial
  refine h.afterwards (fun _ _ h => h) fun r l₁ _ => ?_
  split
  · exact hanswers l₁ _
  · exact hanswers l₁ _
  · exact (proceeds_tell _).bind fun _ l₂ _ _ => hanswers l₂ _

theorem proceeds_answer (id : Value) (r : Except Failure Value) :
    Proceeds (answer id r) l (Waits Fits) := by
  unfold answer
  split <;> exact (proceeds_noteCasually rfl).bind fun _ _ _ _ => .ends

theorem proceeds_notification (method : String) (params : Value) :
    Proceeds (notification method params) l (Waits Fits) := by
  unfold notification
  split
  · exact proceeds_welcome
  · exact proceeds_regardless (FolderChange.proceeds_start _ _) fun _ _ h => h
  · exact proceeds_regardless (CreatedFiles.proceeds_copyAll _ _) fun _ _ h => h
  · split
    · exact proceeds_afterDistributing (proceeds_distribute _ params)
    · exact .ends

theorem proceeds_request (id : Value) (params : Value) :
    Proceeds (request id params) l (Waits Fits) := by
  unfold request compile
  split
  · exact proceeds_afterCompiling id (TargetCompile.proceeds_start _)
  · exact proceeds_afterCompiling id .ends

theorem proceeds_resume {state : Handling} (h : state.Fits l.state) (signal : Signal) :
    Proceeds (resume state signal) l (Waits Fits) := by
  unfold resume
  split
  · exact proceeds_afterDistributing (proceeds_resumeDistribution h signal)
  · exact proceeds_afterWelcoming (JointInitialization.proceeds_resume _ signal)
  · exact proceeds_regardless (FolderChange.proceeds_resume h signal) fun _ _ h => h
  · exact proceeds_regardless (CreatedFiles.proceeds_resume h signal) fun _ _ h => h
  · exact proceeds_afterCompiling _ (TargetCompile.proceeds_resume h signal)
  · exact proceeds_answer _ _

end Handling

/-! ## Everything the server is asked to do -/

namespace Waiting

/-- What an operation that waits was given. Work on mirrors that belong to nobody is none of the server's. -/
def Fits : Waiting → ServerState → Prop
  | .creatingMirror _, _ | .overlaying _ _ _, _ | .writing _, _ | .copying _, _ | .deletingMirror _, _
  | .invoking _, _ => False
  | .fetching _, _ | .lookingUp _, _ | .initializingAll _, _ => True
  | .initializing state, s => state.Fits s
  | .removing state, s => state.Fits s
  | .shuttingDown state, s => state.Fits s
  | .stopping state, s => state.Fits s
  | .updating state, s => state.Fits s
  | .editing state, s => state.Fits s
  | .copyingAll state, s => state.Fits s
  | .compilingTarget state, s => state.Fits s
  | .compiling state, s => state.Fits s
  | .changingFolders state, s => state.Fits s
  | .handling state, s => state.Fits s

theorem Fits.later {state : Waiting} {s s' : ServerState} (h : state.Fits s) (hl : s.Later s') :
    state.Fits s' := by
  cases state with
  | creatingMirror | overlaying | writing | copying | deletingMirror | invoking => exact h
  | fetching | lookingUp | initializingAll => trivial
  | initializing => exact Initialization.Fits.later h hl
  | removing => exact Removal.Fits.later h hl
  | shuttingDown | stopping => exact Shutdown.Fits.later h hl
  | updating => exact Applying.Fits.later h hl
  | editing => exact Edit.Fits.later h hl
  | copyingAll => exact CreatedCopy.Fits.later h hl
  | compilingTarget => exact TargetCompile.Fits.later h hl
  | compiling => exact Compilation.Fits.later h hl
  | changingFolders => exact FolderChange.Fits.later h hl
  | handling => exact Handling.Fits.later h hl

theorem proceeds_ending {τ α : Type} {part : ServerAct (Step τ α)} {wrap : τ → Waiting} {f : α → Result}
    {fits : τ → ServerState → Prop} (h : Proceeds part l (Waits fits))
    (hw : ∀ state s, fits state s → (wrap state).Fits s) :
    Proceeds (ending part wrap f) l (Waits Fits) :=
  h.andThen hw fun _ _ _ => .ends

theorem proceeds_add (folder : Folder) : Proceeds (add folder) l (Waits Fits) := by
  unfold add
  refine (JointInitialization.proceeds_register folder).bind fun r l₁ _ _ => ?_
  split
  · exact .ends
  · exact proceeds_ending (Initialization.proceeds_start _) fun _ _ h => h

theorem proceeds_withLast {uri : String} {f : WorkspaceId → ServerAct (Step Waiting Result)}
    (hf : ∀ id, Proceeds (f id) l (Waits Fits)) : Proceeds (withLast uri f) l (Waits Fits) := by
  unfold withLast
  rw [proceeds_state]
  split
  · exact hf _
  · exact .ends

theorem proceeds_afterStopping {part : ServerAct (Step Shutdown Unit)}
    (h : Proceeds part l (Waits Shutdown.Fits)) : Proceeds (afterStopping part) l (Waits Fits) := by
  refine h.afterwards (fun _ _ h => h) fun r l₁ _ => ?_
  split <;> exact .ends

theorem proceeds_stop : Proceeds stop l (Waits Fits) :=
  Proceeds.bind (proceeds_aside (by constructor <;> rfl)) fun _ _ _ _ =>
    proceeds_afterStopping Shutdown.proceeds_start

theorem proceeds_begin {operation : Operation} (h : operation.isServed) :
    Proceeds (begin operation) l (Waits Fits) := by
  cases operation with
  | createMirror | overlay | writeDocument | copyCreated | deleteMirror | invoke => cases h
  | fetchSettings uri => exact proceeds_ending (SettingsRequest.proceeds_start uri _) fun _ _ _ => trivial
  | resolveSettings uri => exact proceeds_ending (SettingsLookup.proceeds_start uri) fun _ _ _ => trivial
  | add folder => exact proceeds_add folder
  | initialize_ id => exact proceeds_ending (Initialization.proceeds_start id) fun _ _ h => h
  | initializeLast uri =>
      exact proceeds_withLast fun id => proceeds_ending (Initialization.proceeds_start id) fun _ _ h => h
  | initializeAll folders =>
      exact proceeds_ending (JointInitialization.proceeds_start folders) fun _ _ _ => trivial
  | remove uri => exact proceeds_ending (Removal.proceeds_start uri) fun _ _ h => h
  | shutdown => exact proceeds_ending Shutdown.proceeds_start fun _ _ h => h
  | stop => exact proceeds_stop
  | update document => exact proceeds_ending (Applying.proceeds_start document) fun _ _ h => h
  | edit document => exact proceeds_ending (Edit.proceeds_start document) fun _ _ h => h
  | copyAllCreated paths => exact proceeds_ending (CreatedFiles.proceeds_copyAll _ paths) fun _ _ h => h
  | compileTarget target => exact proceeds_ending (TargetCompile.proceeds_start target) fun _ _ h => h
  | compile uri settings entry =>
      exact proceeds_withLast fun id =>
        proceeds_ending (Compilation.proceeds_start id settings entry) fun _ _ h => h
  | didOpen document => exact proceeds_ending (DocumentService.proceeds_opened document) fun _ _ h => h
  | didChange uri version texts =>
      exact proceeds_ending (DocumentService.proceeds_changed uri version texts) fun _ _ h => h
  | didSave uri text => exact proceeds_ending (DocumentService.proceeds_saved uri text) fun _ _ h => h
  | changeFolders added removed =>
      exact proceeds_ending (FolderChange.proceeds_start removed added) fun _ _ h => h
  | watchFiles changes => exact proceeds_ending (CreatedFiles.proceeds_copyAll _ _) fun _ _ h => h
  | notification method params =>
      exact proceeds_ending (Handling.proceeds_notification method params) fun _ _ h => h
  | request id method params => exact proceeds_ending (Handling.proceeds_request id params) fun _ _ h => h

/-- An operation of the server that begins goes by steps of the server. -/
theorem proceeds_start {operation : Operation} (h : operation.isServed) (signal : Signal) :
    Proceeds (start operation signal) l (Waits Fits) := by
  unfold start
  split
  · exact proceeds_begin h
  · exact proceeds_ending (SettingsRequest.proceeds_start _ signal) fun _ _ _ => trivial
  · exact .ends

/-- An operation of the server that goes on after a wait goes by steps of the server. -/
theorem proceeds_resume {state : Waiting} (h : state.Fits l.state) (signal : Signal) :
    Proceeds (resume state signal) l (Waits Fits) := by
  unfold resume
  cases state with
  | creatingMirror | overlaying | writing | copying | deletingMirror | invoking => exact h.elim
  | fetching state =>
      exact proceeds_ending (SettingsRequest.proceeds_resume state signal) fun _ _ _ => trivial
  | lookingUp state =>
      exact proceeds_ending (SettingsLookup.proceeds_resume state signal) fun _ _ _ => trivial
  | initializing => exact proceeds_ending (Initialization.proceeds_resume h signal) fun _ _ h => h
  | initializingAll state =>
      exact proceeds_ending (JointInitialization.proceeds_resume state signal) fun _ _ _ => trivial
  | removing => exact proceeds_ending (Removal.proceeds_resume h signal) fun _ _ h => h
  | shuttingDown => exact proceeds_ending (Shutdown.proceeds_resume h signal) fun _ _ h => h
  | stopping => exact proceeds_afterStopping (Shutdown.proceeds_resume h signal)
  | updating => exact proceeds_ending (Applying.proceeds_resume h signal) fun _ _ h => h
  | editing => exact proceeds_ending (Edit.proceeds_resume h signal) fun _ _ h => h
  | copyingAll => exact proceeds_ending (CreatedFiles.proceeds_resume h signal) fun _ _ h => h
  | compilingTarget => exact proceeds_ending (TargetCompile.proceeds_resume h signal) fun _ _ h => h
  | compiling => exact proceeds_ending (Compilation.proceeds_resume h signal) fun _ _ h => h
  | changingFolders => exact proceeds_ending (FolderChange.proceeds_resume h signal) fun _ _ h => h
  | handling => exact proceeds_ending (Handling.proceeds_resume h signal) fun _ _ h => h

end Waiting

end InkServer
