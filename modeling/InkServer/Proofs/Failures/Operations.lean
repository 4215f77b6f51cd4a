import InkServer.Proofs.Failures.Acts

/-!
# Which failures the operations can end in

Errors of workspaces arise where mirrors are made and written to, where the workspace of a path is looked for,
where the compiler runs and where its report is read. Each of them is met by the operation it arises in. What
remains are the failures that are none of these.
-/

namespace InkServer

open Failure ServerAct DiskWork

/-! ## Mirrors -/

namespace Mirror

variable {P : Failure → Prop} {wrap : FileError → Failure} (hw : ∀ e, P (wrap e)) (hn : P (.file .nullCharacter))

include hw in
include hn in
theorem failing_makeScratch (policy : MirrorPolicy) : (makeScratch policy wrap).Failing P := by
  unfold makeScratch
  refine failing_get fun d => (failing_telling hw hn _).bind fun _ => (failing_telling hw hn _).bind fun _ => ?_
  exact (failing_modify _).bind fun _ => failing_pure _

include hw in
include hn in
theorem failing_writeFile (m : Mirror) (relative : Path) (content : ByteArray) :
    (m.writeFile wrap relative content).Failing P := by
  unfold writeFile
  refine failing_get fun d => ?_
  split
  · exact failing_throw (hw _)
  · exact (failing_telling hw hn _).bind fun _ => (failing_modify _).bind fun _ => failing_pure _

include hw in
include hn in
theorem failing_sources (policy : MirrorPolicy) (directory root : Path) :
    (sources policy directory root wrap).Failing P :=
  (failing_telling hw hn _).bind fun _ => failing_pure _

include hw in
include hn in
theorem failing_copyFile (m : Mirror) (root relative : Path) : (m.copyFile root wrap relative).Failing P :=
  (failing_telling hw hn _).bind fun _ => failing_writeFile hw hn m _ _

theorem failing_create (policy : MirrorPolicy) (root : Path) : (create policy root).Failing IsOfMirror := by
  have hmirror : ∀ e, IsOfMirror (.mirror e) := fun e => .inr ⟨e, rfl⟩
  have hnull : IsOfMirror (.file .nullCharacter) := .inl rfl
  have hthere : (plainly (FileWork.isDirectory root)).Failing IsOfMirror := fun d =>
    (failing_plainly _ d).mono fun _ => .inl
  unfold create
  refine hthere.bind fun there => ?_
  have hrest : Failing IsOfMirror (do
      let m ← makeScratch policy fun e => .mirror ⟨.noScratch e, root, none⟩
      let paths ← sources policy root root fun e => .mirror ⟨.unlisted root e, root, some m.path⟩
      let entries ← paths.mapM fun relative =>
        m.copyFile root (fun e => .mirror ⟨.uncopied relative e, root, some m.path⟩) relative
      pure (m, Index.record {} entries)) := by
    refine (failing_makeScratch (fun e => hmirror _) hnull policy).bind fun m => ?_
    refine (failing_sources (fun e => hmirror _) hnull policy root root).bind fun paths => ?_
    refine Failing.bind (.mapM fun relative => ?_) fun _ => failing_pure _
    exact failing_copyFile (fun e => hmirror _) hnull m root relative
  split
  · exact (failing_throw (hmirror _)).bind fun _ => hrest
  · exact hrest

theorem failing_overlay (m : Mirror) (root : Path) (documents : List (Path × ByteArray)) :
    (m.overlay root documents).Failing IsOfMirror :=
  .mapM fun _ => failing_writeFile (fun _ => .inr ⟨_, rfl⟩) (.inl rfl) m _ _

theorem failing_update (m : Mirror) (relative : Path) (content : ByteArray) :
    (m.update relative content).Failing IsOfCopy :=
  failing_writeFile (fun _ => .inr ⟨_, rfl⟩) (.inl rfl) m relative content

include hn in
theorem failing_copyCreated (hcopy : ∀ e, P (.copy e)) (m : Mirror) (policy : MirrorPolicy) (root path : Path) :
    (m.copyCreated policy root path).Failing P := by
  have hsources : (createdSources policy root path).Failing P := by
    unfold createdSources
    refine (failing_telling (fun e => hcopy _) hn _).bind fun isDirectory => ?_
    split
    · split
      · exact failing_sources (fun e => hcopy _) hn policy path root
      · exact failing_throw (hcopy _)
    · split
      · exact failing_pure _
      · exact failing_throw (hcopy _)
  exact hsources.bind fun paths => .mapM fun relative => failing_copyFile (fun e => hcopy _) hn m root relative

theorem failing_isUpToDate (m : Mirror) (index : Index) (relative : Path) (content : ByteArray) :
    (m.isUpToDate index relative content).Failing IsOther := by
  unfold isUpToDate
  split
  · exact failing_pure _
  · split
    · exact failing_plainly _
    · exact failing_pure _

end Mirror

/-! ## Initializing workspaces -/

namespace Initialization

variable (id : WorkspaceId) (generation : Nat)

theorem harmless_delete (m : Mirror) : Harmless (delete m) fun _ => True :=
  .of_state fun l => ⟨{ l.state with disk := (m.delete.run l.state.disk).2 }, rfl⟩

theorem harmless_readiness : Harmless (readiness id) (Ends IsOther) := (harmless_workspace? id).bind fun _ _ => .done

theorem harmless_isLatest : Harmless (isLatest id generation) fun _ => True :=
  (harmless_workspace? id).bind fun _ _ => .pure trivial

theorem harmless_hasMirror : Harmless (hasMirror id) (Fails IsOther) := by
  unfold hasMirror
  refine (harmless_workspace? id).bind fun w? _ => ?_
  split
  · exact .pure (.ok _)
  · exact harmless_onDisk (failing_plainly _)

theorem harmless_giveUp (error : MirrorError) : Harmless (giveUp id generation error) (Ends IsOther) := by
  unfold giveUp
  refine (harmless_isLatest id generation).bind fun latest _ => ?_
  split
  · refine (harmless_hasMirror id).bind fun r hr => ?_
    split
    · exact .fail (hr _ rfl)
    · have htell : Harmless (do
          tell (.serverError (some error.message))
          readiness id) (Ends IsOther) := (harmless_tell _).bind fun _ _ => harmless_readiness id
      split
      · exact htell
      · exact (harmless_updateWorkspace id _).bind fun _ _ => htell
  · exact harmless_readiness id

/-- That a mirror could not be made does not get any further. -/
theorem harmless_afterFailure {f : Failure} (h : IsOfMirror f) :
    Harmless (afterFailure id generation f) (Ends IsOther) := by
  unfold afterFailure
  split
  · split
    · exact .through ((harmless_delete _).bind fun _ _ => harmless_giveUp id generation _)
    · exact harmless_giveUp id generation _
  · rename_i hf
    refine .fail (h.elim (fun h => h) fun ⟨e, he⟩ => ?_)
    exact absurd he (hf e)

theorem harmless_install (m : Mirror) : Harmless (install id generation m) (Ends IsOther) := by
  unfold install
  refine (harmless_isLatest id generation).bind fun latest _ => ?_
  split
  · refine (harmless_workspace? id).bind fun w? _ => (harmless_note _).bind fun _ _ => ?_
    refine (harmless_updateWorkspace id _).bind fun _ _ => ?_
    split
    · exact .through ((harmless_delete _).bind fun _ _ => .done)
    · exact .done
  · refine (harmless_note _).bind fun _ _ => ?_
    exact .through ((harmless_delete m).bind fun _ _ => harmless_readiness id)

theorem harmless_writeOver (m : Mirror) (documents : List (Path × ByteArray)) :
    Harmless (writeOver id generation m documents) (Ends IsOther) := by
  unfold writeOver
  refine .withWorkspace .done fun w => ?_
  refine (harmless_onDisk (Mirror.failing_overlay m w.root documents)).bind fun r hr => ?_
  split
  · exact (harmless_record m _).bind fun _ _ => harmless_install id generation m
  · exact harmless_afterFailure id generation (hr _ rfl)

theorem harmless_overlay (m : Mirror) : Harmless (overlay id generation m) (Ends IsOther) := by
  unfold overlay
  refine .withWorkspace .done fun w => harmless_state.bind fun s _ => ?_
  dsimp only
  split
  · exact harmless_install id generation m
  · exact .through (harmless_writeOver id generation m _)

theorem harmless_makeMirror (root : Path) : Harmless (makeMirror root) (Fails IsOfMirror) := by
  unfold makeMirror
  refine harmless_state.bind fun s _ => ?_
  refine (harmless_onDisk (Mirror.failing_create s.policy root)).bind fun r hr => ?_
  split
  · exact (harmless_modifyState _).bind fun _ _ => .pure (.ok _)
  · exact .pure (.error (hr _ rfl))

theorem harmless_create : Harmless (create id generation) (Ends IsOther) := by
  unfold create
  refine .withWorkspace .done fun w => (harmless_makeMirror w.root).bind fun r hr => ?_
  split
  · exact (harmless_note _).bind fun _ _ => harmless_overlay id generation _
  · exact harmless_afterFailure id generation (hr _ rfl)

theorem harmless_start : Harmless (start id) (Ends IsOther) := by
  unfold start
  refine .withWorkspace .done fun w => ?_
  split
  · exact .done
  · refine (harmless_note _).bind fun _ _ => (harmless_updateWorkspace id _).bind fun _ _ => ?_
    exact .through (harmless_create id _)

theorem harmless_resume (state : Initialization) (signal : Signal) : Harmless (resume state signal) (Ends IsOther) := by
  unfold resume
  split
  · split
    · exact harmless_create _ _
    · exact harmless_writeOver _ _ _ _
    · exact (harmless_delete _).bind fun _ _ => harmless_giveUp _ _ _
    · exact (harmless_delete _).bind fun _ _ => harmless_readiness _
    · exact (harmless_delete _).bind fun _ _ => .done
  · exact .fail rfl

end Initialization

namespace JointInitialization

theorem harmless_register (folder : Folder) : Harmless (register folder) (Fails IsOther) := by
  unfold register
  refine harmless_state.bind fun s _ => ?_
  split
  · exact .pure (.ok _)
  · split
    · exact .pure (.error rfl)
    · exact (harmless_setState _).bind fun _ _ => .pure (.ok _)

theorem harmless_registerAll (folders : List Folder) : Harmless (registerAll folders) (Fails IsOther) := by
  induction folders with
  | nil => exact .pure (.ok _)
  | cons folder rest ih =>
      unfold registerAll
      refine (harmless_register folder).bind fun r hr => ?_
      split
      · exact .pure (.error (hr _ rfl))
      · exact ih.bind fun ids hids => .pure (hids.map _)

theorem harmless_readiness (ids : List WorkspaceId) : Harmless (readiness ids) fun _ => True :=
  harmless_state.bind fun _ _ => .pure trivial

theorem harmless_start (folders : List Folder) : Harmless (start folders) (Ends IsOther) := by
  unfold start
  refine (harmless_registerAll folders).bind fun r hr => ?_
  split
  · exact .fail (hr _ rfl)
  · refine harmless_state.bind fun s _ => .gather (fun o ho => ?_) ((harmless_readiness _).bind fun _ _ => .done)
    obtain ⟨id, -, rfl⟩ := List.mem_map.mp ho
    trivial

/-- Whoever waits for initializations fails as the first of them does. -/
theorem harmless_resume (state : JointInitialization) {signal : Signal} (h : signal.IsHarmless) :
    Harmless (resume state signal) (Ends IsOther) := by
  unfold resume
  split
  · exact (harmless_readiness _).bind fun _ _ => .done
  · exact .fail h
  · exact .fail rfl

end JointInitialization

/-! ## Removing workspaces -/

theorem harmless_publish (uri : String) (diagnostics : List Diagnostic) :
    Harmless (publish uri diagnostics) fun _ => True := by
  unfold publish
  refine harmless_state.bind fun s _ => ?_
  split
  · exact harmless_note _
  · refine (harmless_setState _).bind fun _ _ => ?_
    split
    · exact harmless_note _
    · exact .pure trivial

namespace Removal

theorem harmless_unregister (uri : String) : Harmless (unregister uri) fun _ => True :=
  .of_state fun l => ⟨{ l.state with registered := l.state.registered.erase uri }, rfl⟩

theorem harmless_clearAll (uris : List String) : Harmless (clearAll uris) fun _ => True :=
  .forM fun uri => harmless_publish uri []

theorem harmless_deleteMirror (id : WorkspaceId) (m : Mirror) : Harmless (deleteMirror id m) fun _ => True :=
  (Initialization.harmless_delete m).bind fun _ _ => harmless_updateWorkspace id _

theorem harmless_start (uri : String) : Harmless (start uri) (Ends IsOther) := by
  unfold start
  refine (harmless_unregister uri).bind fun id? _ => ?_
  split
  · exact .done
  · refine (harmless_updateWorkspace _ _).bind fun _ _ => .withWorkspace .done fun w => ?_
    refine (harmless_clearAll _).bind fun _ _ => (harmless_updateWorkspace _ _).bind fun _ _ => ?_
    refine (harmless_note _).bind fun _ _ => ?_
    split
    · exact .through ((harmless_deleteMirror _ _).bind fun _ _ => .done)
    · exact .done

theorem harmless_resume (state : Removal) (signal : Signal) : Harmless (resume state signal) (Ends IsOther) := by
  unfold resume
  split
  · exact (harmless_deleteMirror _ _).bind fun _ _ => .done
  · exact .fail rfl

end Removal

namespace Shutdown

theorem harmless_removeAll (uris : List String) : Harmless (removeAll uris) (Ends IsOther) := by
  induction uris with
  | nil => exact .done
  | cons uri rest ih =>
      unfold removeAll
      refine (Removal.harmless_unregister uri).bind fun id? _ => ?_
      split
      · exact .fail rfl
      · refine (harmless_updateWorkspace _ _).bind fun _ _ => (harmless_workspace? _).bind fun w? _ => ?_
        split
        · refine (harmless_isClosed _).bind fun closed _ => ?_
          split
          · exact harmless_waitAt _ _
          · exact (Removal.harmless_deleteMirror _ _).bind fun _ _ => ih
        · exact ih

theorem harmless_start : Harmless start (Ends IsOther) := harmless_state.bind fun _ _ => harmless_removeAll _

theorem harmless_resume (state : Shutdown) (signal : Signal) : Harmless (resume state signal) (Ends IsOther) := by
  unfold resume
  split
  · exact (Removal.harmless_deleteMirror _ _).bind fun _ _ => harmless_removeAll _
  · exact .fail rfl

end Shutdown

/-! ## Writing into mirrors -/

namespace DocumentWrite

variable (id : WorkspaceId) (m : Mirror)

theorem harmless_finish {τ α : Type} {P : Failure → Prop} {r : Except Failure α} (h : Fails P r) :
    Harmless (finish id r : ServerAct (Step τ α)) (Ends P) := harmless_unlock.bind fun _ _ => .pure h

theorem harmless_write (relative : Path) (content : ByteArray) :
    Harmless (write id m relative content) (Ends IsOfCopy) := by
  unfold write
  refine (harmless_onDisk (Mirror.failing_update m relative content)).bind fun r hr => ?_
  split
  · exact (harmless_record m _).bind fun _ _ => harmless_finish id (.ok _)
  · exact harmless_finish id (.error (hr _ rfl))

theorem harmless_takeTurn (relative : Path) (content : ByteArray) :
    Harmless (takeTurn id m relative content) (Ends IsOfCopy) := by
  unfold takeTurn
  refine (harmless_index m).bind fun index _ => ?_
  refine (harmless_onDisk (Mirror.failing_isUpToDate m index relative content)).bind fun r hr => ?_
  split
  · exact harmless_finish id (.error (.inl (hr _ rfl)))
  · exact harmless_finish id (.ok _)
  · exact .through (harmless_write id m relative content)

theorem harmless_start (path : Path) (content : ByteArray) : Harmless (start id path content) (Ends IsOfCopy) := by
  unfold start
  refine .withWorkspace (.fail (.inr ⟨_, rfl⟩)) fun w => ?_
  split
  · exact .fail (.inr ⟨_, rfl⟩)
  · refine harmless_state.bind fun s _ => ?_
    split
    · exact .fail (.inr ⟨_, rfl⟩)
    · exact .acquire (harmless_takeTurn id _ _ content)

theorem harmless_resume (state : DocumentWrite) (signal : Signal) :
    Harmless (resume state signal) (Ends IsOfCopy) := by
  unfold resume
  split
  · exact harmless_takeTurn _ _ _ _
  · exact harmless_abandon.bind fun _ _ => .fail (.inl rfl)
  · exact harmless_write _ _ _ _
  · exact harmless_finish _ (.error (.inl rfl))

end DocumentWrite

namespace CreatedCopy

variable (id : WorkspaceId) (m : Mirror) (path : Path)

theorem harmless_copy : Harmless (copy id m path) (Ends IsOfCopy) := by
  unfold copy
  refine .withWorkspace (.fail (.inr ⟨_, rfl⟩)) fun w => harmless_state.bind fun s _ => ?_
  have hcopies : (m.copyCreated s.policy w.root path).Failing IsOfCopy :=
    Mirror.failing_copyCreated (.inl rfl) (fun e => .inr ⟨e, rfl⟩) m s.policy w.root path
  refine (harmless_onDisk hcopies).bind fun r hr => ?_
  split
  · exact (harmless_record m _).bind fun _ _ => DocumentWrite.harmless_finish id hr
  · exact DocumentWrite.harmless_finish id hr

theorem harmless_takeTurn : Harmless (takeTurn id m path) (Ends IsOfCopy) := .through (harmless_copy id m path)

theorem harmless_start : Harmless (start id path) (Ends IsOfCopy) := by
  unfold start
  refine .withWorkspace (.fail (.inr ⟨_, rfl⟩)) fun w => ?_
  split
  · exact .fail (.inr ⟨_, rfl⟩)
  · exact .acquire (harmless_takeTurn id _ path)

theorem harmless_resume (state : CreatedCopy) (signal : Signal) : Harmless (resume state signal) (Ends IsOfCopy) := by
  unfold resume
  split
  · exact harmless_takeTurn _ _ _
  · exact harmless_abandon.bind fun _ _ => .fail (.inl rfl)
  · exact harmless_copy _ _ _
  · exact DocumentWrite.harmless_finish _ (.error (.inl rfl))

end CreatedCopy

namespace CreatedFiles

/-- That a created file could not be copied does not get any further. -/
theorem fails_statusAfter {r : Except Failure (List MirrorEntry)} (h : Fails IsOfCopy r) :
    Fails IsOther (statusAfter r) := by
  unfold statusAfter
  split
  · exact .ok _
  · exact .ok _
  · rename_i f hf
    exact .error ((h f rfl).elim (fun h => h) fun ⟨e, he⟩ => absurd he (hf e))

theorem harmless_examine (path : Path) : Harmless (examine path) (Fails IsOther) := by
  unfold examine
  refine harmless_state.bind fun s _ => ?_
  split
  · exact (harmless_tell _).bind fun _ _ => .pure (.ok _)
  · refine (harmless_workspace? _).bind fun w? _ => ?_
    split
    · exact .pure (.ok _)
    · refine (harmless_onDisk (failing_plainly _)).bind fun r hr => ?_
      split
      · exact .pure (.error (hr _ rfl))
      · split
        · exact .pure (.ok _)
        · exact .pure (.ok _)

theorem harmless_copyAll (results : Dict Path SyncStatus) (paths : List Path) :
    Harmless (copyAll results paths) (Ends IsOther) := by
  induction paths generalizing results with
  | nil => exact .done
  | cons path rest ih =>
      unfold copyAll
      refine (harmless_examine path).bind fun r hr => ?_
      split
      · exact .fail (hr _ rfl)
      · exact ih _
      · refine (CreatedCopy.harmless_start _ path).bind fun step hstep => ?_
        split
        · exact .waits
        · have hstatus := fails_statusAfter hstep
          split
          · rename_i hf
            exact .fail (hstatus _ hf)
          · exact ih _

theorem harmless_resume (state : CreatedFiles) (signal : Signal) : Harmless (resume state signal) (Ends IsOther) := by
  unfold resume
  refine (CreatedCopy.harmless_resume state.copying signal).bind fun step hstep => ?_
  split
  · exact .waits
  · have hstatus := fails_statusAfter hstep
    split
    · rename_i hf
      exact .fail (hstatus _ hf)
    · exact harmless_copyAll _ _

end CreatedFiles

/-! ## Taking in documents -/

theorem isOther_of_knownFolders {s : ServerState} {f : Failure} (h : s.knownFolders = .error f) : f.IsOther := by
  have hclient : Fails IsOther s.clientFolders := by
    unfold ServerState.clientFolders
    split
    · exact .error rfl
    · split
      · split
        · exact .ok _
        · exact .error rfl
      · exact .ok _
  unfold ServerState.knownFolders at h
  split at h
  · cases h
  · cases h
  · exact hclient.map some f h

namespace Locating

theorem harmless_look {τ : Type} (path : Path) : Harmless (look path : ServerAct (Step τ WorkspaceId)) (Ends IsOfPlace) := by
  unfold look
  refine harmless_state.bind fun s _ => ?_
  split
  · exact .done
  · exact .fail (.inr ⟨path, rfl⟩)

theorem harmless_afterRestoring (path : Path) {part : ServerAct (Step JointInitialization (Dict String Bool))}
    (h : Harmless part (Ends IsOther)) : Harmless (afterRestoring path part) (Ends IsOfPlace) :=
  (h.ends_mono fun _ => .inl).andThen fun _ => harmless_look path

theorem harmless_start (path : Path) : Harmless (start path) (Ends IsOfPlace) := by
  unfold start
  refine harmless_state.bind fun s _ => ?_
  split
  · exact .done
  · split
    · rename_i hf
      exact .fail (.inl (isOther_of_knownFolders hf))
    · exact harmless_look path
    · exact harmless_afterRestoring path (JointInitialization.harmless_start _)

theorem harmless_resume (state : Locating) {signal : Signal} (h : signal.IsHarmless) :
    Harmless (resume state signal) (Ends IsOfPlace) :=
  harmless_afterRestoring state.path (JointInitialization.harmless_resume _ h)

end Locating

theorem harmless_ensureReady (id : WorkspaceId) : Harmless (ensureReady id) (Ends IsOther) := by
  unfold ensureReady
  refine .withWorkspace .done fun w => ?_
  split
  · exact .done
  · exact Initialization.harmless_start id
  · split
    · exact .done
    · refine (harmless_onDisk (failing_plainly _)).bind fun r hr => ?_
      split
      · exact .fail (hr _ rfl)
      · exact .done
      · exact (harmless_note _).bind fun _ _ => (harmless_updateWorkspace id _).bind fun _ _ =>
          Initialization.harmless_start id

namespace Applying

/-- That a text could not be written does not get any further. -/
theorem harmless_afterWriting (id : WorkspaceId) {part : ServerAct (Step DocumentWrite MirrorEntry)}
    (h : Harmless part (Ends IsOfCopy)) : Harmless (afterWriting id part) (Ends IsOther) := by
  refine h.afterwards fun r hr => ?_
  split
  · exact harmless_self.bind fun _ _ => (harmless_note _).bind fun _ _ => .done
  · exact (harmless_tell _).bind fun _ _ => .done
  · rename_i f hf
    exact .fail ((hr f rfl).elim (fun h => h) fun ⟨e, he⟩ => absurd he (hf e))

theorem harmless_afterPreparing (document : OpenDocument) (path : Path) (id : WorkspaceId)
    {part : ServerAct (Step Initialization Bool)} (h : Harmless part (Ends IsOther)) :
    Harmless (afterPreparing document path id part) (Ends IsOther) := by
  refine h.andThen fun ready => ?_
  split
  · exact .done
  · refine (harmless_workspace? id).bind fun w? _ => ?_
    split
    · exact .done
    · exact harmless_afterWriting id (DocumentWrite.harmless_start id _ _)

/-- That a document lies in no workspace does not get any further. -/
theorem harmless_afterLocating (document : OpenDocument) (path : Path)
    {part : ServerAct (Step Locating WorkspaceId)} (h : Harmless part (Ends IsOfPlace)) :
    Harmless (afterLocating document path part) (Ends IsOther) := by
  refine h.afterwards fun r hr => ?_
  split
  · exact harmless_afterPreparing document path _ (harmless_ensureReady _)
  · exact (harmless_tell _).bind fun _ _ => .done
  · rename_i f hf
    exact .fail ((hr f rfl).elim (fun h => h) fun ⟨p, hp⟩ => absurd hp (hf p))

theorem harmless_start (document : OpenDocument) : Harmless (start document) (Ends IsOther) := by
  unfold start
  refine harmless_self.bind fun task _ => (harmless_note _).bind fun _ _ => harmless_state.bind fun s _ => ?_
  split
  · exact .fail rfl
  · split
    · exact .fail rfl
    · refine (harmless_setState _).bind fun _ _ => ?_
      split
      · exact harmless_afterLocating document _ (Locating.harmless_start _)
      · exact .done

theorem harmless_resume (state : Applying) {signal : Signal} (h : signal.IsHarmless) :
    Harmless (resume state signal) (Ends IsOther) := by
  unfold resume
  split
  · exact harmless_afterLocating _ _ (Locating.harmless_resume _ h)
  · exact harmless_afterPreparing _ _ _ (Initialization.harmless_resume _ signal)
  · exact harmless_afterWriting _ (DocumentWrite.harmless_resume _ signal)

end Applying

/-! ## Settings -/

namespace SettingsRequest

theorem harmless_updateCache (f : SettingsCache → SettingsCache) : Harmless (updateCache f) fun _ => True :=
  harmless_modifyState _

/-- Whoever asks the client may fail as the client does. -/
theorem harmless_finish (outcome : Except Failure Settings) : Harmless (finish outcome) fun _ => True := by
  unfold finish
  refine harmless_self.bind fun task _ => harmless_state.bind fun s _ => ?_
  refine (harmless_updateCache _).bind fun _ _ => Harmless.bind (.forM fun t => ?_) fun _ _ => .pure trivial
  exact harmless_wake_go t 1

theorem harmless_readAnswer (uri : String) : Harmless (readAnswer uri) fun _ => True := by
  unfold readAnswer
  refine harmless_state.bind fun s _ => ?_
  split <;> exact harmless_finish _

theorem harmless_start (uri : String) (signal : Signal) : Harmless (start uri signal) fun _ => True := by
  unfold start
  refine harmless_state.bind fun s _ => ?_
  split
  · refine (harmless_note _).bind fun _ _ => ?_
    unfold Act.through
    refine (harmless_isClosed _).bind fun closed _ => ?_
    split
    · exact (harmless_waitAt (P := fun _ => True) _ _).any
    · exact harmless_readAnswer uri
  · refine harmless_self.bind fun task _ => (harmless_note _).bind fun _ _ => ?_
    exact (harmless_modifyState _).bind fun _ _ => .pure trivial
  · exact harmless_finish _
  · exact harmless_finish _

theorem harmless_resume (state : SettingsRequest) (signal : Signal) :
    Harmless (resume state signal) fun _ => True := by
  unfold resume
  split
  · exact harmless_readAnswer _
  · exact harmless_finish _
  · exact harmless_self.bind fun task _ => harmless_state.bind fun s _ => harmless_finish _
  · refine Harmless.bind (?_ : Harmless abandon fun _ => True) fun _ _ => harmless_finish _
    exact harmless_self.bind fun task _ => harmless_modifyState _

end SettingsRequest

namespace SettingsLookup

/-- Whatever goes wrong with a request for settings, there are settings to go on with. -/
theorem harmless_conclude (state : SettingsLookup) (outcome : Except Failure Settings) :
    Harmless (conclude state outcome) (Ends IsOther) := by
  unfold conclude
  split
  · exact .done
  · exact .done
  · exact (SettingsRequest.harmless_updateCache _).bind fun _ _ => .done

theorem harmless_currentFetch (uri : String) : Harmless (currentFetch uri) fun _ => True := by
  unfold currentFetch
  refine harmless_state.bind fun s _ => ?_
  split
  · exact .pure trivial
  · exact (harmless_create _).bind fun _ _ => (SettingsRequest.harmless_updateCache _).bind fun _ _ => .pure trivial

theorem harmless_start (uri : String) : Harmless (start uri) (Ends IsOther) := by
  unfold start
  refine harmless_state.bind fun s _ => ?_
  split
  · refine (harmless_currentFetch uri).bind fun fetch _ => harmless_state.bind fun s' _ => ?_
    split
    · exact harmless_conclude _ _
    · exact harmless_self.bind fun _ _ => (SettingsRequest.harmless_updateCache _).bind fun _ _ => .waits
  · exact .done

theorem harmless_resume (state : SettingsLookup) (signal : Signal) :
    Harmless (resume state signal) (Ends IsOther) := by
  unfold resume
  refine harmless_state.bind fun s _ => ?_
  split
  · exact harmless_conclude _ _
  · exact .done
  · exact .done
  · exact harmless_self.bind fun _ _ => (SettingsRequest.harmless_updateCache _).bind fun _ _ => .fail rfl

end SettingsLookup

theorem harmless_closeDocument (uri : String) : Harmless (closeDocument uri) fun _ => True := by
  unfold closeDocument
  refine harmless_state.bind fun s _ => (harmless_setState _).bind fun _ _ => ?_
  split
  · exact .pure trivial
  · split
    · exact harmless_cancel _
    · exact .pure trivial

/-! ## Compiling -/

theorem Compiler.fails_entryPath (settings : Settings) (entry : Option Path) :
    Fails IsOther (entryPath settings entry) := by
  unfold entryPath
  split
  · exact .ok _
  · cases settings.mainStory with
    | ok story => exact .ok _
    | error e => exact .error rfl

theorem Compiler.fails_words (command : List Value) : Fails IsOther (words command) := by
  have hfrom : ∀ index, Fails IsOther (wordsFrom index command) := by
    induction command with
    | nil => exact fun _ => .ok _
    | cons v rest ih =>
        intro index
        unfold wordsFrom
        split
        · cases ‹_ = _›
        · rename_i he
          cases he
          exact (ih _).map _
        · exact .error rfl
  exact hfrom 0

namespace Invocation

variable (p : CompilerProcess)

theorem harmless_stopTimer : Harmless stopTimer fun _ => True :=
  harmless_self.bind fun _ _ => harmless_modifyState _

theorem harmless_exit : Harmless (exit p) fun _ => True := by
  unfold exit
  refine harmless_stopTimer.bind fun _ _ => (harmless_note _).bind fun _ _ => ?_
  split
  · exact harmless_modifyState _
  · exact .pure trivial

theorem harmless_ended : Harmless (ended p) (Ends IsOfCompiler) := by
  unfold ended
  refine (harmless_exit p).bind fun _ _ => (harmless_note _).bind fun _ _ => ?_
  split
  · exact .done
  · exact harmless_self.bind fun task _ => (harmless_wake_go task 1).bind fun _ _ => .waits

theorem harmless_reap (expired : Bool) : Harmless (reap p expired) (Ends IsOfCompiler) := by
  refine (harmless_note _).bind fun _ _ => ?_
  unfold failure
  split
  · exact .fail (.inr ⟨_, rfl⟩)
  · exact .fail (.inl rfl)

theorem harmless_kill (expired : Bool) : Harmless (kill p expired) (Ends IsOfCompiler) := by
  have hend : Harmless (putToEnd p) fun _ => True := by
    unfold putToEnd
    split
    · exact harmless_exit p
    · exact harmless_note _
  refine hend.bind fun _ _ => ?_
  unfold awaitEnd
  split
  · exact harmless_waitAt _ _
  · exact harmless_reap p expired

theorem harmless_stop (expired : Bool) : Harmless (stop p expired) (Ends IsOfCompiler) := by
  unfold stop
  refine harmless_stopTimer.bind fun _ _ => harmless_self.bind fun task _ => ?_
  exact (harmless_wake_go task 2).bind fun _ _ => .waits

theorem harmless_await : Harmless (await p) (Ends IsOfCompiler) := by
  unfold await
  refine harmless_self.bind fun task _ => ?_
  split
  · split
    · exact .waits
    · split
      · exact harmless_waitAt _ _
      · exact harmless_ended p
  · rename_i limit _
    split
    · exact harmless_stop p true
    · have hwait : Harmless (do
          if p.behaviour.hangs then pure (.waits (.running p))
          else if p.behaviour.held then Act.waitAt "compile" (.running p)
          else
            Act.wake task .go 0
            pure (.waits (.running p)) : ServerAct (Step Invocation CompilerReport)) (Ends IsOfCompiler) := by
        split
        · exact .waits
        · split
          · exact harmless_waitAt _ _
          · exact (harmless_wake_go task 0).bind fun _ _ => .waits
      cases limit.isShort with
      | true => exact Harmless.bind (harmless_modifyState _) fun _ _ => hwait
      | false => exact hwait

theorem harmless_nextBehaviour (directory entry : Path) : Harmless (nextBehaviour directory entry) fun _ => True := by
  unfold nextBehaviour
  refine harmless_state.bind fun s _ => ?_
  split
  · exact (harmless_setState _).bind fun _ _ => .pure trivial
  · exact (harmless_setState _).bind fun _ _ => .pure trivial

theorem harmless_start (mirror : Path) (settings : Settings) (entry output : Option Path) :
    Harmless (start mirror settings entry output) (Ends IsOfCompiler) := by
  unfold start
  refine harmless_state.bind fun s _ => ?_
  split
  · rename_i hf
    exact .fail (.inl (Compiler.fails_entryPath settings entry _ hf))
  · dsimp only
    split
    · rename_i hf
      exact .fail (.inl (Compiler.fails_words _ _ hf))
    · refine (harmless_nextBehaviour _ _).bind fun behaviour _ => (harmless_note _).bind fun _ _ => ?_
      split
      · exact .fail (.inr ⟨_, rfl⟩)
      · exact harmless_await _

theorem harmless_resume (state : Invocation) (signal : Signal) : Harmless (resume state signal) (Ends IsOfCompiler) := by
  unfold resume
  split
  · exact harmless_ended _
  · exact harmless_stop _ true
  · split
    · exact harmless_stopTimer.bind fun _ _ => harmless_kill _ false
    · exact harmless_stop _ false
  · exact .done
  · exact harmless_kill _ _
  · exact harmless_kill _ false
  · exact harmless_reap _ _
  · exact .fail (.inl rfl)

end Invocation

namespace Delivery

theorem harmless_replace (id : WorkspaceId) (diagnostics : List AddressedDiagnostic) :
    Harmless (replace id diagnostics) fun _ => True := by
  unfold replace
  refine (harmless_workspace? id).bind fun w? _ => (Removal.harmless_clearAll _).bind fun _ _ => ?_
  exact Harmless.bind (.forM fun _ => harmless_publish _ _) fun _ _ => harmless_updateWorkspace id _

/-- What stands for a report without findings may lack a URI and nothing else. -/
theorem isOther_of_toDiagnostic {u : CompilerReport.Unrecognized} {naming : CompilerReport.Naming} {root entry : Path}
    {e : CompilerReport.Error} (h : u.toDiagnostic naming root entry = .error e) : IsOther (.report e) := by
  unfold CompilerReport.Unrecognized.toDiagnostic at h
  cases hn : naming (root / entry) with
  | ok uri =>
      rw [hn] at h
      cases h
  | error e' =>
      rw [hn] at h
      cases h
      rfl

/-- That a report has no findings does not get any further. -/
theorem harmless_diagnosticsOf (root : Path) (report : CompilerReport) :
    Harmless (diagnosticsOf root report) (Fails IsOther) := by
  unfold diagnosticsOf
  refine harmless_state.bind fun s _ => ?_
  dsimp only
  split
  · exact .pure (.ok _)
  · refine (harmless_tell _).bind fun _ _ => ?_
    split
    · exact .pure (.ok _)
    · rename_i he
      exact .pure (.error (isOther_of_toDiagnostic he))
  · rename_i e he _
    refine .pure (.error ?_)
    cases e with
    | unrecognized u => exact absurd rfl (he u)
    | line | uri | position => rfl

theorem harmless_deliver (id : WorkspaceId) (outcome : CompileOutcome CompilerReport) :
    Harmless (deliver id outcome) (Fails IsOther) := by
  unfold deliver
  refine .withWorkspace (.pure (.ok _)) fun w => ?_
  split
  · exact .pure (.ok _)
  · split
    · exact (harmless_tell _).bind fun _ _ => .pure (.ok _)
    · exact .pure (.ok _)
    · refine (harmless_note _).bind fun _ _ => (harmless_diagnosticsOf w.root _).bind fun r hr => ?_
      split
      · exact .pure (.error (hr _ rfl))
      · exact (harmless_replace id _).bind fun _ _ => (harmless_note _).bind fun _ _ => .pure (.ok _)

end Delivery

namespace Compilation

variable (job : CompileJob) (request : CompileRequest)

theorem harmless_afterInvocation (id : WorkspaceId) {part : ServerAct (Step Invocation CompilerReport)}
    (h : Harmless part (Ends IsOfCompiler)) : Harmless (afterInvocation id part) (Ends IsOfCompiler) := by
  unfold afterInvocation
  refine h.bind fun step hstep => ?_
  split
  · exact .waits
  · exact (harmless_updateWorkspace id _).bind fun _ _ => .pure hstep

theorem harmless_invoke : Harmless (invoke job request) (Ends IsOfCompiler) := by
  unfold invoke
  refine .withWorkspace (.fail (.inl rfl)) fun w => (harmless_note _).bind fun _ _ => ?_
  split
  · exact .fail (.inr ⟨_, rfl⟩)
  · refine (harmless_updateWorkspace _ _).bind fun _ _ => (harmless_note _).bind fun _ _ => ?_
    exact harmless_afterInvocation _ (Invocation.harmless_start _ _ _ _)

theorem harmless_scheduler : Harmless (invocations job).scheduler fun _ => True :=
  harmless_state.bind fun _ _ => .pure trivial

theorem harmless_update (f : Scheduler → Scheduler) : Harmless ((invocations job).update f) fun _ => True :=
  harmless_modifyState _

theorem harmless_accept : Harmless ((invocations job).accept request) fun _ => True := by
  unfold Scheduler.Invocations.accept
  exact (harmless_scheduler job).bind fun s _ => (harmless_update job _).bind fun _ _ => .pure trivial

theorem harmless_conclude (outcome : CompileOutcome CompilerReport) :
    Harmless ((invocations job).conclude outcome) (Ends IsOther) := by
  unfold Scheduler.Invocations.conclude
  split
  · refine Harmless.bind (Delivery.harmless_deliver job.id outcome) fun r hr => ?_
    split
    · exact harmless_unlock.bind fun _ _ => .done
    · exact harmless_unlock.bind fun _ _ => .fail (hr _ rfl)
  · exact harmless_unlock.bind fun _ _ => .done

/-- That the compiler failed does not get any further: it is an outcome like any other. -/
theorem harmless_afterRequest {r : Except Failure CompilerReport} (h : Fails IsOfCompiler r) :
    Harmless ((invocations job).afterInvocation request r) (Ends IsOther) := by
  unfold Scheduler.Invocations.afterInvocation
  refine (harmless_update job _).bind fun _ _ => ?_
  split
  · exact (harmless_accept job request).bind fun _ _ => harmless_conclude job _
  · exact (harmless_accept job request).bind fun _ _ => harmless_conclude job _
  · rename_i f hf
    refine harmless_unlock.bind fun _ _ => .fail ((h f rfl).elim (fun h => h) fun ⟨e, he⟩ => absurd he (hf e))

theorem harmless_takeTurn : Harmless ((invocations job).takeTurn request) (Ends IsOther) := by
  unfold Scheduler.Invocations.takeTurn
  refine (harmless_scheduler job).bind fun s _ => ?_
  split
  · refine (harmless_update job _).bind fun _ _ => ?_
    exact Harmless.afterwards (harmless_invoke job request) fun r hr => harmless_afterRequest job request hr
  · exact harmless_conclude job _

theorem harmless_resumeRun (state : Scheduler.Run Invocation) (signal : Signal) :
    Harmless ((invocations job).resumeRun state signal) (Ends IsOther) := by
  unfold Scheduler.Invocations.resumeRun
  split
  · split
    · exact harmless_abandon.bind fun _ _ => .fail rfl
    · exact harmless_takeTurn job _
  · exact Harmless.afterwards (harmless_afterInvocation job.id (Invocation.harmless_resume _ signal)) fun r hr =>
      harmless_afterRequest job _ hr

theorem harmless_afterRunning
    {part : ServerAct (Step (Scheduler.Run Invocation) (Scheduler.Conclusion CompilerReport Nat))}
    (h : Harmless part (Ends IsOther)) : Harmless (afterRunning job request part) (Ends IsOther) :=
  h.andThen fun _ => .done

theorem harmless_admission : Harmless (admission job) fun _ => True := by
  have hissue : Harmless (invocations job).issue fun _ => True := by
    unfold Scheduler.Invocations.issue
    exact (harmless_scheduler job).bind fun s _ => (harmless_update job _).bind fun _ _ => .pure trivial
  unfold admission
  exact hissue.bind fun request _ => harmless_self.bind fun _ _ => (harmless_note _).bind fun _ _ => .pure trivial

theorem harmless_afterPreparing {part : ServerAct (Step Initialization Bool)} (h : Harmless part (Ends IsOther)) :
    Harmless (afterPreparing job part) (Ends IsOther) := by
  refine h.andThen fun ready => ?_
  split
  · refine .withWorkspace (.fail rfl) fun _ => (harmless_admission job).bind fun request _ => ?_
    exact harmless_afterRunning job request (.acquire (harmless_takeTurn job request))
  · exact harmless_state.bind fun _ _ => .done

theorem harmless_start (id : WorkspaceId) (settings : Settings) (entry : Option Path) :
    Harmless (start id settings entry) (Ends IsOther) := by
  unfold start
  split
  · rename_i hf
    exact .fail (Compiler.fails_entryPath settings entry _ hf)
  · exact harmless_afterPreparing _ (harmless_ensureReady id)

theorem harmless_resume (state : Compilation) (signal : Signal) : Harmless (resume state signal) (Ends IsOther) := by
  unfold resume
  split
  · exact harmless_afterPreparing _ (Initialization.harmless_resume _ signal)
  · exact harmless_afterRunning _ _ (harmless_resumeRun _ _ signal)

end Compilation

/-! ## Edits -/

namespace Edit

theorem harmless_afterCompiling {part : ServerAct (Step Compilation CompileSummary)}
    (h : Harmless part (Ends IsOther)) : Harmless (afterCompiling part) (Ends IsOther) := h.andThen fun _ => .done

theorem harmless_afterConfiguring (id : WorkspaceId) {part : ServerAct (Step SettingsLookup Settings)}
    (h : Harmless part (Ends IsOther)) : Harmless (afterConfiguring id part) (Ends IsOther) :=
  h.andThen fun settings => harmless_afterCompiling (Compilation.harmless_start id settings none)

theorem harmless_afterApplying (document : OpenDocument) {part : ServerAct (Step Applying Applied)}
    (h : Harmless part (Ends IsOther)) : Harmless (afterApplying document part) (Ends IsOther) := by
  refine h.andThen fun a => ?_
  split
  · exact harmless_afterConfiguring _ (SettingsLookup.harmless_start _)
  · exact .done

theorem harmless_start (document : OpenDocument) : Harmless (start document) (Ends IsOther) :=
  harmless_afterApplying document (Applying.harmless_start document)

theorem harmless_resume (state : Edit) {signal : Signal} (h : signal.IsHarmless) :
    Harmless (resume state signal) (Ends IsOther) := by
  unfold resume
  split
  · exact harmless_afterApplying _ (Applying.harmless_resume _ h)
  · exact harmless_afterConfiguring _ (SettingsLookup.harmless_resume _ signal)
  · exact harmless_afterCompiling (Compilation.harmless_resume _ signal)

end Edit

namespace DocumentService

theorem harmless_textOnDisk (uri : String) : Harmless (textOnDisk uri) (Fails IsOther) := by
  unfold textOnDisk
  split
  · exact .pure (.error rfl)
  · exact harmless_onDisk (failing_plainly _)

theorem harmless_currentText (uri : String) : Harmless (currentText uri) (Fails IsOther) := by
  unfold currentText
  refine harmless_state.bind fun s _ => ?_
  split
  · split
    · exact .pure (.error rfl)
    · split
      · exact .pure (.ok _)
      · exact (harmless_textOnDisk uri).bind fun r hr => .pure (hr.map some)
  · exact .pure (.ok _)

theorem harmless_opened (document : OpenDocument) : Harmless (opened document) (Ends IsOther) := by
  unfold opened
  refine harmless_self.bind fun task _ => (harmless_note _).bind fun _ _ => harmless_state.bind fun s _ => ?_
  split
  · exact .fail rfl
  · exact (harmless_setState _).bind fun _ _ => Edit.harmless_start document

theorem harmless_changed (uri : String) (version : Int) (texts : List String) :
    Harmless (changed uri version texts) (Ends IsOther) := by
  unfold changed
  refine (harmless_currentText uri).bind fun r hr => ?_
  split
  · exact .fail (hr _ rfl)
  · exact Edit.harmless_start _

theorem harmless_saved (uri : String) (text : Option String) : Harmless (saved uri text) (Ends IsOther) := by
  have hedits : ∀ text, Harmless
      (Act.state >>= fun s => Edit.start ⟨uri, ((s.documents.get? uri).map (·.version)).getD 0, text⟩)
      (Ends IsOther) := fun _ => harmless_state.bind fun _ _ => Edit.harmless_start _
  unfold saved
  cases text with
  | some text => exact hedits text
  | none =>
      refine (harmless_currentText uri).bind fun current hcurrent => ?_
      dsimp only
      split
      · exact .fail (hcurrent _ rfl)
      · exact .done
      · exact hedits _

end DocumentService

/-! ## Commands -/

namespace TargetCompile

theorem harmless_nothing : Harmless nothing (Ends IsOther) := .done

theorem harmless_afterCompiling {part : ServerAct (Step Compilation CompileSummary)}
    (h : Harmless part (Ends IsOther)) : Harmless (afterCompiling part) (Ends IsOther) := h.andThen fun _ => .done

theorem harmless_afterConfiguring (id : WorkspaceId) (entry : Option Path)
    {part : ServerAct (Step SettingsLookup Settings)} (h : Harmless part (Ends IsOther)) :
    Harmless (afterConfiguring id entry part) (Ends IsOther) :=
  h.andThen fun settings => harmless_afterCompiling (Compilation.harmless_start id settings entry)

theorem harmless_compile (uri : String) (id : WorkspaceId) : Harmless (compile uri id) (Ends IsOther) := by
  unfold compile
  split
  · exact .fail rfl
  · exact (harmless_workspace? id).bind fun _ _ => harmless_afterConfiguring id _ (SettingsLookup.harmless_start uri)

theorem harmless_afterPreparing (uri : String) (id : WorkspaceId) {part : ServerAct (Step Initialization Bool)}
    (h : Harmless part (Ends IsOther)) : Harmless (afterPreparing uri id part) (Ends IsOther) := by
  refine h.andThen fun ready => ?_
  split
  · exact harmless_compile uri id
  · exact (harmless_tell _).bind fun _ _ => harmless_nothing

theorem harmless_afterLocating (uri : String) {part : ServerAct (Step Locating WorkspaceId)}
    (h : Harmless part (Ends IsOfPlace)) : Harmless (afterLocating uri part) (Ends IsOther) := by
  refine h.afterwards fun r hr => ?_
  split
  · exact harmless_afterPreparing uri _ (harmless_ensureReady _)
  · exact (harmless_tell _).bind fun _ _ => harmless_nothing
  · rename_i f hf
    exact .fail ((hr f rfl).elim (fun h => h) fun ⟨p, hp⟩ => absurd hp (hf p))

theorem harmless_afterApplying (uri : String) {part : ServerAct (Step Applying Applied)}
    (h : Harmless part (Ends IsOther)) : Harmless (afterApplying uri part) (Ends IsOther) := by
  refine h.andThen fun a => ?_
  split
  · exact harmless_compile uri _
  · exact harmless_nothing

theorem harmless_compileTarget (target : DocumentTarget) : Harmless (compileTarget target) (Ends IsOther) := by
  unfold compileTarget
  split
  · exact harmless_afterApplying _ (Applying.harmless_start _)
  · split
    · exact .fail rfl
    · exact harmless_afterLocating _ (Locating.harmless_start _)

theorem harmless_afterChoosing (id : WorkspaceId) {part : ServerAct (Step SettingsLookup Settings)}
    (h : Harmless part (Ends IsOther)) : Harmless (afterChoosing id part) (Ends IsOther) := by
  refine h.andThen fun settings => ?_
  split
  · exact .fail rfl
  · refine (harmless_workspace? id).bind fun w? _ => harmless_state.bind fun s _ => ?_
    split
    · exact .fail rfl
    · exact harmless_compileTarget _

theorem harmless_compileFirst : Harmless compileFirst (Ends IsOther) := by
  unfold compileFirst
  refine harmless_state.bind fun s _ => ?_
  split
  · exact (harmless_tell _).bind fun _ _ => harmless_nothing
  · exact harmless_afterChoosing _ (SettingsLookup.harmless_start _)

theorem harmless_afterRestoring {part : ServerAct (Step JointInitialization (Dict String Bool))}
    (h : Harmless part (Ends IsOther)) : Harmless (afterRestoring part) (Ends IsOther) :=
  h.andThen fun _ => harmless_compileFirst

theorem harmless_start (target : Option DocumentTarget) : Harmless (start target) (Ends IsOther) := by
  unfold start
  split
  · exact harmless_compileTarget _
  · refine harmless_state.bind fun s _ => ?_
    split
    · split
      · rename_i hf
        exact .fail (isOther_of_knownFolders hf)
      · exact harmless_compileFirst
      · exact harmless_afterRestoring (JointInitialization.harmless_start _)
    · exact harmless_compileFirst

theorem harmless_resume (state : TargetCompile) {signal : Signal} (h : signal.IsHarmless) :
    Harmless (resume state signal) (Ends IsOther) := by
  unfold resume
  split
  · exact harmless_afterRestoring (JointInitialization.harmless_resume _ h)
  · exact harmless_afterChoosing _ (SettingsLookup.harmless_resume _ signal)
  · exact harmless_afterApplying _ (Applying.harmless_resume _ h)
  · exact harmless_afterLocating _ (Locating.harmless_resume _ h)
  · exact harmless_afterPreparing _ _ (Initialization.harmless_resume _ signal)
  · exact harmless_afterConfiguring _ _ (SettingsLookup.harmless_resume _ signal)
  · exact harmless_afterCompiling (Compilation.harmless_resume _ signal)

end TargetCompile

/-! ## Folders -/

namespace FolderChange

theorem harmless_afterAdding {part : ServerAct (Step JointInitialization (Dict String Bool))}
    (h : Harmless part (Ends IsOther)) : Harmless (afterAdding part) (Ends IsOther) := h.andThen fun _ => .done

theorem harmless_add (added : List Folder) : Harmless (add added) (Ends IsOther) := by
  unfold add
  split
  · exact .done
  · exact harmless_afterAdding (JointInitialization.harmless_start added)

theorem harmless_start (removed added : List Folder) : Harmless (start removed added) (Ends IsOther) := by
  induction removed with
  | nil => exact harmless_add added
  | cons folder rest ih =>
      unfold start
      exact (Removal.harmless_start folder.uri).andThen fun _ => ih

theorem harmless_resume (state : FolderChange) {signal : Signal} (h : signal.IsHarmless) :
    Harmless (resume state signal) (Ends IsOther) := by
  unfold resume
  split
  · exact (Removal.harmless_resume _ signal).andThen fun _ => harmless_start _ _
  · exact harmless_afterAdding (JointInitialization.harmless_resume _ h)

end FolderChange

/-! ## Messages -/

namespace Handling

variable {P : Failure → Prop}

theorem harmless_edited {part : ServerAct (Step Edit SyncStatus)} (h : Harmless part (Ends IsOther)) :
    Harmless (edited part) (Ends IsOther) := h.andThen fun _ => .done

theorem harmless_compileOn (method : String) (params : Value) : Harmless (compileOn method params) fun _ => True := by
  have hreturn : ∀ {part : ServerAct (Step Edit Unit)}, Harmless part (Ends IsOther) →
      Harmless (return some (← part)) fun _ => True := fun h => h.bind fun _ _ => .pure trivial
  unfold compileOn
  dsimp only
  split
  · exact hreturn (harmless_edited (DocumentService.harmless_opened _))
  · exact hreturn (harmless_edited (DocumentService.harmless_changed _ _ _))
  · exact hreturn (harmless_edited (DocumentService.harmless_saved _ _))
  · exact (harmless_closeDocument _).bind fun _ _ => .pure trivial
  · exact .pure trivial

theorem harmless_callAll (method : String) (params : Value) (names : List String) :
    Harmless (handlers.callAll method params names) (Ends IsOther) := by
  induction names with
  | nil => exact .done
  | cons name rest ih =>
      unfold Subscribers.Handlers.callAll
      refine Harmless.bind (harmless_compileOn method params) fun step? _ => ?_
      split
      · exact .waits
      · exact .fail rfl
      · exact ih

theorem harmless_distribute (method : String) (params : Value) :
    Harmless (handlers.distribute method params) (Ends IsOther) :=
  harmless_state.bind fun _ _ => harmless_callAll method params _

theorem harmless_resumeDistribution (d : Subscribers.Distribution Edit Value) {signal : Signal}
    (h : signal.IsHarmless) : Harmless (handlers.resumeDistribution d signal) (Ends IsOther) := by
  unfold Subscribers.Handlers.resumeDistribution
  refine Harmless.bind (harmless_edited (Edit.harmless_resume d.busy h)) fun step _ => ?_
  split
  · exact .waits
  · exact .fail rfl
  · exact harmless_callAll _ _ _

theorem harmless_afterDistributing {part : ServerAct (Step (Subscribers.Distribution Edit Value) Unit)}
    (h : Harmless part (Ends IsOther)) : Harmless (afterDistributing part) (Ends IsOther) := h.andThen fun _ => .done

theorem harmless_afterWelcoming {part : ServerAct (Step JointInitialization (Dict String Bool))}
    (h : Harmless part (Ends P)) : Harmless (afterWelcoming part) (Ends IsOther) := by
  refine h.afterwards fun r _ => ?_
  split
  · exact .done
  · exact .fail rfl
  · exact (harmless_modifyState _).bind fun _ _ => .done

theorem harmless_welcome : Harmless welcome (Ends IsOther) := by
  unfold welcome
  refine (harmless_modifyState _).bind fun _ _ => harmless_state.bind fun s _ => ?_
  split
  · split
    · exact harmless_afterWelcoming (JointInitialization.harmless_start _)
    · exact harmless_afterWelcoming (.fail (P := fun _ => True) trivial)
  · exact .done

theorem harmless_regardless {τ α : Type} {part : ServerAct (Step τ α)} {wrap : τ → Handling}
    (h : Harmless part (Ends P)) : Harmless (regardless part wrap) (Ends IsOther) := by
  refine h.afterwards fun r _ => ?_
  split
  · exact .fail rfl
  · exact .done

theorem harmless_afterCompiling (id : Value) {part : ServerAct (Step TargetCompile (Option CompileSummary))}
    (h : Harmless part (Ends P)) : Harmless (afterCompiling id part) (Ends IsOther) := by
  have hanswer : ∀ result : Except Failure Value, Harmless (do
      Act.wake (← Act.self) .go 0
      pure (.waits (.answering id result)) : ServerAct (Step Handling Unit)) (Ends IsOther) := fun result =>
    harmless_self.bind fun task _ => (harmless_wake_go task 0).bind fun _ _ => .waits
  refine h.afterwards fun r _ => ?_
  split
  · exact hanswer _
  · exact hanswer _
  · exact (harmless_tell _).bind fun _ _ => hanswer _

theorem harmless_request (id params : Value) : Harmless (request id params) (Ends IsOther) := by
  unfold request compile
  split
  · exact harmless_afterCompiling id (TargetCompile.harmless_start _)
  · exact harmless_afterCompiling id (.fail (P := fun _ => True) trivial)

theorem harmless_answer (id : Value) (result : Except Failure Value) : Harmless (answer id result) fun _ => True := by
  unfold answer
  split
  · exact (harmless_note _).bind fun _ _ => .pure trivial
  · exact (harmless_note _).bind fun _ _ => .pure trivial

theorem harmless_notification (method : String) (params : Value) :
    Harmless (notification method params) (Ends IsOther) := by
  unfold notification
  split
  · exact harmless_welcome
  · exact harmless_regardless (FolderChange.harmless_start _ _)
  · exact harmless_regardless (CreatedFiles.harmless_copyAll _ _)
  · split
    · exact harmless_afterDistributing (harmless_distribute _ _)
    · exact .done

theorem harmless_resume (state : Handling) {signal : Signal} (h : signal.IsHarmless) :
    Harmless (resume state signal) fun _ => True := by
  unfold resume
  split
  · exact (harmless_afterDistributing (harmless_resumeDistribution _ h)).any
  · exact (harmless_afterWelcoming (JointInitialization.harmless_resume _ h)).any
  · exact (harmless_regardless (FolderChange.harmless_resume _ h)).any
  · exact (harmless_regardless (CreatedFiles.harmless_resume _ signal)).any
  · exact (harmless_afterCompiling _ (TargetCompile.harmless_resume _ h)).any
  · exact harmless_answer _ _

end Handling

end InkServer
