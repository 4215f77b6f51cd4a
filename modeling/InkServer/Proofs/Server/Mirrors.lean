import InkServer.Proofs.Mirror.Places
import InkServer.Proofs.Server.Acts
import InkServer.Workspace.Applying
import InkServer.Workspace.Created

/-!
# How mirrors are made and written to

Each operation on the mirrors of workspaces, followed step by step up to its next wait. What such an
operation waits with, it was given by the server: mirrors that were made, and paths that lie inside.
-/

namespace InkServer

open ServerState ServerAct

variable {l : Loop ServerState Operation}

/-! ## Initializing workspaces -/

namespace Initialization

/-- What an initialization that waits was given. -/
def Fits : Initialization → ServerState → Prop
  | .creating id generation, s => s.HasBegun id generation
  | .overlaying id generation m documents, s =>
    s.HasBegun id generation ∧ m.IsMade s.policy s.disk ∧ .made id generation m ∈ s.events ∧ ∀ d ∈ documents, d.1.IsInner
  | .discardingFailed _ _ m _, s => m.IsMade s.policy s.disk
  | .discardingSuperseded _ m, s => m.IsMade s.policy s.disk
  | .deletingPrevious m, s => m.IsMade s.policy s.disk

theorem Fits.later {state : Initialization} {s s' : ServerState} (h : state.Fits s) (hl : s.Later s') :
    state.Fits s' := by
  cases state with
  | creating => exact HasBegun.later h hl
  | overlaying => exact ⟨HasBegun.later h.1 hl, h.2.1.later hl, hl.events.subset h.2.2.1, h.2.2.2⟩
  | discardingFailed | discardingSuperseded | deletingPrevious =>
      exact Mirror.IsMade.later (s := s) h hl

theorem leaves_delete (m : Mirror) (l : Loop ServerState Operation) :
    (delete m).leaves l =
      { l with state := { l.state with disk := (m.delete.run l.state.disk).2 } } := by
  unfold delete
  rw [Act.leaves_modifyGet]
  generalize m.delete.run l.state.disk = r
  rfl

theorem proceeds_delete {m : Mirror} (hm : m.IsMade l.state.policy l.state.disk) :
    Proceeds (delete m) l fun _ _ => True :=
  .of_leaves (leaves_delete m l) (.single (.works (.deletes hm))) trivial

theorem proceeds_readiness (id : WorkspaceId) : Proceeds (readiness id) l (Waits Fits) := .ends

theorem proceeds_isLatest {id : WorkspaceId} {generation : Nat} {α : Type} {f : Bool → ServerAct α}
    {post : α → ServerState → Prop} :
    Proceeds (isLatest id generation >>= f) l post ↔
      Proceeds (f (l.state.workspaces[id]?.any fun w => generation = w.initializations && w.state ≠ .removed))
        l post := Iff.rfl

/-- The latest initialization is one of a workspace that was not removed. -/
theorem eq_and_ne_removed_of_isLatest {w? : Option Workspace} {generation : Nat}
    (h : (w?.any fun w => generation = w.initializations && w.state ≠ .removed) = true) {w : Workspace}
    (hw : w? = some w) : generation = w.initializations ∧ w.state ≠ .removed := by
  subst hw
  simpa only [Option.any_some, Bool.and_eq_true, decide_eq_true_eq] using h

theorem proceeds_hasMirror (id : WorkspaceId) : Proceeds (hasMirror id) l fun there s => s = l.state ∧
    (there = .ok false → ∀ w, s.workspaces[id]? = some w → ∀ m, w.mirror = some m → m.IsMissing s.disk) := by
  unfold hasMirror
  rw [proceeds_workspace?]
  split
  · rename_i hnone
    refine .pure ⟨rfl, fun _ w hw m hm => ?_⟩
    rw [hw, Option.bind_some, hm] at hnone
    cases hnone
  · rename_i m hm
    refine (proceeds_isThere m).mono fun there s _ ⟨hs, hmissing⟩ => ⟨hs, fun hthere w hw m' hm' => ?_⟩
    rw [hs] at hw
    rw [hw, Option.bind_some, hm', Option.some_inj] at hm
    exact hm ▸ hmissing hthere

theorem proceeds_giveUp (id : WorkspaceId) (generation : Nat) (error : MirrorError) :
    Proceeds (giveUp id generation error) l (Waits Fits) := by
  have htell : ∀ l, Proceeds (do
      tell (.serverError (some error.message))
      readiness id) l (Waits Fits) :=
    fun l => (proceeds_tell _).bind fun _ _ _ _ => proceeds_readiness id
  unfold giveUp
  rw [proceeds_isLatest]
  split
  · rename_i hlatest
    refine (proceeds_hasMirror id).bind fun there l₁ _ ⟨hl₁, hmissing⟩ => ?_
    cases there with
    | error f => exact .ends
    | ok there =>
        cases there with
        | true => exact htell l₁
        | false =>
            refine Proceeds.bind (proceeds_updateWorkspace fun w hw => ?_) fun _ l₂ _ _ => htell l₂
            have hstate := (eq_and_ne_removed_of_isLatest hlatest (hl₁ ▸ hw)).2
            exact .yields hstate (hmissing rfl w hw)
  · exact proceeds_readiness id

theorem proceeds_afterFailure (id : WorkspaceId) (generation : Nat) {f : Failure}
    (hf : Mirror.Leaves l.state.policy f l.state.disk) :
    Proceeds (afterFailure id generation f) l (Waits Fits) := by
  unfold afterFailure
  split
  · rename_i e
    split
    · rename_i path hs
      have hm := hf e path rfl hs
      exact .through hm ((proceeds_delete hm).bind fun _ _ _ _ => proceeds_giveUp id generation e)
    · exact proceeds_giveUp id generation e
  · exact .ends

theorem proceeds_install (id : WorkspaceId) {generation : Nat} (hg : l.state.HasBegun id generation) {m : Mirror}
    (hm : m.IsMade l.state.policy l.state.disk) (hc : .made id generation m ∈ l.state.events) :
    Proceeds (install id generation m) l (Waits Fits) := by
  refine .of_sound fun hs => ?_
  unfold install
  rw [proceeds_isLatest]
  split
  · rename_i hlatest
    rw [proceeds_workspace?]
    obtain ⟨w, hw, _⟩ := (Option.any_eq_true _ _).mp hlatest
    obtain ⟨rfl, hstate⟩ := eq_and_ne_removed_of_isLatest hlatest hw
    refine proceeds_noting_updateWorkspace hw (.installs hstate hg.positive hm hc) fun l₁ hl _ => ?_
    split
    · rename_i previous hp
      -- The previous mirror was that of the workspace, and so it was made.
      obtain ⟨w, hw, hprev⟩ := Option.bind_eq_some_iff.mp (Option.filter_eq_some_iff.mp hp).1
      have hmade := (hs.made w (List.mem_of_getElem? hw) previous hprev).later hl.later
      exact .through hmade ((proceeds_delete hmade).bind fun _ _ _ _ => .ends)
    · exact .ends
  · rename_i hlatest
    have hovertaken : l.state.HasOvertaken id generation := ⟨hg, fun w hw he => by
      rw [hw, Option.any_some, Bool.and_eq_true, decide_eq_true_eq, decide_eq_true_eq] at hlatest
      exact Decidable.not_not.mp fun hstate => hlatest ⟨he, hstate⟩⟩
    have hnote := proceeds_note (l := l) (e := .superseded id generation m) rfl nofun fun _ _ _ he => by
      cases he
      exact hovertaken
    refine hnote.bind fun _ l₁ hl _ => ?_
    have hmade := hm.later hl.later
    exact .through hmade ((proceeds_delete hmade).bind fun _ _ _ _ => proceeds_readiness id)

theorem proceeds_writeOver (id : WorkspaceId) {generation : Nat} (hg : l.state.HasBegun id generation) {m : Mirror}
    {documents : List (Path × ByteArray)} (hm : m.IsMade l.state.policy l.state.disk)
    (hc : .made id generation m ∈ l.state.events) (hd : ∀ d ∈ documents, d.1.IsInner) :
    Proceeds (writeOver id generation m documents) l (Waits Fits) := by
  refine proceeds_withWorkspace .ends fun w _ => ?_
  refine (proceeds_onDisk (Mirror.proceeds_overlay hm w.root hd)).bind fun r l₁ hl hr => ?_
  split
  · refine proceeds_record.bind fun _ l₂ hl' _ => ?_
    have hlater := hl.later.trans hl'.later
    exact proceeds_install id (hg.later hlater) (hm.later hlater) (hlater.events.subset hc)
  · exact proceeds_afterFailure id generation hr

theorem proceeds_overlay (id : WorkspaceId) {generation : Nat} (hg : l.state.HasBegun id generation) {m : Mirror}
    (hm : m.IsMade l.state.policy l.state.disk) (hc : .made id generation m ∈ l.state.events) :
    Proceeds (overlay id generation m) l (Waits Fits) := by
  refine proceeds_withWorkspace .ends fun w _ => ?_
  rw [proceeds_state]
  dsimp only
  split
  · exact proceeds_install id hg hm hc
  · have hd : ∀ d ∈ Mirror.overlays l.state.policy w.root (l.state.openDocumentsOf id), d.1.IsInner :=
      fun _ => Mirror.isInner_of_mem_overlays
    exact .through ⟨hg, hm, hc, hd⟩ (proceeds_writeOver id hg hm hc hd)

/-- A mirror that is made is a new one. -/
theorem proceeds_makeMirror (root : Path) :
    Proceeds (makeMirror root) l fun r s =>
      (∀ m, r = .ok m → m.IsMadeSince s.policy l.state.disk s.disk ∧ s.events = l.state.events) ∧
        ∀ f, r = .error f → Mirror.Leaves s.policy f s.disk := by
  unfold makeMirror
  rw [proceeds_state]
  have hcreates : Proceeds (onDisk (Mirror.create l.state.policy root)) l fun r s => s.events = l.state.events ∧
      (∀ m index, r = .ok (m, index) → m.IsMadeSince s.policy l.state.disk s.disk) ∧
        ∀ f, r = .error f → Mirror.Leaves s.policy f s.disk := fun hs => by
    obtain ⟨hl, hc, hr⟩ := proceeds_onDisk (Mirror.proceeds_create l.state.policy root l.state.disk) hs
    refine ⟨hl, hc, rfl, fun m index he => ?_, fun f he => ?_⟩ <;> rw [he] at hr <;> exact hr
  refine hcreates.bind fun r l₁ hl ⟨he, hmade, hleaves⟩ => ?_
  cases r with
  | ok made =>
      obtain ⟨m, index⟩ := made
      refine Proceeds.bind (proceeds_modifyState
        (f := fun s : ServerState => { s with indexes := s.indexes.insert m.path index })
        (.single (.aside ⟨rfl, rfl, rfl, rfl, rfl, rfl, rfl⟩))) fun _ l₂ _ hl₂ => .pure ?_
      rw [hl₂]
      exact ⟨fun m' hm => Except.ok.inj hm ▸ ⟨hmade m index rfl, he⟩, fun f hf => by cases hf⟩
  | error f => exact .pure ⟨nofun, fun f' hf' => Except.error.inj hf' ▸ hleaves f rfl⟩

theorem proceeds_create (id : WorkspaceId) {generation : Nat} (hg : l.state.HasBegun id generation) :
    Proceeds (create id generation) l (Waits Fits) := by
  refine .of_sound fun hs => proceeds_withWorkspace .ends fun w _ => ?_
  refine (proceeds_makeMirror w.root).bind fun r l₁ hl₁ hr => ?_
  split
  · rename_i m
    obtain ⟨hm, he⟩ := hr.1 m rfl
    have hnew : l₁.state.IsUnclaimed m := ⟨hm.isMade, fun id' generation' hc => ?_⟩
    · refine (proceeds_note (e := .made id generation m) rfl (fun _ _ _ he => ?_) nofun).bind fun _ l₂ hl hl₂ => ?_
      · cases he
        exact hnew
      · exact proceeds_overlay id (hg.later (hl₁.later.trans hl.later)) (hm.isMade.later hl.later)
          (hl₂ ▸ List.mem_append_right _ (List.mem_singleton_self _))
    · exact (hl₁.later.policy ▸ hm).not_isMade (hs.claimed id' generation' m (he ▸ hc))
  · exact proceeds_afterFailure id generation (hr.2 _ rfl)

theorem proceeds_start (id : WorkspaceId) : Proceeds (start id) l (Waits Fits) := by
  refine proceeds_withWorkspace .ends fun w hw => ?_
  split
  · exact .ends
  · rename_i hstate
    exact proceeds_noting_updateWorkspace hw (.begins hstate) fun l₁ hl hmem => by
      have hg : l₁.state.HasBegun id (w.initializations + 1) := ⟨Nat.succ_pos _, w.mirror, hmem⟩
      exact .through hg (proceeds_create id hg)

theorem proceeds_resume {state : Initialization} (h : state.Fits l.state) (signal : Signal) :
    Proceeds (resume state signal) l (Waits Fits) := by
  unfold resume
  split
  · split
    · exact proceeds_create _ h
    · exact proceeds_writeOver _ h.1 h.2.1 h.2.2.1 h.2.2.2
    · exact (proceeds_delete h).bind fun _ _ _ _ => proceeds_giveUp _ _ _
    · exact (proceeds_delete h).bind fun _ _ _ _ => proceeds_readiness _
    · exact (proceeds_delete h).bind fun _ _ _ _ => .ends
  · exact .ends

end Initialization

/-! ## Several workspaces at once -/

namespace JointInitialization

theorem proceeds_register (folder : Folder) : Proceeds (register folder) l fun _ _ => True := by
  unfold register
  rw [proceeds_state]
  split
  · exact .pure trivial
  · rename_i hr
    split
    · exact .pure trivial
    · rename_i w hf
      exact (proceeds_setState (.single (.registers hf hr))).bind fun _ _ _ _ => .pure trivial

theorem proceeds_registerAll (folders : List Folder) :
    Proceeds (registerAll folders) l fun _ _ => True := by
  induction folders generalizing l with
  | nil => exact .pure trivial
  | cons folder rest ih =>
      unfold registerAll
      refine (proceeds_register folder).bind fun r l₁ _ _ => ?_
      split
      · exact .pure trivial
      · exact ih.bind fun _ _ _ _ => .pure trivial

theorem proceeds_start (folders : List Folder) : Proceeds (start folders) l (Waits Bare) := by
  unfold start
  refine (proceeds_registerAll folders).bind fun r l₁ _ _ => ?_
  split
  · exact .ends
  · rw [proceeds_state]
    refine .gather (fun o ho => ?_) (fun _ _ => trivial) fun _ _ => .ends
    obtain ⟨id, _, rfl⟩ := List.mem_map.mp ho
    rfl

theorem proceeds_resume (state : JointInitialization) (signal : Signal) :
    Proceeds (resume state signal) l (Waits Bare) := by
  unfold resume
  split <;> exact .ends

end JointInitialization

/-! ## Finding the workspace of a document -/

namespace Locating

theorem proceeds_look (path : Path) :
    Proceeds (look path : ServerAct (Step Locating WorkspaceId)) l (Waits Bare) := by
  unfold look
  rw [proceeds_state]
  split <;> exact .ends

theorem proceeds_afterRestoring (path : Path)
    {part : ServerAct (Step JointInitialization (Dict String Bool))}
    (h : Proceeds part l (Waits Bare)) :
    Proceeds (afterRestoring path part) l (Waits Bare) :=
  h.andThen (fun _ _ _ => trivial) fun _ _ _ => proceeds_look path

theorem proceeds_start (path : Path) : Proceeds (start path) l (Waits Bare) := by
  unfold start
  rw [proceeds_state]
  split
  · exact .ends
  · split
    · exact .ends
    · exact proceeds_look path
    · exact proceeds_afterRestoring path (JointInitialization.proceeds_start _)

theorem proceeds_resume (state : Locating) (signal : Signal) :
    Proceeds (resume state signal) l (Waits Bare) :=
  proceeds_afterRestoring _ (JointInitialization.proceeds_resume _ _)

end Locating

/-- The directory of a mirror is found to be missing. -/
theorem leads_misses {s : ServerState} {id : WorkspaceId} {w : Workspace} {m : Mirror}
    (hw : s.workspaces[id]? = some w) (hm : w.mirror = some m) (hd : m.IsMissing s.disk)
    (hu : w.state ≠ .uninitialized) (hp : w.state ≠ .mirrorPending) :
    Leads s { s with
      workspaces := s.workspaces.modify id fun w => w.enter .mirrorPending
      events := s.events ++ [.missed id] } := by
  rw [← moved_eq_modify hw]
  exact .single (.turns hw (.misses hm hd hu hp))

/-- A workspace is tried again while its mirror is pending or missing. -/
theorem proceeds_ensureReady (id : WorkspaceId) :
    Proceeds (ensureReady id) l (Waits Initialization.Fits) := by
  refine proceeds_withWorkspace .ends fun w hw => ?_
  split
  · exact .ends
  · exact Initialization.proceeds_start id
  · rename_i hu hp
    split
    · exact .ends
    · rename_i m hm
      refine (proceeds_isThere m).bind fun there l₁ _ ⟨hl₁, hmissing⟩ => ?_
      split
      · exact .ends
      · exact .ends
      · rw [← hl₁] at hw
        have hmisses : Proceeds (do
            note (.missed id)
            updateWorkspace id fun w => w.enter .mirrorPending) l₁ fun _ _ => True :=
          .of_leaves rfl (leads_misses hw hm (hmissing rfl) hu hp) trivial
        exact hmisses.bind fun _ l₂ _ _ => Initialization.proceeds_start id

/-! ## Writing into mirrors -/

/-- The lock of a mirror may change hands at any time. -/
theorem leads_writingLock (s : ServerState) (id : WorkspaceId) (lock : Lock) :
    Leads s ((writingLock id).set lock s) := leads_modify fun _ _ => .writes lock

namespace DocumentWrite

/-- What a write that waits was given. -/
def Fits : DocumentWrite → ServerState → Prop
  | .queued _ m relative _, s | .writing _ m relative _, s => m.IsMade s.policy s.disk ∧ relative.IsInner

theorem Fits.later {state : DocumentWrite} {s s' : ServerState} (h : state.Fits s) (hl : s.Later s') :
    state.Fits s' := by
  cases state <;> exact ⟨h.1.later hl, h.2⟩

theorem proceeds_finish {τ α : Type} {fits : τ → ServerState → Prop} (id : WorkspaceId)
    (r : Except Failure α) : Proceeds (finish id r : ServerAct (Step τ α)) l (Waits fits) :=
  (proceeds_unlock (leads_writingLock _ id)).bind fun _ _ _ _ => .ends

theorem proceeds_write (id : WorkspaceId) {m : Mirror} {relative : Path} (content : ByteArray)
    (hm : m.IsMade l.state.policy l.state.disk) (hr : relative.IsInner) :
    Proceeds (write id m relative content) l (Waits Fits) := by
  unfold write
  refine (proceeds_onDisk (Mirror.proceeds_update hm hr content)).bind fun r l₁ _ _ => ?_
  split
  · exact proceeds_record.bind fun _ _ _ _ => proceeds_finish id _
  · exact proceeds_finish id _

theorem proceeds_takeTurn (id : WorkspaceId) {m : Mirror} {relative : Path} (content : ByteArray)
    (hm : m.IsMade l.state.policy l.state.disk) (hr : relative.IsInner) :
    Proceeds (takeTurn id m relative content) l (Waits Fits) := by
  unfold takeTurn
  rw [proceeds_index]
  refine (proceeds_onDisk_of_looks (Mirror.looks_isUpToDate m _ relative content)).bind fun r l₁ hl _ => ?_
  split
  · exact proceeds_finish id _
  · exact proceeds_finish id _
  · exact .through ⟨hm.later hl.later, hr⟩ (proceeds_write id content (hm.later hl.later) hr)

theorem proceeds_start (id : WorkspaceId) (path : Path) (content : ByteArray) :
    Proceeds (start id path content) l (Waits Fits) := by
  refine .of_sound fun hs => proceeds_withWorkspace .ends fun w hw => ?_
  split
  · exact .ends
  · rename_i m hm
    have hmade := hs.made w (List.mem_of_getElem? hw) m hm
    rw [proceeds_state]
    split
    · exact .ends
    · rename_i relative hr
      have hinner := Mirror.isInner_of_checkedRelative hr
      exact .acquire (leads_writingLock _ id) (fun _ hl => ⟨hmade.later hl.later, hinner⟩) fun _ hl =>
        proceeds_takeTurn id content (hmade.later hl.later) hinner

theorem proceeds_resume {state : DocumentWrite} (h : state.Fits l.state) (signal : Signal) :
    Proceeds (resume state signal) l (Waits Fits) := by
  unfold resume
  split
  · exact proceeds_takeTurn _ _ h.1 h.2
  · exact (proceeds_abandon (leads_writingLock _ _)).bind fun _ _ _ _ => .ends
  · exact proceeds_write _ _ h.1 h.2
  · exact proceeds_finish _ _

end DocumentWrite

/-! ## Created files -/

namespace CreatedCopy

/-- What a copy that waits was given. -/
def Fits : CreatedCopy → ServerState → Prop
  | .queued _ m _, s | .copying _ m _, s => m.IsMade s.policy s.disk

theorem Fits.later {state : CreatedCopy} {s s' : ServerState} (h : state.Fits s) (hl : s.Later s') :
    state.Fits s' := by
  cases state <;> exact Mirror.IsMade.later (s := s) h hl

theorem proceeds_copy (id : WorkspaceId) {m : Mirror} (path : Path)
    (hm : m.IsMade l.state.policy l.state.disk) : Proceeds (copy id m path) l (Waits Fits) := by
  refine proceeds_withWorkspace .ends fun w _ => ?_
  rw [proceeds_state]
  refine (proceeds_onDisk (Mirror.proceeds_copyCreated hm w.root path)).bind fun r l₁ _ _ => ?_
  cases r with
  | ok entries => exact proceeds_record.bind fun _ _ _ _ => DocumentWrite.proceeds_finish id _
  | error f => exact DocumentWrite.proceeds_finish id _

theorem proceeds_takeTurn (id : WorkspaceId) {m : Mirror} (path : Path)
    (hm : m.IsMade l.state.policy l.state.disk) : Proceeds (takeTurn id m path) l (Waits Fits) :=
  .through hm (proceeds_copy id path hm)

theorem proceeds_start (id : WorkspaceId) (path : Path) :
    Proceeds (start id path) l (Waits Fits) := by
  refine .of_sound fun hs => proceeds_withWorkspace .ends fun w hw => ?_
  split
  · exact .ends
  · rename_i m hm
    have hmade := hs.made w (List.mem_of_getElem? hw) m hm
    exact .acquire (leads_writingLock _ id) (fun _ hl => hmade.later hl.later) fun _ hl =>
      proceeds_takeTurn id path (hmade.later hl.later)

theorem proceeds_resume {state : CreatedCopy} (h : state.Fits l.state) (signal : Signal) :
    Proceeds (resume state signal) l (Waits Fits) := by
  unfold resume
  split
  · exact proceeds_takeTurn _ _ h
  · exact (proceeds_abandon (leads_writingLock _ _)).bind fun _ _ _ _ => .ends
  · exact proceeds_copy _ _ h
  · exact DocumentWrite.proceeds_finish _ _

end CreatedCopy

namespace CreatedFiles

/-- What copies that wait were given. -/
def Fits (state : CreatedFiles) (s : ServerState) : Prop := state.copying.Fits s

theorem proceeds_examine (path : Path) : Proceeds (examine path) l fun _ _ => True := by
  unfold examine
  rw [proceeds_state]
  split
  · exact (proceeds_tell _).bind fun _ _ _ _ => .pure trivial
  · rw [proceeds_workspace?]
    split
    · exact .pure trivial
    · have hlooks : Work.Looks (DiskWork.plainly (FileWork.isDirectory path)) :=
        DiskWork.looks_telling (FileWork.looks_holds _ _)
      refine (proceeds_onDisk_of_looks hlooks).bind fun r l₁ _ _ => ?_
      split
      · exact .pure trivial
      · split <;> exact .pure trivial

theorem proceeds_copyAll (results : Dict Path SyncStatus) (paths : List Path) :
    Proceeds (copyAll results paths) l (Waits Fits) := by
  induction paths generalizing results l with
  | nil => exact .ends
  | cons path rest ih =>
      unfold copyAll
      refine (proceeds_examine path).bind fun r l₁ _ _ => ?_
      split
      · exact .ends
      · exact ih _
      · refine (CreatedCopy.proceeds_start _ path).bind fun step l₂ _ hstep => ?_
        split
        · exact .pure hstep
        · split
          · exact .ends
          · exact ih _

theorem proceeds_resume {state : CreatedFiles} (h : state.Fits l.state) (signal : Signal) :
    Proceeds (resume state signal) l (Waits Fits) := by
  unfold resume
  refine (CreatedCopy.proceeds_resume h signal).bind fun step l₁ _ hstep => ?_
  split
  · exact .pure hstep
  · split
    · exact .ends
    · exact proceeds_copyAll _ _

end CreatedFiles

/-! ## Taking in documents -/

namespace Applying

/-- What a document that waits to be taken in was given. -/
def Fits : Applying → ServerState → Prop
  | .locating _ _, _ => True
  | .preparing _ _ _ state, s => state.Fits s
  | .writing _ state, s => state.Fits s

theorem Fits.later {state : Applying} {s s' : ServerState} (h : state.Fits s) (hl : s.Later s') :
    state.Fits s' := by
  cases state with
  | locating => trivial
  | preparing => exact Initialization.Fits.later h hl
  | writing => exact DocumentWrite.Fits.later h hl

theorem proceeds_afterWriting (id : WorkspaceId) {part : ServerAct (Step DocumentWrite MirrorEntry)}
    (h : Proceeds part l (Waits DocumentWrite.Fits)) :
    Proceeds (afterWriting id part) l (Waits Fits) := by
  refine h.afterwards (fun _ _ h => h) fun r l₁ _ => ?_
  split
  · rw [proceeds_self]
    exact (proceeds_noteCasually rfl).bind fun _ _ _ _ => .ends
  · exact (proceeds_tell _).bind fun _ _ _ _ => .ends
  · exact .ends

theorem proceeds_afterPreparing (document : OpenDocument) (path : Path) (id : WorkspaceId)
    {part : ServerAct (Step Initialization Bool)} (h : Proceeds part l (Waits Initialization.Fits)) :
    Proceeds (afterPreparing document path id part) l (Waits Fits) := by
  refine h.andThen (fun _ _ h => h) fun ready l₁ _ => ?_
  split
  · exact .ends
  · rw [proceeds_workspace?]
    split
    · exact .ends
    · exact proceeds_afterWriting id (DocumentWrite.proceeds_start id _ _)

theorem proceeds_afterLocating (document : OpenDocument) (path : Path)
    {part : ServerAct (Step Locating WorkspaceId)} (h : Proceeds part l (Waits Bare)) :
    Proceeds (afterLocating document path part) l (Waits Fits) := by
  refine h.afterwards (fun _ _ _ => trivial) fun r l₁ _ => ?_
  split
  · exact proceeds_afterPreparing document path _ (proceeds_ensureReady _)
  · exact (proceeds_tell _).bind fun _ _ _ _ => .ends
  · exact .ends

theorem proceeds_start (document : OpenDocument) : Proceeds (start document) l (Waits Fits) := by
  have hnote := proceeds_noteCasually (l := l) (e := .received l.current document) rfl
  unfold start
  rw [proceeds_self, proceeds_note_state]
  cases hp : Uri.toPath document.uri with
  | error e => exact hnote.bind fun _ _ _ _ => .ends
  | ok path =>
      dsimp only
      cases hc : l.state.documents.change document with
      | error e => exact hnote.bind fun _ _ _ _ => .ends
      | ok r =>
          dsimp only
          rw [proceeds_note_setState]
          refine (proceeds_setState (.single (.receives l.current hc))).bind fun _ l₁ _ _ => ?_
          split
          · exact proceeds_afterLocating document path (Locating.proceeds_start path)
          · exact .ends

theorem proceeds_resume {state : Applying} (h : state.Fits l.state) (signal : Signal) :
    Proceeds (resume state signal) l (Waits Fits) := by
  unfold resume
  split
  · exact proceeds_afterLocating _ _ (Locating.proceeds_resume _ _)
  · exact proceeds_afterPreparing _ _ _ (Initialization.proceeds_resume h signal)
  · exact proceeds_afterWriting _ (DocumentWrite.proceeds_resume h signal)

end Applying

end InkServer
