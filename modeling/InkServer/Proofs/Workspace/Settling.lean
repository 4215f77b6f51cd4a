import InkServer.Proofs.Mirror.Calls
import InkServer.Proofs.Mirror.Changes
import InkServer.Proofs.Task.Alone
import InkServer.Workspace.Created

/-!
# Settling created paths

What a task that is alone does with created paths comes down to work on the disk: the paths are settled one after
the other, and nothing else changes.
-/

namespace InkServer

open Work ServerAct DiskWork

namespace ServerState

variable {s s' : ServerState} {path root : Path} {m : Mirror} {id : WorkspaceId}

/-- The mirror of a ready workspace, and the root that it mirrors. -/
def readyMirror? (s : ServerState) (id : WorkspaceId) : Option (Mirror × Path) :=
  (s.workspaces[id]?.filter Workspace.isReady).bind fun w => w.mirror.map fun m => (m, w.root)

/-- Where a created path is to be copied, or what becomes of it otherwise. -/
def destination (s : ServerState) (path : Path) : Except SyncStatus (Mirror × Path) :=
  match s.findWorkspace path with
  | none => .error .unknownWorkspace
  | some id =>
    match s.readyMirror? id with
    | none => .error .notReady
    | some target => .ok target

/-- Says what becomes of a created path, which is copied if a workspace is ready for it. -/
def settle (s : ServerState) (path : Path) : DiskWork SyncStatus :=
  match s.destination path with
  | .error status => pure status
  | .ok (m, root) => do
    let isDirectory ← plainly (FileWork.isDirectory path)
    if !isDirectory && !s.policy.isSource path then pure .failed
    else ExceptT.mk (CreatedFiles.statusAfter <$> (m.copyCreated s.policy root path).run)

/-- Says what becomes of created paths, one after the other. -/
def settleAll (s : ServerState) (results : Dict Path SyncStatus) : List Path → DiskWork (Dict Path SyncStatus)
  | [] => pure results
  | path :: rest => do
    let status ← s.settle path
    s.settleAll (results.insert path status) rest

theorem readyMirror?_eq_some_iff : s.readyMirror? id = some (m, root) ↔
    ∃ w, s.workspaces[id]? = some w ∧ w.isReady ∧ w.mirror = some m ∧ w.root = root := by
  unfold readyMirror?
  simp only [Option.bind_eq_some_iff, Option.filter_eq_some_iff, Option.map_eq_some_iff, Prod.mk.injEq]
  constructor
  · rintro ⟨w, ⟨hw, hready⟩, _, hm, rfl, hroot⟩
    exact ⟨w, hw, hready, hm, hroot⟩
  · rintro ⟨w, hw, hready, hm, hroot⟩
    exact ⟨w, ⟨hw, hready⟩, m, hm, rfl, hroot⟩

theorem readyMirror?_eq_none_iff : s.readyMirror? id = none ↔ s.workspaces[id]?.any Workspace.isReady = false := by
  unfold readyMirror?
  cases hw : s.workspaces[id]? with
  | none => simp
  | some w =>
      cases hready : w.isReady with
      | false => simp [hready]
      | true =>
          have hm : w.mirror.isSome := by
            unfold Workspace.isReady at hready
            exact (Bool.and_eq_true_iff.mp hready).1
          simp [hready, Option.isSome_iff_ne_none.mp hm]

theorem exists_of_destination (h : s.destination path = .ok (m, root)) :
    ∃ id, s.findWorkspace path = some id ∧ s.readyMirror? id = some (m, root) := by
  unfold destination at h
  split at h
  · cases h
  · rename_i id hfind
    split at h
    · cases h
    · rename_i hready
      cases h
      exact ⟨id, hfind, hready⟩

/-- What copies of created paths leave as it is besides the disk. -/
structure SameRegistry (s s' : ServerState) : Prop where
  policy : s'.policy = s.policy
  registered : s'.registered = s.registered
  workspaces : s'.workspaces = s.workspaces

theorem SameRegistry.refl : s.SameRegistry s := ⟨rfl, rfl, rfl⟩

theorem SameRegistry.trans {s'' : ServerState} (h : s.SameRegistry s') (h' : s'.SameRegistry s'') :
    s.SameRegistry s'' :=
  ⟨h'.policy.trans h.policy, h'.registered.trans h.registered, h'.workspaces.trans h.workspaces⟩

theorem SameRegistry.settle (h : s.SameRegistry s') (path : Path) : s'.settle path = s.settle path := by
  have hfind : s'.findWorkspace path = s.findWorkspace path := by
    unfold findWorkspace registeredWorkspaces
    rw [h.registered, h.workspaces]
  have hready : ∀ id, s'.readyMirror? id = s.readyMirror? id := fun id => by
    unfold readyMirror?
    rw [h.workspaces]
  unfold ServerState.settle destination
  simp only [hfind, hready, h.policy]

theorem SameRegistry.settleAll (h : s.SameRegistry s') (results : Dict Path SyncStatus) (paths : List Path) :
    s'.settleAll results paths = s.settleAll results paths := by
  induction paths generalizing results with
  | nil => rfl
  | cons path rest ih =>
      unfold ServerState.settleAll
      rw [h.settle]
      exact congrArg (s.settle path >>= ·) (funext fun status => ih _)

/-- Work on the disk was done, and nothing else that matters to created paths. -/
structure Did {α : Type} (s : ServerState) (work : DiskWork α) (r : Except Failure α) (s' : ServerState) : Prop where
  returns : r = returns work s.disk
  disk : s'.disk = leaves work s.disk
  same : s.SameRegistry s'

section Did

variable {α β : Type} {s'' : ServerState} {work : DiskWork β} {next : β → DiskWork α} {r : Except Failure α}

theorem did_pure (hd : s'.disk = s.disk) (hs : s.SameRegistry s') (a : α) : s.Did (pure a) (.ok a) s' := ⟨rfl, hd, hs⟩

theorem Did.bind {b : β} (h : s.Did work (.ok b) s') (h' : s'.Did (next b) r s'') : s.Did (work >>= next) r s'' := by
  refine ⟨?_, ?_, h.same.trans h'.same⟩
  · rw [returns_bind, ← h.returns]
    exact h.disk ▸ h'.returns
  · rw [leaves_bind, ← h.returns]
    exact h.disk ▸ h'.disk

theorem Did.bind_error {f : Failure} (h : s.Did work (.error f) s') : s.Did (work >>= next) (.error f) s' := by
  refine ⟨?_, ?_, h.same⟩
  · rw [returns_bind, ← h.returns]
  · rw [leaves_bind, ← h.returns]
    exact h.disk

theorem Did.map {r : Except Failure β} (f : Except Failure β → Except Failure α) (h : s.Did work r s') :
    s.Did (ExceptT.mk (f <$> work.run)) (f r) s' := ⟨congrArg f h.returns, h.disk, h.same⟩

/-- Asking about a path leaves everything as it is. -/
theorem did_looks (h : Looks work) : s.Did work (returns work s.disk) s := ⟨rfl, (h _).symm, .refl⟩

end Did

end ServerState

variable {l : Loop ServerState Operation} {m : Mirror} {id : WorkspaceId} {path root : Path} {w : Workspace}

namespace CreatedCopy

/-- The lock of a workspace is taken and given back. -/
theorem set_writingLock (s : ServerState) (h : s.workspaces[id]? = some w) (hfree : w.writing = {}) (lock : Lock) :
    (writingLock id).set {} ((writingLock id).set lock s) = s := by
  have hworkspaces : (s.workspaces.modify id fun w => { w with writing := lock }).modify id
      (fun w => { w with writing := {} }) = s.workspaces := by
    refine List.ext_getElem? fun i => ?_
    rw [List.getElem?_modify, List.getElem?_modify]
    by_cases hi : id = i
    · subst hi
      simp [h, ← hfree]
    · simp [hi]
  simp only [writingLock, hworkspaces]

theorem get_writingLock {s : ServerState} (h : s.workspaces[id]? = some w) : (writingLock id).get s = w.writing := by
  simp [writingLock, h]

section holding

variable {s : ServerState} {task : TaskId} (hw : s.workspaces[id]? = some w) (hfree : w.writing = {})

include hw

theorem workspace_of_holding (lock : Lock) :
    ((writingLock id).set lock s).workspaces[id]? = some { w with writing := lock } := by
  simp [writingLock, hw]

include hfree

/-- Work that was done under the lock ends with giving the lock back. -/
theorem settles_finish {work : DiskWork (List MirrorEntry)}
    (hs : ((writingLock id).set { holder := some task } s).SameRegistry l.state)
    (hd : l.state.disk = leaves work s.disk) :
    Act.Settles (CreatedCopy.resume · .go) Eq (s.Did work)
      (DocumentWrite.finish id (returns work s.disk) : ServerAct (Step CreatedCopy (List MirrorEntry))) l := by
  have hget : (writingLock id).get l.state = { holder := some task } := by
    have hlocked := workspace_of_holding hw { holder := some task }
    rw [← hs.workspaces] at hlocked
    exact get_writingLock hlocked
  unfold DocumentWrite.finish
  refine Act.Settles.bind ?_ ?_
  · refine Act.settles_ends ⟨rfl, ?_, ?_⟩
    · rw [Act.leaves_unlock]
      exact hd
    · rw [Act.leaves_unlock, hget]
      have hback := set_writingLock s hw hfree { holder := some task }
      refine ⟨hs.policy, hs.registered, ?_⟩
      refine Eq.trans ?_ (congrArg ServerState.workspaces hback)
      show (l.state.workspaces.modify id _) = _
      rw [hs.workspaces]
      rfl
  · rw [Act.leaves_unlock, hget]
    exact ⟨rfl, rfl, List.append_nil _⟩

/-- A copy whose turn has come does its work and gives the lock back. -/
theorem settles_copy (hl : l.state = (writingLock id).set { holder := some task } s) :
    Act.Settles (CreatedCopy.resume · .go) Eq (s.Did (m.copyCreated s.policy w.root path)) (copy id m path) l := by
  have hreturns : (workspace? id).returns l = some { w with writing := { holder := some task } } := by
    show l.state.workspaces[id]? = _
    rw [hl, workspace_of_holding hw]
  have hleaves : (workspace? id).leaves l = l := rfl
  have hpolicy : l.state.policy = s.policy := hl ▸ rfl
  have hdisk : l.state.disk = s.disk := hl ▸ rfl
  unfold copy withWorkspace
  refine Act.Settles.bind ?_ (.refl l)
  rw [hreturns, hleaves]
  refine .bind ?_ (.refl l)
  refine .bind ?_ ⟨rfl, rfl, rfl⟩
  rw [Mirror.returns_onDisk, Mirror.leaves_onDisk, Act.returns_state, Act.leaves_state, hpolicy, hdisk]
  have hsame : ∀ disk indexes, ((writingLock id).set { holder := some task } s).SameRegistry
      { l.state with disk, indexes } := fun disk indexes => hl ▸ ⟨rfl, rfl, rfl⟩
  split
  · exact .bind (settles_finish hw hfree (hsame _ _) rfl) ⟨rfl, rfl, rfl⟩
  · exact settles_finish hw hfree (hsame _ _) rfl

end holding

/-- A copy that takes turns with nobody does its work. -/
theorem settles_start (hw : l.state.workspaces[id]? = some w) (hm : w.mirror = some m) (hfree : w.writing = {}) :
    Act.Settles (CreatedCopy.resume · .go) Eq (l.state.Did (m.copyCreated l.state.policy w.root path))
      (start id path) l := by
  have hreturns : (workspace? id).returns l = some w := hw
  unfold start withWorkspace
  refine Act.Settles.bind ?_ (.refl l)
  rw [hreturns]
  dsimp only
  rw [hm]
  refine Act.settles_acquire ((get_writingLock hw).trans hfree) ?_
  unfold takeTurn
  exact Act.settles_through rfl rfl fun l' hl' => settles_copy hw hfree hl'.symm

end CreatedCopy

namespace CreatedFiles

/-- A path that no workspace is ready to copy is settled at once. -/
theorem examine_of_error {status : SyncStatus} (h : l.state.destination path = .error status) :
    (examine path).returns l = .ok (.inl status) ∧ l.Quiet ((examine path).leaves l) ∧
      l.state.Did (l.state.settle path) (.ok status) ((examine path).leaves l).state := by
  unfold ServerState.settle
  rw [h]
  unfold examine
  rw [Act.returns_bind, Act.leaves_bind, Act.returns_state, Act.leaves_state]
  cases hfind : l.state.findWorkspace path with
  | none =>
      unfold ServerState.destination at h
      rw [hfind] at h
      cases h
      exact ⟨rfl, ⟨rfl, rfl, rfl⟩, rfl, rfl, rfl, rfl, rfl⟩
  | some id =>
      unfold ServerState.destination at h
      rw [hfind] at h
      cases hready : l.state.readyMirror? id with
      | none =>
          have hnot : ((workspace? id).returns l).any Workspace.isReady = false :=
            ServerState.readyMirror?_eq_none_iff.mp hready
          dsimp only at h
          rw [hready] at h
          cases h
          dsimp only
          rw [Act.returns_bind, Act.leaves_bind, hnot]
          exact ⟨rfl, .refl l, ServerState.did_pure rfl .refl _⟩
      | some target =>
          dsimp only at h
          rw [hready] at h
          cases h

/-- A path that a workspace is ready to copy is first asked about. -/
theorem examine_of_ok (h : l.state.destination path = .ok (m, root)) :
    ∃ id, l.state.readyMirror? id = some (m, root) ∧ (examine path).leaves l = l ∧
      (examine path).returns l = match returns (plainly (FileWork.isDirectory path)) l.state.disk with
        | .error f => .error f
        | .ok isDirectory =>
          if !isDirectory && !l.state.policy.isSource path then .ok (.inl .failed) else .ok (.inr id) := by
  obtain ⟨id, hfind, hready⟩ := ServerState.exists_of_destination h
  obtain ⟨w, hw, hisReady, -⟩ := ServerState.readyMirror?_eq_some_iff.mp hready
  refine ⟨id, hready, ?_⟩
  have hgoes : ((workspace? id).returns l).any Workspace.isReady = true := by
    show l.state.workspaces[id]?.any _ = true
    rw [hw]
    exact hisReady
  have hsame : (workspace? id).leaves l = l := rfl
  have hlooks : leaves (plainly (FileWork.isDirectory path)) l.state.disk = l.state.disk :=
    looks_telling (FileWork.looks_holds _ _) _
  unfold examine
  rw [Act.returns_bind, Act.leaves_bind, Act.returns_state, Act.leaves_state, hfind]
  dsimp only
  rw [Act.returns_bind, Act.leaves_bind, hgoes, if_neg (by decide), Act.returns_bind, Act.leaves_bind,
    Mirror.returns_onDisk, Mirror.leaves_onDisk, hsame, hlooks]
  cases returns (plainly (FileWork.isDirectory path)) l.state.disk with
  | error f => exact ⟨rfl, rfl⟩
  | ok there =>
      dsimp only
      split <;> exact ⟨rfl, rfl⟩

section Did

variable {s s' s'' : ServerState} {isDirectory : Bool} {f : Failure} {status : SyncStatus} {rest : List Path}
  {results : Dict Path SyncStatus}

theorem settle_of_ok (h : s.destination path = .ok (m, root)) : s.settle path = (do
    let isDirectory ← plainly (FileWork.isDirectory path)
    if !isDirectory && !s.policy.isSource path then pure .failed
    else ExceptT.mk (statusAfter <$> (m.copyCreated s.policy root path).run)) := by
  unfold ServerState.settle
  rw [h]

theorem did_isDirectory (s : ServerState) (path : Path) :
    s.Did (plainly (FileWork.isDirectory path)) (returns (plainly (FileWork.isDirectory path)) s.disk) s :=
  ServerState.did_looks (looks_telling (FileWork.looks_holds _ _))

/-- A path that cannot be asked about. -/
theorem did_settle_error (h : s.destination path = .ok (m, root))
    (hd : returns (plainly (FileWork.isDirectory path)) s.disk = .error f) : s.Did (s.settle path) (.error f) s := by
  rw [settle_of_ok h]
  exact (hd ▸ did_isDirectory s path).bind_error

/-- A path that is neither a directory nor a source file. -/
theorem did_settle_failed (h : s.destination path = .ok (m, root))
    (hd : returns (plainly (FileWork.isDirectory path)) s.disk = .ok isDirectory)
    (hnot : (!isDirectory && !s.policy.isSource path) = true) : s.Did (s.settle path) (.ok .failed) s := by
  rw [settle_of_ok h]
  refine (hd ▸ did_isDirectory s path).bind ?_
  rw [if_pos hnot]
  exact ServerState.did_pure rfl .refl _

/-- A path that is copied. -/
theorem did_settle_copied (h : s.destination path = .ok (m, root))
    (hd : returns (plainly (FileWork.isDirectory path)) s.disk = .ok isDirectory)
    (hnot : ¬(!isDirectory && !s.policy.isSource path) = true) {r : Except Failure (List MirrorEntry)}
    (hr : s.Did (m.copyCreated s.policy root path) r s') : s.Did (s.settle path) (statusAfter r) s' := by
  rw [settle_of_ok h]
  refine (hd ▸ did_isDirectory s path).bind ?_
  rw [if_neg hnot]
  exact hr.map statusAfter

/-- What is settled first, and then the rest. -/
theorem did_settleAll_cons {r : Except Failure (Dict Path SyncStatus)} (h : s.Did (s.settle path) (.ok status) s')
    (h' : s'.Did (s'.settleAll (results.insert path status) rest) r s'') :
    s.Did (s.settleAll results (path :: rest)) r s'' := by
  rw [h.same.settleAll] at h'
  exact h.bind h'

end Did

/-- Goes on with the rest once a copy has ended. -/
def goOn (path : Path) (rest : List Path) (results : Dict Path SyncStatus) (r : Except Failure (List MirrorEntry)) :
    ServerAct (Step CreatedFiles (Dict Path SyncStatus)) :=
  match statusAfter r with
  | .error f => pure (.fail f)
  | .ok status => copyAll (results.insert path status) rest

theorem resume_copying (path : Path) (rest : List Path) (results : Dict Path SyncStatus) (state : CreatedCopy) :
    resume ⟨path, rest, results, state⟩ .go =
      Act.afterwards (CreatedCopy.resume state .go) (fun state => ⟨path, rest, results, state⟩)
        (goOn path rest results) := by
  unfold resume Act.afterwards
  refine congrArg (CreatedCopy.resume state .go >>= ·) (funext fun step => ?_)
  cases step <;> rfl

/-- A task that is alone settles created paths one after the other, and does nothing else. -/
theorem settles_copyAll (hfree : ∀ w ∈ l.state.workspaces, w.writing = {}) (results : Dict Path SyncStatus)
    (paths : List Path) :
    Act.Settles (resume · .go) Eq (l.state.Did (l.state.settleAll results paths)) (copyAll results paths) l := by
  induction paths generalizing results l with
  | nil => exact Act.settles_ends (ServerState.did_pure rfl .refl _)
  | cons path rest ih =>
      have hrest : ∀ (l' : Loop ServerState Operation) status,
          l.state.Did (l.state.settle path) (.ok status) l'.state →
            Act.Settles (resume · .go) Eq (l.state.Did (l.state.settleAll results (path :: rest)))
              (copyAll (results.insert path status) rest) l' := fun l' status h =>
        (ih (h.same.workspaces.symm ▸ hfree) _).mono fun r s' h' => did_settleAll_cons h h'
      have hfails : ∀ (l' : Loop ServerState Operation) f,
          l.state.Did (l.state.settle path) (.error f) l'.state →
            Act.Settles (resume · .go) Eq (l.state.Did (l.state.settleAll results (path :: rest)))
              (pure (.fail f)) l' := fun l' f h => Act.settles_ends h.bind_error
      unfold copyAll
      cases hd : l.state.destination path with
      | error status =>
          obtain ⟨hreturns, hquiet, hdid⟩ := examine_of_error hd
          refine .bind ?_ hquiet
          rw [hreturns]
          exact hrest _ _ hdid
      | ok target =>
          obtain ⟨m, root⟩ := target
          obtain ⟨id, hready, hleaves, hreturns⟩ := examine_of_ok hd
          refine .bind ?_ (hleaves.symm ▸ .refl l)
          rw [hreturns, hleaves]
          cases hr : returns (plainly (FileWork.isDirectory path)) l.state.disk with
          | error f => exact hfails _ _ (did_settle_error hd hr)
          | ok isDirectory =>
              by_cases hnot : (!isDirectory && !l.state.policy.isSource path) = true
              · dsimp only
                rw [if_pos hnot]
                exact hrest _ _ (did_settle_failed hd hr hnot)
              · dsimp only
                rw [if_neg hnot]
                obtain ⟨w, hw, -, hm, rfl⟩ := ServerState.readyMirror?_eq_some_iff.mp hready
                have hcopies : Act.Settles _ _ (l.state.Did _) (CreatedCopy.start id path) l :=
                  CreatedCopy.settles_start hw hm (hfree w (List.mem_of_getElem? hw))
                refine (hcopies.afterwards (resume_copying path rest results) fun r l' h => ?_).since (.refl l) ?_ ?_
                · have hstatus := did_settle_copied hd hr hnot h
                  unfold goOn
                  split
                  · rename_i f hf
                    exact hfails _ _ (hf ▸ hstatus)
                  · rename_i status hs
                    exact hrest _ _ (hs ▸ hstatus)
                · unfold Act.afterwards
                  rw [Act.returns_bind, Act.returns_bind]
                  cases (CreatedCopy.start id path).returns l <;> rfl
                · unfold Act.afterwards
                  rw [Act.leaves_bind, Act.leaves_bind]
                  cases (CreatedCopy.start id path).returns l <;> rfl

end CreatedFiles

end InkServer
