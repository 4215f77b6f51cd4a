import InkServer.Proofs.Server.Operations

/-!
# What leaves mirrors where they are

Writing into mirrors, looking up settings, running compilers and delivering reports make no mirrors and delete
none, and no workspace gets or loses a mirror by them. The only tasks that they create fetch settings, and new
tasks have the next numbers.
-/

namespace InkServer

open ServerAct

/-- What the registry of workspaces is asked to do, and what it asks itself to do. -/
def Operation.isOfRegistry : Operation → Bool
  | .fetchSettings _ | .add _ | .initialize_ _ | .initializeLast _ | .initializeAll _ | .remove _ | .shutdown
  | .update _ | .edit _ | .copyAllCreated _ | .compileTarget _ | .compile _ _ _ => true
  | _ => false

/-! ## The disk -/

/-- No mirror was made or deleted meanwhile, and the record only grew. -/
structure Disk.Extends (d d' : Disk) : Prop where
  scratches : d'.scratches = d.scratches
  history : d.history <+: d'.history
  deleted : ∀ path, .deleted path ∈ d'.history → .deleted path ∈ d.history

namespace Disk.Extends

variable {d d' d'' : Disk}

theorem refl (d : Disk) : d.Extends d := ⟨rfl, List.prefix_refl _, fun _ h => h⟩

theorem trans (h : d.Extends d') (h' : d'.Extends d'') : d.Extends d'' :=
  ⟨h'.scratches.trans h.scratches, h.history.trans h'.history, fun path hp => h.deleted path (h'.deleted path hp)⟩

theorem of_history_eq (hs : d'.scratches = d.scratches) (hh : d'.history = d.history) : d.Extends d' :=
  ⟨hs, hh ▸ List.prefix_refl _, fun _ hp => hh ▸ hp⟩

end Disk.Extends

/-- Work that makes and deletes no mirror and keeps the record. -/
def DiskWork.Extending {α : Type} (work : DiskWork α) : Prop := ∀ d : Disk, d.Extends (Work.leaves work d)

namespace DiskWork

variable {α β : Type} {work : DiskWork α}

theorem Extending.of_looks (h : Work.Looks work) : work.Extending := fun d => by
  rw [h d]
  exact .refl d

theorem Extending.bind {f : α → DiskWork β} (h : work.Extending) (hf : ∀ a, (f a).Extending) :
    (work >>= f).Extending := fun d => by
  rw [Work.leaves_bind]
  split
  · exact (h d).trans (hf _ _)
  · exact h d

theorem Extending.mapM {xs : List β} {f : β → DiskWork α} (hf : ∀ x, (f x).Extending) : (xs.mapM f).Extending := by
  induction xs with
  | nil => exact .of_looks (Work.looks_pure _)
  | cons x rest ih =>
      rw [List.mapM_cons]
      exact (hf x).bind fun _ => ih.bind fun _ => .of_looks (Work.looks_pure _)

end DiskWork

namespace Mirror

open DiskWork

theorem extending_writeFile (m : Mirror) (wrap : FileError → Failure) (relative : Path) (content : ByteArray) :
    (m.writeFile wrap relative content).Extending := fun d => by
  refine Work.reaches_leaves.mp ((writeFile_reaches (d := d) wrap relative content).mono
    (fun _ _ h => ⟨h.1, ?_, fun path hp => ?_⟩) fun _ _ h => .of_history_eq h.1 h.2.1)
  · rw [h.2.2]
    exact List.prefix_append _ _
  · rw [h.2.2] at hp
    exact (List.mem_append.mp hp).resolve_right fun hw => by cases List.mem_singleton.mp hw

theorem extending_copyFile (m : Mirror) (root : Path) (wrap : FileError → Failure) (relative : Path) :
    (m.copyFile root wrap relative).Extending := by
  have hread : (telling wrap (FileWork.read (root / relative))).Extending :=
    .of_looks (looks_telling (FileWork.looks_ask _ _))
  exact hread.bind fun content => extending_writeFile m wrap relative content

theorem extending_sources (policy : MirrorPolicy) (directory root : Path) (wrap : FileError → Failure) :
    (sources policy directory root wrap).Extending := by
  have hlist : (telling wrap (FileWork.allFilesBelow directory)).Extending :=
    .of_looks (looks_telling (FileWork.looks_allFilesBelow directory))
  exact hlist.bind fun _ => .of_looks (Work.looks_pure _)

theorem extending_createdSources (policy : MirrorPolicy) (root path : Path) :
    (createdSources policy root path).Extending := by
  have hthere : ∀ wrap, (telling wrap (FileWork.isDirectory path)).Extending := fun wrap =>
    .of_looks (looks_telling (FileWork.looks_holds _ _))
  unfold createdSources
  refine (hthere _).bind fun there => ?_
  split
  · split
    · exact extending_sources policy path root _
    · exact .of_looks (Work.looks_throw _)
  · split
    · exact .of_looks (Work.looks_pure _)
    · exact .of_looks (Work.looks_throw _)

theorem extending_copyCreated (m : Mirror) (policy : MirrorPolicy) (root path : Path) :
    (m.copyCreated policy root path).Extending :=
  (extending_createdSources policy root path).bind fun _ => .mapM fun _ => extending_copyFile m root _ _

end Mirror

/-! ## Steps -/

/-- New tasks have the next numbers, and do what the registry is asked to do. -/
structure Creates (l l' : Loop ServerState Operation) (new : List (TaskId × Operation)) : Prop where
  created : l'.created = l.created ++ new
  numbers : new.map Prod.fst = List.range' l.nextTask new.length
  next : l'.nextTask = l.nextTask + new.length
  ofRegistry : ∀ c ∈ new, c.2.isOfRegistry

/-- A workspace keeps its URI and its mirror, and is not removed. -/
structure Workspace.Stays (w w' : Workspace) : Prop where
  uri : w'.uri = w.uri
  mirror : w'.mirror = w.mirror
  removed : w.state ≠ .removed → w'.state ≠ .removed

/-- What leaves the mirrors where they are. -/
structure StandsBy (l l' : Loop ServerState Operation) : Prop where
  creates : ∃ new, Creates l l' new
  policy : l'.state.policy = l.state.policy
  disk : l.state.disk.Extends l'.state.disk
  registered : l'.state.registered = l.state.registered
  workspaces : ∀ id : WorkspaceId, Option.Rel Workspace.Stays l.state.workspaces[id]? l'.state.workspaces[id]?

namespace Workspace.Stays

variable {w w' w'' : Workspace}

theorem refl (w : Workspace) : w.Stays w := ⟨rfl, rfl, fun h => h⟩

theorem trans (h : w.Stays w') (h' : w'.Stays w'') : w.Stays w'' :=
  ⟨h'.uri.trans h.uri, h'.mirror.trans h.mirror, fun hw => h'.removed (h.removed hw)⟩

end Workspace.Stays

variable {τ α β : Type} {l l₁ l₂ : Loop ServerState Operation}

namespace Creates

variable {new new' : List (TaskId × Operation)}

theorem nil (hc : l₁.created = l.created) (hn : l₁.nextTask = l.nextTask) : Creates l l₁ [] :=
  ⟨by rw [hc, List.append_nil], rfl, hn, fun _ h => absurd h List.not_mem_nil⟩

theorem trans (h : Creates l l₁ new) (h' : Creates l₁ l₂ new') : Creates l l₂ (new ++ new') := by
  refine ⟨?_, ?_, ?_, fun c hc => (List.mem_append.mp hc).elim (h.ofRegistry c) (h'.ofRegistry c)⟩
  · rw [h'.created, h.created, List.append_assoc]
  · rw [List.map_append, h.numbers, h'.numbers, h.next, List.length_append, List.range'_append_1]
  · rw [h'.next, h.next, List.length_append, Nat.add_assoc]

end Creates

namespace StandsBy

theorem rel_refl (ws : List Workspace) (id : WorkspaceId) : Option.Rel Workspace.Stays ws[id]? ws[id]? := by
  cases ws[id]? with
  | none => exact .none
  | some w => exact .some (.refl w)

/-- What touches neither workspaces nor the disk. -/
theorem aside (hc : l₁.created = l.created) (hn : l₁.nextTask = l.nextTask)
    (hp : l₁.state.policy = l.state.policy) (hd : l₁.state.disk = l.state.disk)
    (hr : l₁.state.registered = l.state.registered) (hw : l₁.state.workspaces = l.state.workspaces) :
    StandsBy l l₁ :=
  ⟨⟨[], .nil hc hn⟩, hp, hd ▸ .refl _, hr, fun id => hw ▸ rel_refl _ id⟩

theorem refl : StandsBy l l := .aside rfl rfl rfl rfl rfl rfl

theorem trans (h : StandsBy l l₁) (h' : StandsBy l₁ l₂) : StandsBy l l₂ := by
  obtain ⟨new, hnew⟩ := h.creates
  obtain ⟨new', hnew'⟩ := h'.creates
  refine ⟨⟨_, hnew.trans hnew'⟩, h'.policy.trans h.policy, h.disk.trans h'.disk, h'.registered.trans h.registered,
    fun id => ?_⟩
  have hfirst := h.workspaces id
  have hlast := h'.workspaces id
  revert hfirst hlast
  generalize l.state.workspaces[id]? = a, l₁.state.workspaces[id]? = b, l₂.state.workspaces[id]? = c
  intro hfirst hlast
  cases hfirst with
  | none =>
      cases hlast
      exact .none
  | some hw =>
      cases hlast with
      | some hw' => exact .some (hw.trans hw')

/-- A change of a workspace that keeps its mirror. -/
theorem modify {id : WorkspaceId} {f : Workspace → Workspace} (ready : List Wake)
    (hf : ∀ w, l.state.workspaces[id]? = some w → w.Stays (f w)) :
    StandsBy l { l with state := { l.state with workspaces := l.state.workspaces.modify id f }, ready } := by
  refine ⟨⟨[], .nil rfl rfl⟩, rfl, .refl _, rfl, fun i => ?_⟩
  show Option.Rel Workspace.Stays l.state.workspaces[i]? (l.state.workspaces.modify id f)[i]?
  rw [List.getElem?_modify]
  cases hw : l.state.workspaces[i]? with
  | none => exact .none
  | some w =>
      refine .some ?_
      split
      · rename_i hid
        exact hf w (hid ▸ hw)
      · exact .refl w

end StandsBy

/-! ## Acts -/

/-- An act that leaves the mirrors where they are. -/
def StandingBy (a : ServerAct α) (l : Loop ServerState Operation) : Prop := StandsBy l (a.leaves l)

theorem standingBy_pure (a : α) : StandingBy (pure a) l := .refl

theorem StandingBy.bind {a : ServerAct β} {f : β → ServerAct α} (ha : StandingBy a l)
    (hf : ∀ x l', StandingBy (f x) l') : StandingBy (a >>= f) l := ha.trans (hf _ _)

theorem standingBy_state {f : ServerState → ServerAct α} :
    StandingBy (Act.state >>= f) l ↔ StandingBy (f l.state) l := Iff.rfl

theorem standingBy_self {f : TaskId → ServerAct α} :
    StandingBy (Act.self >>= f) l ↔ StandingBy (f l.current) l := Iff.rfl

theorem standingBy_workspace? {id : WorkspaceId} {f : Option Workspace → ServerAct α} :
    StandingBy (workspace? id >>= f) l ↔ StandingBy (f l.state.workspaces[id]?) l := Iff.rfl

theorem standingBy_wake (task : TaskId) (signal : Signal) (turns : Nat) :
    StandingBy (Act.wake task signal turns) l := .aside rfl rfl rfl rfl rfl rfl

theorem standingBy_cancel (task : TaskId) : StandingBy (Act.cancel task) l := .aside rfl rfl rfl rfl rfl rfl

theorem standingBy_waitAt (gate : String) (state : τ) :
    StandingBy (Act.waitAt gate state : ServerAct (Step τ α)) l := .aside rfl rfl rfl rfl rfl rfl

theorem StandingBy.through {gate : String} {state : τ} {next : ServerAct (Step τ α)} (h : StandingBy next l) :
    StandingBy (Act.through gate state next) l := by
  unfold StandingBy
  rw [Act.leaves_through]
  split
  · exact standingBy_waitAt (α := α) gate state
  · exact h

theorem StandingBy.forM {xs : List β} {f : β → ServerAct Unit} (hf : ∀ x l', StandingBy (f x) l') :
    StandingBy (xs.forM f) l := by
  induction xs generalizing l with
  | nil => exact standingBy_pure ()
  | cons x rest ih => exact StandingBy.bind (hf x l) fun _ _ => ih

theorem standingBy_note (e : Event) : StandingBy (note e) l := .aside rfl rfl rfl rfl rfl rfl

theorem standingBy_tell (n : Notice) : StandingBy (tell n) l := standingBy_note _

theorem standingBy_create {operation : Operation} (h : operation.isOfRegistry) :
    StandingBy (Act.create operation) l := by
  refine ⟨⟨[(l.nextTask, operation)], rfl, rfl, rfl, fun c hc => ?_⟩, rfl, .refl _, rfl,
    fun id => StandsBy.rel_refl _ id⟩
  rw [List.mem_singleton.mp hc]
  exact h

theorem StandingBy.gather {operations : List Operation} {state : τ} {next : ServerAct (Step τ α)}
    (ho : ∀ o ∈ operations, o.isOfRegistry) (hn : ∀ l', StandingBy next l') :
    StandingBy (Act.gather operations state next) l := by
  have hcreate : StandingBy (operations.mapM Act.create : ServerAct (List TaskId)) l := by
    induction operations generalizing l with
    | nil => exact standingBy_pure _
    | cons o rest ih =>
        rw [List.mapM_cons]
        refine StandingBy.bind (standingBy_create (ho o List.mem_cons_self)) fun _ _ => ?_
        refine StandingBy.bind (ih fun o h => ho o (List.mem_cons_of_mem _ h)) fun _ _ => ?_
        exact standingBy_pure _
  unfold Act.gather
  refine StandingBy.bind hcreate fun children l₁ => ?_
  split
  · exact hn l₁
  · exact StandingBy.bind (.aside rfl rfl rfl rfl rfl rfl) fun _ _ => standingBy_pure _

theorem standingBy_updateWorkspace {id : WorkspaceId} {f : Workspace → Workspace}
    (hf : ∀ w, l.state.workspaces[id]? = some w → w.Stays (f w)) : StandingBy (updateWorkspace id f) l :=
  StandsBy.modify l.ready hf

theorem standingBy_withWorkspace {id : WorkspaceId} {absent : ServerAct α} {f : Workspace → ServerAct α}
    (ha : StandingBy absent l) (hf : ∀ w, l.state.workspaces[id]? = some w → StandingBy (f w) l) :
    StandingBy (withWorkspace id absent f) l := by
  unfold withWorkspace
  rw [standingBy_workspace?]
  split
  · rename_i w hw
    exact hf w hw
  · exact ha

theorem standingBy_onDisk {work : DiskWork α} (h : work.Extending) : StandingBy (onDisk work) l :=
  ⟨⟨[], .nil rfl rfl⟩, rfl, h l.state.disk, rfl, fun id => StandsBy.rel_refl _ id⟩

theorem standingBy_record (m : Mirror) (entries : List MirrorEntry) : StandingBy (record m entries) l :=
  .aside rfl rfl rfl rfl rfl rfl

section Locks

variable {place : Act.LockPlace ServerState}
  (hp : ∀ lock ready, ∀ l : Loop ServerState Operation, StandsBy l { l with state := place.set lock l.state, ready })

include hp

theorem StandingBy.acquire {state : τ} {next : ServerAct (Step τ α)} (hn : ∀ l', StandingBy next l') :
    StandingBy (Act.acquire place state next) l := by
  unfold Act.acquire
  rw [standingBy_self, standingBy_state]
  refine StandingBy.bind (hp _ l.ready l) fun _ l' => ?_
  split
  · exact hn l'
  · exact standingBy_pure _

theorem standingBy_unlock : StandingBy (Act.unlock place) l := by
  unfold StandingBy
  rw [Act.leaves_unlock]
  exact hp _ _ l

theorem standingBy_abandon : StandingBy (Act.abandon place) l := by
  unfold StandingBy
  rw [Act.leaves_abandon]
  exact hp _ _ l

end Locks

/-! ## Writing -/

theorem standsBy_writingLock (id : WorkspaceId) (lock : Lock) (ready : List Wake) (l : Loop ServerState Operation) :
    StandsBy l { l with state := (writingLock id).set lock l.state, ready } :=
  .modify ready fun _ _ => ⟨rfl, rfl, fun h => h⟩

namespace DocumentWrite

variable {id : WorkspaceId} {mirror : Mirror} {relative : Path} {content : ByteArray}

theorem standingBy_finish (r : Except Failure α) : StandingBy (finish id r : ServerAct (Step τ α)) l :=
  StandingBy.bind (standingBy_unlock (standsBy_writingLock id)) fun _ _ => standingBy_pure _

theorem standingBy_write : StandingBy (write id mirror relative content) l := by
  unfold write
  refine StandingBy.bind (standingBy_onDisk (Mirror.extending_writeFile mirror _ _ _)) fun r l' => ?_
  split
  · exact StandingBy.bind (standingBy_record mirror _) fun _ _ => standingBy_finish _
  · exact standingBy_finish _

theorem standingBy_takeTurn : StandingBy (takeTurn id mirror relative content) l := by
  unfold takeTurn
  refine StandingBy.bind (standingBy_pure _) fun index l₁ => ?_
  refine StandingBy.bind (standingBy_onDisk (.of_looks (Mirror.looks_isUpToDate _ _ _ _))) fun known l₂ => ?_
  split
  · exact standingBy_finish _
  · exact standingBy_finish _
  · exact .through standingBy_write

theorem standingBy_start (path : Path) (content : ByteArray) : StandingBy (start id path content) l := by
  refine standingBy_withWorkspace (standingBy_pure _) fun w _ => ?_
  split
  · exact standingBy_pure _
  · rw [standingBy_state]
    split
    · exact standingBy_pure _
    · exact .acquire (standsBy_writingLock id) fun _ => standingBy_takeTurn

theorem standingBy_resume (state : DocumentWrite) (signal : Signal) : StandingBy (resume state signal) l := by
  unfold resume
  split
  · exact standingBy_takeTurn
  · exact StandingBy.bind (standingBy_abandon (standsBy_writingLock _)) fun _ _ => standingBy_pure _
  · exact standingBy_write
  · exact standingBy_finish _

end DocumentWrite

namespace CreatedCopy

variable {id : WorkspaceId} {mirror : Mirror} {path : Path}

theorem standingBy_copy : StandingBy (copy id mirror path) l := by
  refine standingBy_withWorkspace (standingBy_pure _) fun w _ => ?_
  rw [standingBy_state]
  refine StandingBy.bind (standingBy_onDisk (Mirror.extending_copyCreated mirror _ _ _)) fun r l₁ => ?_
  cases r with
  | ok entries => exact StandingBy.bind (standingBy_record mirror entries) fun _ _ => DocumentWrite.standingBy_finish _
  | error f => exact DocumentWrite.standingBy_finish _

theorem standingBy_takeTurn : StandingBy (takeTurn id mirror path) l := .through standingBy_copy

theorem standingBy_start (id : WorkspaceId) (path : Path) : StandingBy (start id path) l := by
  refine standingBy_withWorkspace (standingBy_pure _) fun w _ => ?_
  split
  · exact standingBy_pure _
  · exact .acquire (standsBy_writingLock id) fun _ => standingBy_takeTurn

theorem standingBy_resume (state : CreatedCopy) (signal : Signal) : StandingBy (resume state signal) l := by
  unfold resume
  split
  · exact standingBy_takeTurn
  · exact StandingBy.bind (standingBy_abandon (standsBy_writingLock _)) fun _ _ => standingBy_pure _
  · exact standingBy_copy
  · exact DocumentWrite.standingBy_finish _

end CreatedCopy

namespace CreatedFiles

theorem standingBy_examine (path : Path) : StandingBy (examine path) l := by
  unfold examine
  rw [standingBy_state]
  split
  · exact StandingBy.bind (standingBy_tell _) fun _ _ => standingBy_pure _
  · rw [standingBy_workspace?]
    split
    · exact standingBy_pure _
    · have hlooks : Work.Looks (DiskWork.plainly (FileWork.isDirectory path)) :=
        DiskWork.looks_telling (FileWork.looks_holds _ _)
      refine StandingBy.bind (standingBy_onDisk (.of_looks hlooks)) fun r l₁ => ?_
      split
      · exact standingBy_pure _
      · split <;> exact standingBy_pure _

theorem standingBy_copyAll (results : Dict Path SyncStatus) (paths : List Path) :
    StandingBy (copyAll results paths) l := by
  induction paths generalizing results l with
  | nil => exact standingBy_pure _
  | cons path rest ih =>
      unfold copyAll
      refine StandingBy.bind (standingBy_examine path) fun r l₁ => ?_
      split
      · exact standingBy_pure _
      · exact ih _
      · refine StandingBy.bind (CreatedCopy.standingBy_start _ path) fun step l₂ => ?_
        split
        · exact standingBy_pure _
        · split
          · exact standingBy_pure _
          · exact ih _

theorem standingBy_resume (state : CreatedFiles) (signal : Signal) : StandingBy (resume state signal) l := by
  unfold resume
  refine StandingBy.bind (CreatedCopy.standingBy_resume _ signal) fun step l₁ => ?_
  split
  · exact standingBy_pure _
  · split
    · exact standingBy_pure _
    · exact standingBy_copyAll _ _

end CreatedFiles

/-! ## Settings -/

namespace SettingsRequest

theorem standingBy_updateCache (f : SettingsCache → SettingsCache) : StandingBy (updateCache f) l :=
  .aside rfl rfl rfl rfl rfl rfl

theorem standingBy_finish (outcome : Except Failure Settings) : StandingBy (finish outcome) l := by
  unfold finish
  rw [standingBy_self, standingBy_state]
  refine StandingBy.bind (standingBy_updateCache _) fun _ l₁ => ?_
  exact StandingBy.bind (.forM fun task _ => standingBy_wake task .go 1) fun _ _ => standingBy_pure _

theorem standingBy_readAnswer (uri : String) : StandingBy (readAnswer uri) l := by
  unfold readAnswer
  rw [standingBy_state]
  split <;> exact standingBy_finish _

theorem standingBy_start (uri : String) (signal : Signal) : StandingBy (start uri signal) l := by
  unfold start
  rw [standingBy_state]
  split
  · exact StandingBy.bind (standingBy_note _) fun _ _ => .through (standingBy_readAnswer uri)
  · rw [standingBy_self]
    refine StandingBy.bind (standingBy_note _) fun _ l₁ => ?_
    exact StandingBy.bind (.aside rfl rfl rfl rfl rfl rfl) fun _ _ => standingBy_pure _
  · exact standingBy_finish _
  · exact standingBy_finish _

theorem standingBy_resume (state : SettingsRequest) (signal : Signal) : StandingBy (resume state signal) l := by
  unfold resume
  split
  · exact standingBy_readAnswer _
  · exact standingBy_finish _
  · unfold takeAnswer
    rw [standingBy_self, standingBy_state]
    exact standingBy_finish _
  · have habandon : StandingBy abandon l := .aside rfl rfl rfl rfl rfl rfl
    exact StandingBy.bind habandon fun _ _ => standingBy_finish _

end SettingsRequest

namespace SettingsLookup

open SettingsRequest

theorem standingBy_conclude (state : SettingsLookup) (outcome : Except Failure Settings) :
    StandingBy (conclude state outcome) l := by
  unfold conclude
  split
  · exact standingBy_pure _
  · exact standingBy_pure _
  · exact StandingBy.bind (standingBy_updateCache _) fun _ _ => standingBy_pure _

theorem standingBy_currentFetch (uri : String) : StandingBy (currentFetch uri) l := by
  unfold currentFetch
  rw [standingBy_state]
  split
  · exact standingBy_pure _
  · refine StandingBy.bind (standingBy_create rfl) fun fetch l₁ => ?_
    exact StandingBy.bind (standingBy_updateCache _) fun _ _ => standingBy_pure _

theorem standingBy_start (uri : String) : StandingBy (start uri) l := by
  unfold start
  rw [standingBy_state]
  split
  · refine StandingBy.bind (standingBy_currentFetch uri) fun fetch l₁ => ?_
    rw [standingBy_state]
    split
    · exact standingBy_conclude _ _
    · rw [standingBy_self]
      exact StandingBy.bind (standingBy_updateCache _) fun _ _ => standingBy_pure _
  · exact standingBy_pure _

theorem standingBy_resume (state : SettingsLookup) (signal : Signal) : StandingBy (resume state signal) l := by
  unfold resume
  rw [standingBy_state]
  split
  · exact standingBy_conclude _ _
  · exact standingBy_pure _
  · exact standingBy_pure _
  · rw [standingBy_self]
    exact StandingBy.bind (standingBy_updateCache _) fun _ _ => standingBy_pure _

end SettingsLookup

theorem standingBy_invalidateSettings : StandingBy invalidateSettings l := SettingsRequest.standingBy_updateCache _

theorem standingBy_closeDocument (uri : String) : StandingBy (closeDocument uri) l := by
  unfold closeDocument
  rw [standingBy_state]
  refine StandingBy.bind (.aside rfl rfl rfl rfl rfl rfl) fun _ l₁ => ?_
  split
  · exact standingBy_pure _
  · split
    · exact standingBy_cancel _
    · exact standingBy_pure _

/-! ## Compilers -/

namespace Invocation

theorem standingBy_nextBehaviour (directory entry : Path) : StandingBy (nextBehaviour directory entry) l := by
  unfold nextBehaviour
  rw [standingBy_state]
  split
  · exact StandingBy.bind (.aside rfl rfl rfl rfl rfl rfl) fun _ _ => standingBy_pure _
  · exact StandingBy.bind (.aside rfl rfl rfl (run_ofEntry directory entry l.state.disk) rfl rfl)
      fun _ _ => standingBy_pure _

theorem standingBy_stopTimer : StandingBy stopTimer l := .aside rfl rfl rfl rfl rfl rfl

theorem standingBy_exit (p : CompilerProcess) : StandingBy (exit p) l := by
  have houtput : ∀ l, StandingBy (Act.modifyState fun s =>
      { s with disk := ((Behaviour.writeOutput p.output).run s.disk).2 }) l := fun l => by
    refine ⟨⟨[], .nil rfl rfl⟩, rfl, ?_, rfl, fun id => StandsBy.rel_refl _ id⟩
    show l.state.disk.Extends ((Behaviour.writeOutput p.output).run l.state.disk).2
    rw [Behaviour.run_writeOutput]
    exact .of_history_eq rfl rfl
  unfold exit
  refine StandingBy.bind standingBy_stopTimer fun _ _ => StandingBy.bind (standingBy_note _) fun _ l₁ => ?_
  split
  · exact houtput l₁
  · exact standingBy_pure _

theorem standingBy_ended (p : CompilerProcess) : StandingBy (ended p) l := by
  unfold ended
  refine StandingBy.bind (standingBy_exit p) fun _ _ => StandingBy.bind (standingBy_note _) fun _ l₁ => ?_
  split
  · exact standingBy_pure _
  · rw [standingBy_self]
    exact StandingBy.bind (standingBy_wake _ _ _) fun _ _ => standingBy_pure _

theorem standingBy_reap (p : CompilerProcess) (expired : Bool) : StandingBy (reap p expired) l :=
  StandingBy.bind (standingBy_note _) fun _ _ => standingBy_pure _

theorem standingBy_kill (p : CompilerProcess) (expired : Bool) : StandingBy (kill p expired) l := by
  unfold kill putToEnd awaitEnd
  refine StandingBy.bind ?_ fun _ _ => ?_
  · split
    · exact standingBy_exit p
    · exact standingBy_note _
  · split
    · exact standingBy_waitAt _ _
    · exact standingBy_reap p expired

theorem standingBy_stop (p : CompilerProcess) (expired : Bool) : StandingBy (stop p expired) l := by
  unfold stop
  refine StandingBy.bind standingBy_stopTimer fun _ l₁ => ?_
  rw [standingBy_self]
  exact StandingBy.bind (standingBy_wake _ _ _) fun _ _ => standingBy_pure _

theorem standingBy_await (p : CompilerProcess) : StandingBy (await p) l := by
  unfold await
  rw [standingBy_self]
  split
  · split
    · exact standingBy_pure _
    · split
      · exact standingBy_waitAt _ _
      · exact standingBy_ended p
  · rename_i limit _
    split
    · exact standingBy_stop p true
    · have hrest : ∀ l', StandingBy (if p.behaviour.hangs then pure (.waits (.running p))
          else if p.behaviour.held then Act.waitAt "compile" (.running p)
          else do
            Act.wake l.current .go 0
            pure (.waits (.running p)) : ServerAct (Step Invocation CompilerReport)) l' := by
        intro l'
        split
        · exact standingBy_pure _
        · split
          · exact standingBy_waitAt _ _
          · exact StandingBy.bind (standingBy_wake _ _ _) fun _ _ => standingBy_pure _
      cases limit.isShort with
      | true =>
          have htimer : StandingBy (Act.modifyState fun s => { s with timers := s.timers ++ [l.current] }) l :=
            .aside rfl rfl rfl rfl rfl rfl
          exact StandingBy.bind htimer fun _ l' => hrest l'
      | false => exact hrest l

theorem standingBy_start (mirror : Path) (settings : Settings) (entry output : Option Path) :
    StandingBy (start mirror settings entry output) l := by
  unfold start
  rw [standingBy_state]
  dsimp only
  split
  · exact standingBy_pure _
  · split
    · exact standingBy_pure _
    · refine StandingBy.bind (standingBy_nextBehaviour mirror _) fun behaviour l₁ => ?_
      refine StandingBy.bind (standingBy_note _) fun _ l₂ => ?_
      split
      · exact standingBy_pure _
      · exact standingBy_await _

theorem standingBy_resume (state : Invocation) (signal : Signal) : StandingBy (resume state signal) l := by
  unfold resume
  split
  · exact standingBy_ended _
  · exact standingBy_stop _ _
  · split
    · exact StandingBy.bind standingBy_stopTimer fun _ _ => standingBy_kill _ _
    · exact standingBy_stop _ _
  · exact standingBy_pure _
  · exact standingBy_kill _ _
  · exact standingBy_kill _ _
  · exact standingBy_reap _ _
  · exact standingBy_pure _

theorem standingBy_expireFirst : StandingBy expireFirst l := by
  unfold expireFirst
  rw [standingBy_state]
  split
  · exact standingBy_pure _
  · refine StandingBy.bind (.aside rfl rfl rfl rfl rfl rfl) fun _ l₁ => ?_
    refine StandingBy.bind (.aside rfl rfl rfl rfl rfl rfl) fun _ l₂ => ?_
    exact StandingBy.bind (standingBy_wake _ _ _) fun _ _ => standingBy_pure _

end Invocation

/-! ## Delivering reports -/

theorem standingBy_publish (uri : String) (diagnostics : List Diagnostic) : StandingBy (publish uri diagnostics) l := by
  unfold StandingBy
  rw [leaves_publish]
  obtain ⟨publisher, record, hs, _⟩ := ServerState.publishing_eq l.state uri diagnostics
  rw [hs]
  exact .aside rfl rfl rfl rfl rfl rfl

namespace Delivery

theorem standingBy_replace (id : WorkspaceId) (diagnostics : List AddressedDiagnostic) :
    StandingBy (replace id diagnostics) l := by
  unfold replace Removal.clearAll
  rw [standingBy_workspace?]
  refine StandingBy.bind (.forM fun uri _ => standingBy_publish uri []) fun _ l₁ => ?_
  refine StandingBy.bind (.forM fun x _ => standingBy_publish x.1 x.2) fun _ l₂ => ?_
  exact standingBy_updateWorkspace fun _ _ => ⟨rfl, rfl, fun h => h⟩

theorem standingBy_diagnosticsOf (root : Path) (report : CompilerReport) :
    StandingBy (diagnosticsOf root report) l := by
  unfold diagnosticsOf
  rw [standingBy_state]
  dsimp only
  split
  · exact standingBy_pure _
  · refine StandingBy.bind (standingBy_tell _) fun _ l₁ => ?_
    split <;> exact standingBy_pure _
  · exact standingBy_pure _

theorem standingBy_deliver (id : WorkspaceId) (outcome : CompileOutcome CompilerReport) :
    StandingBy (deliver id outcome) l := by
  refine standingBy_withWorkspace (standingBy_pure _) fun w _ => ?_
  split
  · exact standingBy_pure _
  · split
    · exact StandingBy.bind (standingBy_tell _) fun _ _ => standingBy_pure _
    · exact standingBy_pure _
    · refine StandingBy.bind (standingBy_note _) fun _ l₁ => ?_
      refine StandingBy.bind (standingBy_diagnosticsOf _ _) fun r l₂ => ?_
      split
      · exact standingBy_pure _
      · refine StandingBy.bind (standingBy_replace id _) fun _ l₃ => ?_
        exact StandingBy.bind (standingBy_note _) fun _ _ => standingBy_pure _

end Delivery

/-! ## Requests -/

namespace Compilation

open Scheduler

variable (job : CompileJob)

theorem standsBy_set (f : Scheduler → Scheduler) (ready : List Wake) (l : Loop ServerState Operation) :
    StandsBy l { l with state := (invocations job).set (f ((invocations job).get l.state)) l.state, ready } :=
  .modify ready fun _ _ => ⟨rfl, rfl, fun h => h⟩

theorem standingBy_update (f : Scheduler → Scheduler) : StandingBy ((invocations job).update f) l :=
  standsBy_set job f l.ready l

theorem standsBy_lockPlace (lock : Lock) (ready : List Wake) (l : Loop ServerState Operation) :
    StandsBy l { l with state := (invocations job).lockPlace.set lock l.state, ready } :=
  standsBy_set job (fun s => { s with lock }) ready l

theorem standingBy_afterInvocation {id : WorkspaceId} {part : ServerAct (Step Invocation CompilerReport)}
    (h : StandingBy part l) : StandingBy (afterInvocation id part) l := by
  unfold afterInvocation
  refine StandingBy.bind h fun step l₁ => ?_
  split
  · exact standingBy_pure _
  · refine StandingBy.bind (standingBy_updateWorkspace fun w _ => ⟨rfl, rfl, fun hw => ?_⟩) fun _ _ => standingBy_pure _
    dsimp only [Workspace.enter]
    split
    · exact Lifecycle.noConfusion
    · exact hw

theorem standingBy_invoke (request : CompileRequest) : StandingBy (invoke job request) l := by
  refine standingBy_withWorkspace (standingBy_pure _) fun w _ => ?_
  refine StandsBy.trans (standingBy_note (.called job.id request w.mirror)) ?_
  change StandingBy _ _
  split
  · exact standingBy_pure _
  · refine StandingBy.bind (standingBy_updateWorkspace fun _ _ => ⟨rfl, rfl, fun _ => Lifecycle.noConfusion⟩)
      fun _ l₁ => ?_
    refine StandingBy.bind (standingBy_note _) fun _ l₂ => ?_
    exact standingBy_afterInvocation (Invocation.standingBy_start _ _ _ _)

theorem standingBy_unlock : StandingBy (Act.unlock (invocations job).lockPlace) l :=
  InkServer.standingBy_unlock (standsBy_lockPlace job)

theorem standingBy_conclude (outcome : CompileOutcome CompilerReport) :
    StandingBy ((invocations job).conclude outcome) l := by
  unfold Invocations.conclude
  split
  · refine StandingBy.bind (Delivery.standingBy_deliver job.id outcome) fun r l₁ => ?_
    split <;> exact StandingBy.bind (standingBy_unlock job) fun _ _ => standingBy_pure _
  · exact StandingBy.bind (standingBy_unlock job) fun _ _ => standingBy_pure _

theorem standingBy_accept (request : CompileRequest) : StandingBy ((invocations job).accept request) l :=
  StandingBy.bind (standingBy_pure _) fun _ _ =>
    StandingBy.bind (standingBy_update job _) fun _ _ => standingBy_pure _

theorem standingBy_endInvocation (request : CompileRequest) (r : Except Failure CompilerReport) :
    StandingBy ((invocations job).afterInvocation request r) l := by
  unfold Invocations.afterInvocation
  refine StandingBy.bind (standingBy_update job _) fun _ l₁ => ?_
  split
  · exact StandingBy.bind (standingBy_accept job request) fun _ _ => standingBy_conclude job _
  · exact StandingBy.bind (standingBy_accept job request) fun _ _ => standingBy_conclude job _
  · exact StandingBy.bind (standingBy_unlock job) fun _ _ => standingBy_pure _

theorem standingBy_afterwards {υ δ : Type} {part : ServerAct (Step τ α)} {wrap : τ → υ}
    {next : Except Failure α → ServerAct (Step υ δ)} (h : StandingBy part l) (hn : ∀ r l', StandingBy (next r) l') :
    StandingBy (Act.afterwards part wrap next) l := by
  unfold Act.afterwards
  refine StandingBy.bind h fun step l₁ => ?_
  split
  · exact standingBy_pure _
  · exact hn _ l₁

theorem standingBy_takeTurn (request : CompileRequest) : StandingBy ((invocations job).takeTurn request) l := by
  unfold Invocations.takeTurn
  refine StandingBy.bind (standingBy_pure _) fun scheduler l₁ => ?_
  split
  · refine StandingBy.bind (standingBy_update job _) fun _ l₂ => ?_
    exact standingBy_afterwards (standingBy_invoke job request) fun r _ => standingBy_endInvocation job request r
  · exact standingBy_conclude job _

theorem standingBy_run (request : CompileRequest) : StandingBy ((invocations job).run request) l :=
  .acquire (standsBy_lockPlace job) fun _ => standingBy_takeTurn job request

theorem standingBy_resumeRun (state : Scheduler.Run Invocation) (signal : Signal) :
    StandingBy ((invocations job).resumeRun state signal) l := by
  unfold Invocations.resumeRun
  split
  · split
    · exact StandingBy.bind (standingBy_abandon (standsBy_lockPlace job)) fun _ _ => standingBy_pure _
    · exact standingBy_takeTurn job _
  · exact standingBy_afterwards (standingBy_afterInvocation (Invocation.standingBy_resume _ signal))
      fun r _ => standingBy_endInvocation job _ r

theorem standingBy_admission : StandingBy (admission job) l := by
  unfold admission Invocations.issue
  refine StandingBy.bind (StandingBy.bind (standingBy_pure _) fun scheduler l₁ => ?_) fun request l₁ => ?_
  · exact StandingBy.bind (standingBy_update job _) fun _ _ => standingBy_pure _
  · rw [standingBy_self]
    exact StandingBy.bind (standingBy_note _) fun _ _ => standingBy_pure _

end Compilation

end InkServer
