import InkServer.Proofs.Mirror.Confined
import InkServer.Proofs.Mirror.Kept
import InkServer.Proofs.Server.Mirrors

/-!
# What a server with mirrors touches

Any number of mirrors are made, written over, brought up to date and deleted, in whatever order the calls take
their turns, while others change files besides the mirrors. Everything the server does to files is one of the
few effects that mirrors allow, and below the mirrors there are source files only.
-/

namespace InkServer

open Work ServerAct

namespace Mirror

/-! ## What is asked -/

/-- What is asked of a server that makes mirrors of directories, and what others do meanwhile. -/
inductive Wish where
  | create (root : Path)
  | overlay (root : Path) (documents : List (Path × ByteArray))
  | text (root path : Path) (content : ByteArray)
  | created (root path : Path)
  | delete (number : Nat)
  /-- Others work on files, or keep everybody from writing into mirrors. -/
  | others (files : FileSystem) (writeFailure : Option String)

/-- The operation that is asked for. -/
def Wish.operation? : Wish → Option Operation
  | .create root => some (.createMirror root)
  | .overlay root documents => some (.overlay root documents)
  | .text root path content => some (.writeDocument root path content)
  | .created root path => some (.copyCreated root path)
  | .delete number => some (.deleteMirror number)
  | .others _ _ => none

/-- What is done about it. -/
def Wish.act : Wish → ServerAct Unit
  | .others files writeFailure => Act.modifyState fun s => { s with disk := { s.disk with files, writeFailure } }
  | wish => wish.operation?.forM fun operation => discard (Act.create operation)

end Mirror

/-- Others leave the mirrors on a disk alone. The place for mirrors is where it was, whatever stands in the
mirrors, and at the places of the mirrors nothing is changed, though it may be taken away. No link bears the
name of what is compiled from a mirror. -/
structure Disk.Spares (policy : MirrorPolicy) (d : Disk) (files : FileSystem) : Prop where
  tree : files.IsTree
  noLinks : ∀ directory k target, files.node? (directory ++ [Mirror.outputName k]) ≠ some (.link target)
  leads : ∀ home, d.scratches ≠ 0 → d.files.Way FileSystem.maxLinks [] policy.tempRoot.segments home →
    files.LeadsBeside (Mirror.IsOf home d.scratches) policy.tempRoot.segments home
  below : ∀ home, d.files.Way FileSystem.maxLinks [] policy.tempRoot.segments home → ∀ k, 0 < k →
    k ≤ d.scratches → ∀ names, files.node? (Mirror.placeOf home k ++ names) = none ∨
      files.node? (Mirror.placeOf home k ++ names) = d.files.node? (Mirror.placeOf home k ++ names)

theorem FileSystem.IsTidy.spares {policy : MirrorPolicy} {d : Disk} {files : FileSystem}
    (h : d.files.IsTidy policy d.scratches) (hs : d.Spares policy files) : files.IsTidy policy d.scratches := by
  refine ⟨hs.tree, hs.noLinks, fun hm => ?_⟩
  obtain ⟨home, hshelters⟩ := h.shelters hm
  refine ⟨home, hs.leads home hm hshelters.way, hshelters.named, fun k h0 hk names => ?_⟩
  rcases hs.below home hshelters.way k h0 hk names with hnone | hsame
  · rw [hnone]
    trivial
  · rw [hsame]
    exact hshelters.holds k h0 hk names

/-! ## Turns -/

/-- What a server knows of mirrors it has made. -/
structure ServerState.Knows (s : ServerState) : Prop where
  tidy : s.disk.files.IsTidy s.policy s.disk.scratches
  made : ∀ w ∈ s.workspaces, ∀ m, w.mirror = some m → m.IsMade s.policy s.disk
  indexed : ∀ path ∈ s.indexes.keys, (Mirror.mk path).IsMade s.policy s.disk

namespace Mirror

variable {τ υ α β : Type} {id : WorkspaceId} {m : Mirror} {fits : τ → ServerState → Prop}
  {l l₁ l₂ : Loop ServerState Operation}

/-- What a turn of a call on mirrors may change. -/
structure Tends (l l' : Loop ServerState Operation) : Prop where
  created : l'.created = l.created
  gatherings : l'.gatherings = l.gatherings
  policy : l'.state.policy = l.state.policy
  confined : Disk.Confined l.state.policy l.state.disk l'.state.disk
  knows : l'.state.Knows

theorem Tends.refl (h : l.state.Knows) : Tends l l := ⟨rfl, rfl, rfl, .refl h.tidy, h⟩

theorem Tends.trans (h : Tends l l₁) (h' : Tends l₁ l₂) : Tends l l₂ :=
  ⟨h'.created.trans h.created, h'.gatherings.trans h.gatherings, h'.policy.trans h.policy,
    h.confined.trans (h.policy ▸ h'.confined), h'.knows⟩

theorem Tends.isMade (h : Tends l l₁) (hm : m.IsMade l.state.policy l.state.disk) :
    m.IsMade l₁.state.policy l₁.state.disk := h.policy ▸ hm.confined h.confined

/-- How a turn of a call on mirrors goes. -/
def Tend (fits : τ → ServerState → Prop) (a : ServerAct (Step τ α)) (l : Loop ServerState Operation) : Prop :=
  a.Reaches l (fun state l' => Tends l l' ∧ fits state l'.state) fun _ l' => Tends l l'

theorem Tends.tend {a : ServerAct (Step τ α)} (h : Tends l l₁) (ha : Tend fits a l₁) :
    a.Reaches l₁ (fun state l' => Tends l l' ∧ fits state l'.state) fun _ l' => Tends l l' :=
  ha.mono (fun _ _ ⟨h', hf⟩ => ⟨h.trans h', hf⟩) fun _ _ h' => h.trans h'

theorem tend_ends (h : l.state.Knows) {r : Except Failure α} :
    Tend fits (pure (.ends r) : ServerAct (Step τ α)) l := Tends.refl h

theorem tend_state {f : ServerState → ServerAct (Step τ α)} :
    Tend fits (Act.state >>= f) l ↔ Tend fits (f l.state) l := Iff.rfl

theorem tend_through {gate : String} {state : τ} {next : ServerAct (Step τ α)} (h : l.state.Knows)
    (hf : fits state l.state) (hn : Tend fits next l) : Tend fits (Act.through gate state next) l := by
  unfold Tend Act.through
  rw [Act.reaches_bind, Act.reaches_ite]
  exact ⟨fun _ => ⟨⟨rfl, rfl, rfl, .refl h.tidy, h⟩, hf⟩, fun _ => hn⟩

theorem mem_of_mem_modify {xs : List β} {i : Nat} {f : β → β} {x : β} (h : x ∈ xs.modify i f) :
    ∃ y ∈ xs, x = y ∨ x = f y := by
  obtain ⟨j, hj⟩ := List.mem_iff_getElem?.mp h
  rw [List.getElem?_modify] at hj
  obtain ⟨y, hy, rfl⟩ := Option.map_eq_some_iff.mp hj
  refine ⟨y, List.mem_of_getElem? hy, ?_⟩
  split
  · exact .inr rfl
  · exact .inl rfl

theorem knows_setLock (h : l.state.Knows) (lock : Lock) : ((writingLock id).set lock l.state).Knows := by
  refine ⟨h.tidy, fun w hw m hm => ?_, h.indexed⟩
  obtain ⟨w', hw', he⟩ := mem_of_mem_modify hw
  refine h.made w' hw' m ?_
  rcases he with rfl | rfl <;> exact hm

theorem tends_setLock (h : l.state.Knows) (lock : Lock) (ready : List Wake) :
    Tends l { l with state := (writingLock id).set lock l.state, ready } :=
  ⟨rfl, rfl, rfl, .refl h.tidy, knows_setLock h lock⟩

theorem tend_finish (h : l.state.Knows) {r : Except Failure α} :
    Tend fits (DocumentWrite.finish id r : ServerAct (Step τ α)) l := by
  unfold Tend DocumentWrite.finish
  rw [Act.reaches_bind, Act.reaches_ends, Act.leaves_unlock]
  exact tends_setLock h _ _

theorem tend_abandon (h : l.state.Knows) {f : Failure} :
    Tend fits (do Act.abandon (writingLock id); pure (.fail f) : ServerAct (Step τ α)) l := by
  unfold Tend
  rw [Act.reaches_bind, Act.reaches_fail, Act.leaves_abandon]
  exact tends_setLock h _ _

theorem tend_acquire {state : τ} {next : ServerAct (Step τ α)} (h : l.state.Knows)
    (hf : ∀ l', Tends l l' → fits state l'.state) (hn : ∀ l', Tends l l' → Tend fits next l') :
    Tend fits (Act.acquire (writingLock id) state next) l := by
  unfold Tend
  rw [Act.reaches_acquire]
  have htaken (lock : Lock) : Tends l { l with state := (writingLock id).set lock l.state } :=
    tends_setLock h lock l.ready
  exact ⟨fun _ => (htaken _).tend (hn _ (htaken _)), fun _ => ⟨htaken _, hf _ (htaken _)⟩⟩

theorem tends_disk (h : l.state.Knows) {disk : Disk} (hd : Disk.Confined l.state.policy l.state.disk disk) :
    Tends l { l with state := { l.state with disk } } :=
  ⟨rfl, rfl, rfl, hd, hd.tidy, fun w hw m hm => (h.made w hw m hm).confined hd,
    fun path hp => (h.indexed path hp).confined hd⟩

/-- Work on mirrors that is confined. -/
theorem tend_onDisk {work : DiskWork β} {f : Except Failure β → ServerAct (Step τ α)} (h : l.state.Knows)
    (hw : Reaches work l.state.disk (fun _ d => Disk.Confined l.state.policy l.state.disk d)
      fun _ d => Disk.Confined l.state.policy l.state.disk d)
    (hf : ∀ r l', Tends l l' → Tend fits (f r) l') : Tend fits (onDisk work >>= f) l := by
  unfold Tend
  rw [reaches_onDisk]
  exact hw.mono (fun _ _ hd => (tends_disk h hd).tend (hf _ _ (tends_disk h hd)))
    fun _ _ hd => (tends_disk h hd).tend (hf _ _ (tends_disk h hd))

theorem tends_record (h : l.state.Knows) (hm : m.IsMade l.state.policy l.state.disk) (entries : List MirrorEntry) :
    Tends l ((record m entries).leaves l) := by
  refine ⟨rfl, rfl, rfl, .refl h.tidy, h.tidy, h.made, fun path hp => ?_⟩
  have hp' : path ∈ (l.state.indexes.insert m.path (((l.state.indexes.get? m.path).getD {}).record entries)).keys := hp
  rcases Dict.mem_keys_insert.mp hp' with rfl | hp'
  · exact hm
  · exact h.indexed path hp'

theorem tend_record (h : l.state.Knows) (hm : m.IsMade l.state.policy l.state.disk) (entries : List MirrorEntry)
    {next : ServerAct (Step τ α)} (hn : ∀ l', Tends l l' → Tend fits next l') :
    Tend fits (do record m entries; next) l := by
  have hrecord := tends_record h hm entries
  exact hrecord.tend (hn _ hrecord)

/-! ## The parts of calls -/

/-- What calls on mirrors wait with: mirrors that were made, and paths of source files inside. -/
def Serves : Waiting → ServerState → Prop
  | .creatingMirror _, _ => True
  | .overlaying _ m documents, s =>
    m.IsMade s.policy s.disk ∧ ∀ x ∈ documents, x.1.IsInner ∧ s.policy.isSource x.1
  | .writing (.queued _ m relative _), s | .writing (.writing _ m relative _), s =>
    m.IsMade s.policy s.disk ∧ relative.IsInner ∧ s.policy.isSource relative
  | .copying (.queued _ m _), s | .copying (.copying _ m _), s => m.IsMade s.policy s.disk
  | .deletingMirror m, s => m.IsMade s.policy s.disk
  | _, _ => False

/-- What a call waits with stays fit when mirrors are made. -/
theorem Serves.later {state : Waiting} {s s' : ServerState} (h : Serves state s) (hp : s'.policy = s.policy)
    (hd : s.disk.scratches ≤ s'.disk.scratches) : Serves state s' := by
  have hm : ∀ {m : Mirror}, m.IsMade s.policy s.disk → m.IsMade s'.policy s'.disk := by
    rintro m ⟨k, h0, hk, he⟩
    exact ⟨k, h0, Nat.le_trans hk hd, hp ▸ he⟩
  cases state with
  | creatingMirror => trivial
  | overlaying => exact ⟨hm h.1, fun x hx => hp ▸ h.2 x hx⟩
  | writing state =>
      cases state <;> exact ⟨hm h.1, h.2.1, hp ▸ h.2.2⟩
  | copying state =>
      cases state <;> exact hm h
  | deletingMirror => exact hm h
  | _ => exact h.elim

variable {relative path root : Path} {content : ByteArray}

/-- A workspace that is looked for is there or not. -/
theorem tend_withWorkspace {absent : ServerAct (Step τ α)} {f : Workspace → ServerAct (Step τ α)}
    (ha : Tend fits absent l) (hf : ∀ w, l.state.workspaces[id]? = some w → Tend fits (f w) l) :
    Tend fits (withWorkspace id absent f) l := by
  have hreturns : (workspace? id).returns l = l.state.workspaces[id]? := rfl
  unfold Tend withWorkspace
  rw [Act.reaches_bind, hreturns]
  cases hw : l.state.workspaces[id]? with
  | none => exact ha
  | some w => exact hf w hw

section parts

variable (h : l.state.Knows)

include h

theorem tend_write (hm : m.IsMade l.state.policy l.state.disk) (hr : relative.IsInner ∧ l.state.policy.isSource relative) :
    Tend (fun state s => Serves (.writing state) s) (DocumentWrite.write id m relative content) l := by
  unfold DocumentWrite.write
  refine tend_onDisk h (reaches_leaves.mpr (confined_writeFile h.tidy hm _ hr.1 hr.2 content)) fun r l' hl => ?_
  cases r with
  | ok entry => exact tend_record hl.knows (hl.isMade hm) [entry] fun l₁ hl₁ => tend_finish hl₁.knows
  | error e => exact tend_finish hl.knows

theorem tend_documentTurn (hm : m.IsMade l.state.policy l.state.disk)
    (hr : relative.IsInner ∧ l.state.policy.isSource relative) :
    Tend (fun state s => Serves (.writing state) s) (DocumentWrite.takeTurn id m relative content) l := by
  unfold DocumentWrite.takeTurn
  unfold Tend
  rw [Act.reaches_bind]
  refine tend_onDisk h ?_ fun r l' hl => ?_
  · exact (looks_isUpToDate m _ relative content).reaches (fun _ _ => .refl h.tidy) fun _ _ => .refl h.tidy
  · have hr' : relative.IsInner ∧ l'.state.policy.isSource relative := hl.policy ▸ hr
    split
    · exact tend_finish hl.knows
    · exact tend_finish hl.knows
    · exact tend_through hl.knows ⟨hl.isMade hm, hr'⟩ (tend_write hl.knows (hl.isMade hm) hr')

theorem tend_startWrite (path : Path) (content : ByteArray) :
    Tend (fun state s => Serves (.writing state) s) (DocumentWrite.start id path content) l := by
  refine tend_withWorkspace (tend_ends h) fun w hw => ?_
  cases hwm : w.mirror with
  | none => exact tend_ends h
  | some m =>
      have hm := h.made w (List.mem_of_getElem? hw) m hwm
      dsimp only
      rw [tend_state]
      cases hr : checkedRelative l.state.policy w.root path with
      | error e => exact tend_ends h
      | ok relative =>
          have hfits : relative.IsInner ∧ l.state.policy.isSource relative :=
            ⟨isInner_of_checkedRelative hr, isSource_of_checkedRelative hr⟩
          exact tend_acquire h (fun l' hl => ⟨hl.isMade hm, hl.policy ▸ hfits⟩)
            fun l' hl => tend_documentTurn hl.knows (hl.isMade hm) (hl.policy ▸ hfits)

theorem tend_resumeWrite {state : DocumentWrite} (hs : Serves (.writing state) l.state) (signal : Signal) :
    Tend (fun state s => Serves (.writing state) s) (state.resume signal) l := by
  cases state with
  | queued id m relative content =>
      cases signal with
      | go => exact tend_documentTurn h hs.1 hs.2
      | _ => exact tend_abandon h
  | writing id m relative content =>
      cases signal with
      | go => exact tend_write h hs.1 hs.2
      | _ => exact tend_finish h

theorem tend_copy (hm : m.IsMade l.state.policy l.state.disk) (path : Path) :
    Tend (fun state s => Serves (.copying state) s) (CreatedCopy.copy id m path) l := by
  refine tend_withWorkspace (tend_ends h) fun w _ => ?_
  unfold Tend
  rw [Act.reaches_bind]
  refine tend_onDisk h (confined_copyCreated h.tidy hm w.root path) fun r l' hl => ?_
  cases r with
  | ok entries => exact tend_record hl.knows (hl.isMade hm) entries fun l₁ hl₁ => tend_finish hl₁.knows
  | error e => exact tend_finish hl.knows

theorem tend_copyTurn (hm : m.IsMade l.state.policy l.state.disk) (path : Path) :
    Tend (fun state s => Serves (.copying state) s) (CreatedCopy.takeTurn id m path) l :=
  tend_through h hm (tend_copy h hm path)

theorem tend_startCopy (path : Path) :
    Tend (fun state s => Serves (.copying state) s) (CreatedCopy.start id path) l := by
  refine tend_withWorkspace (tend_ends h) fun w hw => ?_
  cases hwm : w.mirror with
  | none => exact tend_ends h
  | some m =>
      have hm := h.made w (List.mem_of_getElem? hw) m hwm
      exact tend_acquire h (fun l' hl => hl.isMade hm) fun l' hl => tend_copyTurn hl.knows (hl.isMade hm) path

theorem tend_resumeCopy {state : CreatedCopy} (hs : Serves (.copying state) l.state) (signal : Signal) :
    Tend (fun state s => Serves (.copying state) s) (state.resume signal) l := by
  cases state with
  | queued id m path =>
      cases signal with
      | go => exact tend_copyTurn h hs path
      | _ => exact tend_abandon h
  | copying id m path =>
      cases signal with
      | go => exact tend_copy h hs path
      | _ => exact tend_finish h

theorem tend_overlay (hm : m.IsMade l.state.policy l.state.disk) {documents : List (Path × ByteArray)}
    (hd : ∀ x ∈ documents, x.1.IsInner ∧ l.state.policy.isSource x.1) :
    Tend Serves (Waiting.overlay id m documents) l := by
  refine tend_withWorkspace (tend_ends h) fun w _ => ?_
  refine tend_onDisk h (confined_overlay h.tidy hm w.root hd) fun r l' hl => ?_
  cases r with
  | ok entries => exact tend_record hl.knows (hl.isMade hm) entries fun l₁ hl₁ => tend_ends hl₁.knows
  | error e => exact tend_ends hl.knows

theorem tend_overlayAll (documents : List (Path × ByteArray)) : Tend Serves (Waiting.overlayAll documents id) l := by
  refine tend_withWorkspace (tend_ends h) fun w hw => ?_
  have hfits : ∀ x ∈ overlays l.state.policy w.root documents, x.1.IsInner ∧ l.state.policy.isSource x.1 :=
    fun x hx => ⟨isInner_of_mem_overlays hx, isSource_of_mem_overlays hx⟩
  rw [tend_state]
  dsimp only
  split
  · exact tend_ends h
  · exact tend_ends h
  · rename_i m hwm _
    have hm := h.made w (List.mem_of_getElem? hw) m hwm
    exact tend_through h ⟨hm, hfits⟩ (tend_overlay h hm hfits)

theorem tends_delete (hm : m.IsMade l.state.policy l.state.disk) :
    Tends l ((Initialization.delete m).leaves l) := by
  rw [Initialization.leaves_delete]
  exact tends_disk h (confined_delete h.tidy hm)

theorem tend_deleteMirror (hm : m.IsMade l.state.policy l.state.disk) : Tend Serves (Waiting.deleteMirror m) l := by
  unfold Waiting.deleteMirror Tend
  rw [Act.reaches_bind, Act.reaches_done]
  exact tends_delete h hm

theorem tend_deleteAt (number : Nat) : Tend Serves (Waiting.deleteAt number) l := by
  have hreturns : (Waiting.mirrorAt? number).returns l = (l.state.indexes.keys[number]?).map Mirror.mk := rfl
  unfold Waiting.deleteAt Tend
  rw [Act.reaches_bind, hreturns]
  cases hn : l.state.indexes.keys[number]? with
  | none => exact tend_ends h
  | some path =>
      have hm := h.indexed path (List.mem_of_getElem? hn)
      exact tend_through h hm (tend_deleteMirror h hm)

/-- What is known of the server when it keeps a new mirror. -/
theorem tends_keep {disk : Disk} (root : Path) (hm : m.IsMade l.state.policy disk)
    (hd : Disk.Confined l.state.policy l.state.disk disk) (index : Index) :
    Tends l ((Waiting.keep root (some m)).leaves
      { l with state := { l.state with disk, indexes := l.state.indexes.insert m.path index } }) := by
  refine ⟨rfl, rfl, rfl, hd, hd.tidy, fun w hw m' hm' => ?_, fun path hp => ?_⟩
  · rcases List.mem_append.mp hw with hw | hw
    · exact (h.made w hw m' hm').confined hd
    · cases List.mem_singleton.mp hw
      cases hm'
      exact hm
  · have hp' : path ∈ (l.state.indexes.insert m.path index).keys := hp
    rcases Dict.mem_keys_insert.mp hp' with rfl | hp'
    · exact hm
    · exact (h.indexed path hp').confined hd

theorem tend_createMirror : Tend Serves (Waiting.createMirror root) l := by
  unfold Waiting.createMirror Tend
  rw [reaches_makeMirror]
  refine (confined_create h.tidy root).mono (fun (m, index) disk ⟨hd, hm⟩ => ?_) fun f disk hd => tends_disk h hd
  dsimp only
  rw [Act.reaches_bind]
  exact tends_keep h root hm hd index

end parts

/-! ## Calls -/

/-- A call is a part of an operation. -/
theorem Tend.ending {a : ServerAct (Step τ α)} {wrap : τ → Waiting} {f : α → Result}
    (h : Tend (fun state s => Serves (wrap state) s) a l) : Tend Serves (Waiting.ending a wrap f) l := by
  unfold Tend Waiting.ending Act.andThen
  rw [Act.reaches_afterwards]
  refine h.mono (fun _ _ h => h) fun r l' h => ?_
  cases r <;> exact h

theorem tend_onGo (h : l.state.Knows) {signal : Signal} {next : ServerAct (Step Waiting Result)}
    (hn : Tend Serves next l) : Tend Serves (Waiting.onGo signal next) l := by
  cases signal with
  | go => exact hn
  | _ => exact tend_ends h

theorem tend_withKept (h : l.state.Knows) {f : WorkspaceId → ServerAct (Step Waiting Result)}
    (hf : ∀ id, Tend Serves (f id) l) : Tend Serves (Waiting.withKept root f) l := by
  unfold Tend Waiting.withKept
  rw [Act.reaches_bind, Act.returns_state]
  cases l.state.registered.get? root.text with
  | none => exact tend_ends h
  | some id => exact hf id

/-- Whatever is asked for begins as calls on mirrors do. -/
theorem tend_begin (h : l.state.Knows) {wish : Wish} {operation : Operation} (ho : wish.operation? = some operation) :
    Tend Serves (Waiting.begin operation) l := by
  cases wish with
  | create root =>
      cases ho
      exact tend_through h trivial (tend_createMirror h)
  | overlay root documents =>
      cases ho
      exact tend_withKept h fun id => tend_overlayAll h documents
  | text root path content =>
      cases ho
      exact tend_withKept h fun id => (tend_startWrite h path content).ending
  | created root path =>
      cases ho
      exact tend_withKept h fun id => (tend_startCopy h path).ending
  | delete number =>
      cases ho
      exact tend_deleteAt h number
  | others => cases ho

/-- Whatever calls wait with, they go on as calls on mirrors do. -/
theorem tend_resume (h : l.state.Knows) {state : Waiting} (hs : Serves state l.state) (signal : Signal) :
    Tend Serves (Waiting.resume state signal) l := by
  cases state with
  | creatingMirror root => exact tend_onGo h (tend_createMirror h)
  | overlaying id m documents => exact tend_onGo h (tend_overlay h hs.1 hs.2)
  | writing state => exact (tend_resumeWrite h hs signal).ending
  | copying state => exact (tend_resumeCopy h hs signal).ending
  | deletingMirror m => exact tend_onGo h (tend_deleteMirror h hs)
  | _ => exact hs.elim

/-- The tasks of calls on mirrors. -/
inductive IsTask (s : ServerState) : Suspended Operation Waiting → Prop where
  | asked {wish : Wish} {operation : Operation} (h : wish.operation? = some operation) : IsTask s (.created operation)
  | waits {state : Waiting} (h : Serves state s) : IsTask s (.waiting state)

theorem tend_task (h : l.state.Knows) {x : Suspended Operation Waiting} (hx : IsTask l.state x) (signal : Signal) :
    Tend Serves (serverMachine.goesOn signal x) l := by
  cases hx with
  | @asked wish operation ho =>
      cases signal with
      | go => exact tend_begin h ho
      | _ => cases wish <;> cases ho <;> exact tend_ends h
  | waits hs => exact tend_resume h hs signal

/-! ## Runs -/

/-- What may happen to a server that makes mirrors: everything but that others touch the mirrors. -/
inductive Undisturbed (s : Server) : Session.Move Wish → Prop where
  | turn : Undisturbed s .turn
  | cancels (task : TaskId) : Undisturbed s (.cancels task)
  | passes (task : TaskId) (signal : Signal) : Undisturbed s (.passes task signal)
  | closes (gate : String) : Undisturbed s (.closes gate)
  | opens (gate : String) : Undisturbed s (.opens gate)
  | asks {wish : Wish} {operation : Operation} (h : wish.operation? = some operation) :
      Undisturbed s (.outside wish)
  | others {files : FileSystem} (writeFailure : Option String) (h : s.state.disk.Spares s.state.policy files) :
      Undisturbed s (.outside (.others files writeFailure))

/-- One thing that happens to a server that makes mirrors. -/
def HappensAsked (s s' : Server) : Prop :=
  ∃ move, Undisturbed s move ∧ s' = s.advance serverMachine Wish.act move

/-- What holds at all times of a server that makes mirrors. -/
structure IsAsked (s : Server) : Prop where
  knows : s.state.Knows
  tasks : ∀ task x, (task, x) ∈ s.tasks → IsTask s.state x
  created : s.loop.created = []
  gatherings : s.loop.gatherings = []

theorem IsTask.later {s s' : ServerState} {x : Suspended Operation Waiting} (h : IsTask s x)
    (hp : s'.policy = s.policy) (hd : s.disk.scratches ≤ s'.disk.scratches) : IsTask s' x := by
  cases h with
  | asked ho => exact .asked ho
  | waits hs => exact .waits (hs.later hp hd)

/-- A task goes on, and what it does is confined. -/
theorem IsAsked.run {s : Server} (h : IsAsked s) {task : TaskId} {x : Suspended Operation Waiting}
    (hx : s.task? task = some x) (signal : Signal) :
    IsAsked (s.run serverMachine task signal) ∧
      Disk.Confined s.state.policy s.state.disk (s.run serverMachine task signal).state.disk := by
  have htend : Tend Serves (serverMachine.goesOn signal x) { s.loop with current := task } :=
    tend_task (l := { s.loop with current := task }) h.knows (h.tasks task x (Session.mem_of_task? hx)) signal
  refine Session.run_of_reaches
    (p := fun s' => IsAsked s' ∧ Disk.Confined s.state.policy s.state.disk s'.state.disk) hx ?_
  have hothers : ∀ {l : Loop ServerState Operation}, Tends { s.loop with current := task } l → ∀ task' x',
      (task', x') ∈ s.without task → IsTask l.state x' := fun hl task' x' hm =>
    (h.tasks task' x' (Session.mem_without.mp hm).1).later hl.policy hl.confined.scratches
  refine htend.mono (fun state l ⟨hl, hs⟩ => ?_) fun r l hl => ?_
  · rw [Session.wentOn_waits (hl.created.trans h.created)]
    refine ⟨⟨hl.knows, fun task' x' hm => ?_, hl.created.trans h.created, hl.gatherings.trans h.gatherings⟩,
      hl.confined⟩
    rcases List.mem_append.mp hm with hm | hm
    · exact hothers hl task' x' hm
    · cases List.mem_singleton.mp hm
      exact .waits hs
  · rw [Session.wentOn_ends (hl.created.trans h.created) (hl.gatherings.trans h.gatherings)]
    exact ⟨⟨hl.knows, hothers hl, hl.created.trans h.created, hl.gatherings.trans h.gatherings⟩, hl.confined⟩

/-- An act that creates no task and leaves the state alone. -/
theorem IsAsked.act {s : Server} (h : IsAsked s) {a : ServerAct Unit} (hl : (a.leaves s.loop).state = s.state)
    (hc : (a.leaves s.loop).created = []) (hg : (a.leaves s.loop).gatherings = []) :
    IsAsked (s.act a).2 ∧ (s.act a).2.state = s.state := by
  rw [Session.act_eq, Session.adopt_of_created_eq_nil hc]
  refine ⟨⟨?_, fun task x hm => ?_, hc, hg⟩, hl⟩
  · show (a.leaves s.loop).state.Knows
    rw [hl]
    exact h.knows
  · show IsTask (a.leaves s.loop).state x
    rw [hl]
    exact h.tasks task x hm

/-- A call begins. -/
theorem IsAsked.asks {s : Server} (h : IsAsked s) {wish : Wish} {operation : Operation}
    (ho : wish.operation? = some operation) :
    IsAsked (s.act (discard (Act.create operation))).2 ∧
      (s.act (discard (Act.create operation))).2.state = s.state := by
  refine ⟨⟨h.knows, fun task x hm => ?_, rfl, h.gatherings⟩, rfl⟩
  rcases List.mem_append.mp hm with hm | hm
  · exact h.tasks task x hm
  · dsimp only at hm
    rw [h.created] at hm
    cases List.mem_singleton.mp hm
    exact .asked ho

theorem Wish.act_of_operation? {wish : Wish} {operation : Operation} (ho : wish.operation? = some operation) :
    wish.act = discard (Act.create operation) := by
  cases wish <;> cases ho <;> rfl

/-- Whether others act. -/
def IsByOthers : Session.Move Wish → Prop
  | .outside (.others _ _) => True
  | _ => False

/-- Everything that happens keeps what holds at all times, and what the server itself does is confined. -/
theorem IsAsked.move {s : Server} (h : IsAsked s) {move : Session.Move Wish} (hm : Undisturbed s move) :
    IsAsked (s.advance serverMachine Wish.act move) ∧ (¬IsByOthers move →
      Disk.Confined s.state.policy s.state.disk (s.advance serverMachine Wish.act move).state.disk) := by
  have hrefl : ∀ {s' : Server}, s'.state = s.state → Disk.Confined s.state.policy s.state.disk s'.state.disk :=
    fun he => by rw [he]; exact .refl h.knows.tidy
  have hquiet : ∀ {s' : Server}, IsAsked s' ∧ s'.state = s.state → IsAsked s' ∧ (¬IsByOthers move →
      Disk.Confined s.state.policy s.state.disk s'.state.disk) := fun ⟨hs, he⟩ => ⟨hs, fun _ => hrefl he⟩
  cases hm with
  | turn =>
      refine Session.turn_keeps (p := fun s' => IsAsked s' ∧ (¬IsByOthers (.turn : Session.Move Wish) →
        Disk.Confined s.state.policy s.state.disk s'.state.disk)) ⟨h, fun _ => hrefl rfl⟩ ?_ ?_ ?_
      · exact fun w rest n _ => ⟨⟨h.knows, h.tasks, h.created, h.gatherings⟩, fun _ => hrefl rfl⟩
      · exact fun w rest _ _ => ⟨⟨h.knows, h.tasks, h.created, h.gatherings⟩, fun _ => hrefl rfl⟩
      · intro w rest x _ hx
        have hpopped : IsAsked { s with loop := { s.loop with ready := rest } } :=
          ⟨h.knows, h.tasks, h.created, h.gatherings⟩
        exact (hpopped.run hx w.signal).imp_right fun hd _ => hd
  | cancels task =>
      refine hquiet ?_
      show IsAsked (s.cancel task).2 ∧ (s.cancel task).2.state = s.state
      unfold Session.cancel
      split
      · refine h.act (Act.leaves_cancel_state task _) ?_ ?_
        · rw [Act.leaves_cancel_of_gatherings_eq_nil h.gatherings]
          exact h.created
        · rw [Act.leaves_cancel_of_gatherings_eq_nil h.gatherings]
          exact h.gatherings
      · exact ⟨h, rfl⟩
  | passes task signal =>
      refine hquiet (h.act ?_ ?_ ?_)
      · rw [Act.pass, Act.leaves_modify]
        split <;> rfl
      · rw [Act.pass, Act.leaves_modify]
        split <;> exact h.created
      · rw [Act.pass, Act.leaves_modify]
        split <;> exact h.gatherings
  | closes gate => exact hquiet (h.act rfl h.created h.gatherings)
  | opens gate => exact hquiet (h.act rfl h.created h.gatherings)
  | @asks wish operation ho =>
      refine hquiet ?_
      show IsAsked (s.act wish.act).2 ∧ (s.act wish.act).2.state = s.state
      rw [Wish.act_of_operation? ho]
      exact h.asks ho
  | @others files writeFailure hspares =>
      refine ⟨?_, fun hno => absurd trivial hno⟩
      have hadopt : (s.act (Wish.act (.others files writeFailure))).2 =
          { s with loop := { s.loop with
              state := { s.state with disk := { s.state.disk with files, writeFailure } } } } :=
        Session.adopt_of_created_eq_nil h.created
      show IsAsked (s.act (Wish.act (.others files writeFailure))).2
      rw [hadopt]
      have htidy : files.IsTidy s.state.policy s.state.disk.scratches := h.knows.tidy.spares hspares
      refine ⟨⟨htidy, h.knows.made, h.knows.indexed⟩, fun task x hm => ?_, h.created, h.gatherings⟩
      exact (h.tasks task x hm).later rfl (Nat.le_refl _)

theorem IsAsked.runs {s s' : Server} (h : IsAsked s) (hr : Relation.ReflTransGen HappensAsked s s') : IsAsked s' := by
  induction hr with
  | refl => exact h
  | tail _ hstep ih =>
      obtain ⟨move, hmove, rfl⟩ := hstep
      exact (ih.move hmove).1

end Mirror

end InkServer
