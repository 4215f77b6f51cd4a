import InkServer.Proofs.Mirror.Ledger
import InkServer.Proofs.Task.Runs
import InkServer.Server.Run

/-!
# How calls of a mirror go

A call of a mirror waits for its turn and perhaps before it writes, and while it waits it has changed nothing.
In the turn in which it ends it writes whatever it writes, tells the index if it succeeds, and gives back the
lock.
-/

namespace InkServer

open Work ServerAct

/-- What the server knows of the files of a mirror. -/
def ServerState.indexOf (s : ServerState) (m : Mirror) : Mirror.Index := (s.indexes.get? m.path).getD {}

namespace Mirror

variable {τ υ α β : Type} {id : WorkspaceId} {m : Mirror} {base : Place} {asked : Option (Path × ByteArray)}
  {fits : τ → Prop} {l l₁ l₂ : Loop ServerState Operation}

/-! ## Turns of calls -/

/-- What calls of the mirror of a workspace leave as it is, and all that they change of the workspace. -/
structure Stays (id : WorkspaceId) (l l' : Loop ServerState Operation) : Prop where
  registered : l'.state.registered = l.state.registered
  created : l'.created = l.created
  gatherings : l'.gatherings = l.gatherings
  workspace : ∀ w, l.state.workspaces[id]? = some w →
    ∃ lock, l'.state.workspaces[id]? = some { w with writing := lock }

theorem Stays.refl : Stays id l l := ⟨rfl, rfl, rfl, fun w hw => ⟨w.writing, hw⟩⟩

theorem Stays.trans (h : Stays id l l₁) (h' : Stays id l₁ l₂) : Stays id l l₂ := by
  refine ⟨h'.registered.trans h.registered, h'.created.trans h.created, h'.gatherings.trans h.gatherings,
    fun w hw => ?_⟩
  obtain ⟨lock, hlock⟩ := h.workspace w hw
  exact h'.workspace { w with writing := lock } hlock

theorem stays_setLock (lock : Lock) (ready : List Wake) :
    Stays id l { l with state := (writingLock id).set lock l.state, ready } := by
  refine ⟨rfl, rfl, rfl, fun w hw => ⟨lock, ?_⟩⟩
  simp only [writingLock, List.getElem?_modify, if_pos]
  rw [hw]
  rfl

/-- How a call ends: what it wrote, what it told the index, and why it may have written nothing. -/
structure Ends (m : Mirror) (base : Place) (asked : Option (Path × ByteArray)) (succeeded : Bool)
    (contents : List (Path × ByteArray)) (s s' : ServerState) : Prop where
  fills : m.Fills base s.disk contents s'.disk
  index : s'.indexOf m =
    (s.indexOf m).record ((if succeeded then contents else []).map fun w => .ofContent w.1 w.2)
  fits : ∀ a, asked = some a → succeeded → contents = [a] ∨ contents = [] ∧
    ∃ e, (s.indexOf m).get? a.1 = some e ∧ e.fingerprint = Digest.sha256 a.2

/-- How a turn of a call goes. -/
def Goes (id : WorkspaceId) (m : Mirror) (base : Place) (asked : Option (Path × ByteArray)) (fits : τ → Prop)
    (a : ServerAct (Step τ α)) (l : Loop ServerState Operation) : Prop :=
  a.Reaches l
    (fun state l' => Stays id l l' ∧ l'.state.disk = l.state.disk ∧ l'.state.indexes = l.state.indexes ∧
      fits state)
    fun r l' => Stays id l l' ∧ ∃ contents, Ends m base asked r.isOk contents l.state l'.state

theorem Goes.ending {a : ServerAct (Step τ α)} {wrap : τ → Waiting} {f : α → Result} {fits' : Waiting → Prop}
    (h : Goes id m base asked fits a l) (hf : ∀ state, fits state → fits' (wrap state)) :
    Goes id m base asked fits' (Waiting.ending a wrap f) l := by
  unfold Goes Waiting.ending Act.andThen
  rw [Act.reaches_afterwards]
  refine h.mono (fun state l' ⟨hs, hd, hi, hfits⟩ => ⟨hs, hd, hi, hf state hfits⟩) fun r l' h => ?_
  cases r <;> exact h

/-- A call may end without having done anything, unless it was to bring a text into the mirror. -/
theorem ends_nothing {s s' : ServerState} (hm : m.StandsAt base s.disk.files) (hd : s'.disk = s.disk)
    (hi : s'.indexes = s.indexes) : Ends m base asked false [] s s' := by
  refine ⟨?_, ?_, fun _ _ h => by cases h⟩
  · rw [hd]
    exact .refl hm
  · simp only [ServerState.indexOf, hi]
    rfl

theorem goes_fail {f : Failure} (hm : m.StandsAt base l.state.disk.files) :
    Goes id m base asked fits (pure (.fail f) : ServerAct (Step τ α)) l :=
  ⟨.refl, [], ends_nothing hm rfl rfl⟩

theorem goes_waits {state : τ} (h : fits state) :
    Goes id m base asked fits (pure (.waits state) : ServerAct (Step τ α)) l :=
  ⟨.refl, rfl, rfl, h⟩

/-! ## The lock -/

/-- A call that has done all it does gives back the lock. -/
theorem goes_finish {r : Except Failure α} {waits : τ → Loop ServerState Operation → Prop}
    {contents : List (Path × ByteArray)} (hs : Stays id l l₁)
    (he : Ends m base asked r.isOk contents l.state l₁.state) :
    (DocumentWrite.finish id r : ServerAct (Step τ α)).Reaches l₁ waits fun r l' =>
      Stays id l l' ∧ ∃ contents, Ends m base asked r.isOk contents l.state l'.state := by
  unfold DocumentWrite.finish
  rw [Act.reaches_bind, Act.reaches_ends, Act.leaves_unlock]
  exact ⟨hs.trans (stays_setLock _ _), contents, he.fills, he.index, he.fits⟩

theorem goes_abandon {f : Failure} (hm : m.StandsAt base l.state.disk.files) :
    Goes id m base asked fits
      (do Act.abandon (writingLock id); pure (.fail f) : ServerAct (Step τ α)) l := by
  unfold Goes
  rw [Act.reaches_bind, Act.reaches_fail, Act.leaves_abandon]
  exact ⟨stays_setLock _ _, [], ends_nothing hm rfl rfl⟩

theorem goes_acquire {state : τ} {next : ServerAct (Step τ α)} (h : fits state)
    (hn : ∀ l', l'.state.disk = l.state.disk → Goes id m base asked fits next l') :
    Goes id m base asked fits (Act.acquire (writingLock id) state next) l := by
  unfold Goes
  rw [Act.reaches_acquire]
  refine ⟨fun _ => ?_, fun _ => ⟨stays_setLock _ l.ready, rfl, rfl, h⟩⟩
  let taken : Loop ServerState Operation := { l with
    state := (writingLock id).set { (writingLock id).get l.state with holder := some l.current } l.state }
  have hs : Stays id l taken := stays_setLock _ l.ready
  exact (hn taken rfl).mono (fun state l' ⟨hs', hd, hi, hf⟩ => ⟨hs.trans hs', hd, hi, hf⟩)
    fun r l' ⟨hs', contents, he⟩ => ⟨hs.trans hs', contents, he.fills, he.index, he.fits⟩

theorem goes_through {gate : String} {state : τ} {next : ServerAct (Step τ α)} (h : fits state)
    (hn : Goes id m base asked fits next l) : Goes id m base asked fits (Act.through gate state next) l := by
  unfold Goes Act.through
  rw [Act.reaches_bind, Act.reaches_ite]
  exact ⟨fun _ => ⟨⟨rfl, rfl, rfl, fun w hw => ⟨w.writing, hw⟩⟩, rfl, rfl, h⟩, fun _ => hn⟩

/-! ## Work on the disk -/

theorem returns_onDisk (work : DiskWork β) : (onDisk work).returns l = returns work l.state.disk := rfl

theorem leaves_onDisk (work : DiskWork β) :
    (onDisk work).leaves l = { l with state := { l.state with disk := leaves work l.state.disk } } := rfl

/-- An act that begins with work on the disk goes on from what the work comes to. -/
theorem reaches_onDisk {work : DiskWork β} {f : Except Failure β → ServerAct (Step τ α)}
    {waits : τ → Loop ServerState Operation → Prop}
    {ends : Except Failure α → Loop ServerState Operation → Prop} :
    (onDisk work >>= f).Reaches l waits ends ↔
      Reaches work l.state.disk
        (fun b disk => (f (.ok b)).Reaches { l with state := { l.state with disk } } waits ends)
        fun e disk => (f (.error e)).Reaches { l with state := { l.state with disk } } waits ends := by
  rw [Act.reaches_bind, returns_onDisk, leaves_onDisk]
  unfold Reaches
  cases returns work l.state.disk <;> rfl

theorem stays_disk (disk : Disk) : Stays id l { l with state := { l.state with disk } } :=
  ⟨rfl, rfl, rfl, fun w hw => ⟨w.writing, hw⟩⟩

theorem stays_record (entries : List MirrorEntry) : Stays id l ((record m entries).leaves l) :=
  ⟨rfl, rfl, rfl, fun w hw => ⟨w.writing, hw⟩⟩

theorem indexOf_record (entries : List MirrorEntry) :
    ((record m entries).leaves l).state.indexOf m = (l.state.indexOf m).record entries := by
  show ((l.state.indexes.insert m.path _).get? m.path).getD {} = _
  rw [Dict.get?_insert_self]
  rfl

/-! ## The parts of calls -/

variable {relative : Path} {content : ByteArray} {w : Workspace}

theorem goes_write {fits : DocumentWrite → Prop} (hm : m.StandsAt base l.state.disk.files) (hr : relative.IsInner) :
    Goes id m base (some (relative, content)) fits (DocumentWrite.write id m relative content) l := by
  unfold Goes DocumentWrite.write
  rw [reaches_onDisk]
  refine (writeFile_fills hm _ hr content).mono (fun e d ⟨hfill, he⟩ => ?_) fun f d hfill => ?_
  · rw [Act.reaches_bind]
    refine goes_finish ((stays_disk d).trans (stays_record _)) ⟨hfill, ?_, fun a ha _ => .inl ?_⟩
    · rw [indexOf_record, he]
      rfl
    · cases ha
      rfl
  · exact goes_finish (stays_disk d) ⟨hfill, rfl, fun _ _ h => by cases h⟩

/-- A text is passed over only if the index has its fingerprint. -/
theorem isUpToDate_reaches (index : Index) (d : Disk) :
    Reaches (m.isUpToDate index relative content) d
      (fun known d' => d' = d ∧ (known → ∃ e, index.get? relative = some e ∧
        e.fingerprint = Digest.sha256 content))
      fun _ d' => d' = d := by
  have hlooks := looks_isUpToDate m index relative content
  refine hlooks.reaches (fun known hk => ⟨rfl, fun ht => ?_⟩) fun _ _ => rfl
  unfold isUpToDate at hk
  split at hk
  · cases hk
    cases ht
  · rename_i e he
    split at hk
    · rename_i hsame
      exact ⟨e, he, hsame⟩
    · cases hk
      cases ht

theorem goes_documentTurn {fits : DocumentWrite → Prop} (hm : m.StandsAt base l.state.disk.files) (hr : relative.IsInner)
    (hf : fits (.writing id m relative content)) :
    Goes id m base (some (relative, content)) fits (DocumentWrite.takeTurn id m relative content) l := by
  unfold Goes DocumentWrite.takeTurn
  rw [Act.reaches_bind, reaches_onDisk]
  refine (isUpToDate_reaches _ _).mono (fun known d ⟨hd, hk⟩ => ?_) fun f d hd => ?_
  · subst hd
    cases known with
    | true =>
        refine goes_finish .refl ⟨.refl hm, rfl, fun a ha _ => .inr ⟨rfl, ?_⟩⟩
        cases ha
        exact hk rfl
    | false => exact goes_through hf (goes_write hm hr)
  · subst hd
    exact goes_finish .refl (ends_nothing hm rfl rfl)

theorem goes_copy {fits : CreatedCopy → Prop} (hm : m.StandsAt base l.state.disk.files) (path : Path) :
    Goes id m base none fits (CreatedCopy.copy id m path) l := by
  unfold Goes CreatedCopy.copy withWorkspace
  rw [Act.reaches_bind]
  split
  · rw [Act.reaches_bind, reaches_onDisk]
    refine (copyCreated_fills hm _ _ path).mono (fun entries d ⟨contents, hfill, he⟩ => ?_)
      fun f d ⟨contents, hfill⟩ => ?_
    · rw [Act.reaches_bind]
      refine goes_finish ((stays_disk d).trans (stays_record _)) ⟨hfill, ?_, nofun⟩
      rw [indexOf_record, he]
      rfl
    · exact goes_finish (stays_disk d) ⟨hfill, rfl, nofun⟩
  · exact goes_fail hm

/-! ## Calls -/

/-- What calls of the mirror of a workspace wait with. -/
inductive IsWait (id : WorkspaceId) (m : Mirror) : Waiting → Prop where
  | inLine {relative : Path} (hr : relative.IsInner) (content : ByteArray) :
      IsWait id m (.writing (.queued id m relative content))
  | writes {relative : Path} (hr : relative.IsInner) (content : ByteArray) :
      IsWait id m (.writing (.writing id m relative content))
  | copyInLine (path : Path) : IsWait id m (.copying (.queued id m path))
  | copies (path : Path) : IsWait id m (.copying (.copying id m path))

/-- The calls of the mirror that is kept for a directory, wherever they are. -/
inductive IsCall (root : Path) (id : WorkspaceId) (m : Mirror) : Suspended Operation Waiting → Prop where
  | text (path : Path) (content : ByteArray) : IsCall root id m (.created (.writeDocument root path content))
  | created (path : Path) : IsCall root id m (.created (.copyCreated root path))
  | waits {state : Waiting} (h : IsWait id m state) : IsCall root id m (.waiting state)

/-- The file and the text that a call is to bring into the mirror, if it is called with the text of a source
file. -/
def asked? (policy : MirrorPolicy) (root : Path) : Suspended Operation Waiting → Option (Path × ByteArray)
  | .created (.writeDocument _ path content) =>
    match checkedRelative policy root path with
    | .ok relative => some (relative, content)
    | .error _ => none
  | .waiting (.writing (.queued _ _ relative content)) => some (relative, content)
  | .waiting (.writing (.writing _ _ relative content)) => some (relative, content)
  | _ => none

section parts

variable (hm : m.StandsAt base l.state.disk.files)

include hm

theorem goes_resumeWrite {state : DocumentWrite} (h : IsWait id m (.writing state)) (signal : Signal)
    (policy : MirrorPolicy) (root : Path) :
    Goes id m base (asked? policy root (.waiting (.writing state))) (fun state => IsWait id m (.writing state))
      (state.resume signal) l := by
  cases h with
  | inLine hr content =>
      cases signal with
      | go => exact goes_documentTurn hm hr (.writes hr content)
      | _ => exact goes_abandon hm
  | writes hr content =>
      cases signal with
      | go => exact goes_write hm hr
      | _ => exact goes_finish .refl (ends_nothing hm rfl rfl)

theorem goes_resumeCopy {state : CreatedCopy} (h : IsWait id m (.copying state)) (signal : Signal) :
    Goes id m base none (fun state => IsWait id m (.copying state)) (state.resume signal) l := by
  cases h with
  | copyInLine path =>
      cases signal with
      | go => exact goes_through (.copies path) (goes_copy hm path)
      | _ => exact goes_abandon hm
  | copies path =>
      cases signal with
      | go => exact goes_copy hm path
      | _ => exact goes_finish .refl (ends_nothing hm rfl rfl)

variable {w : Workspace} (hw : l.state.workspaces[id]? = some w) (hwm : w.mirror = some m)

include hw hwm

theorem goes_startWrite (path : Path) (content : ByteArray) :
    Goes id m base (asked? l.state.policy w.root (.created (.writeDocument w.root path content)))
      (fun state => IsWait id m (.writing state)) (DocumentWrite.start id path content) l := by
  have hreturns : (workspace? id).returns l = some w := hw
  unfold Goes DocumentWrite.start withWorkspace
  rw [Act.reaches_bind, hreturns]
  dsimp only
  rw [hwm]
  dsimp only
  have hstate : (Act.state : ServerAct ServerState).returns ((workspace? id).leaves l) = l.state := rfl
  rw [Act.reaches_bind, hstate]
  change Goes id m base _ (fun state => IsWait id m (.writing state)) _ l
  unfold asked?
  dsimp only
  cases hr : checkedRelative l.state.policy w.root path with
  | error e => exact goes_fail hm
  | ok relative =>
      have hinner := isInner_of_checkedRelative hr
      refine goes_acquire (.inLine hinner content) fun l' hd => ?_
      have hm' : m.StandsAt base l'.state.disk.files := hd ▸ hm
      exact goes_documentTurn hm' hinner (.writes hinner content)

theorem goes_startCopy (path : Path) :
    Goes id m base none (fun state => IsWait id m (.copying state)) (CreatedCopy.start id path) l := by
  have hreturns : (workspace? id).returns l = some w := hw
  unfold Goes CreatedCopy.start withWorkspace
  rw [Act.reaches_bind, hreturns]
  dsimp only
  rw [hwm]
  refine goes_acquire (.copyInLine path) fun l' hd => ?_
  have hm' : m.StandsAt base l'.state.disk.files := hd ▸ hm
  exact goes_through (.copies path) (goes_copy hm' path)

end parts

/-- Something done with the workspace that is kept for a directory. -/
theorem goes_withKept {root : Path} {f : WorkspaceId → ServerAct (Step Waiting Result)} {fits : Waiting → Prop}
    (hr : l.state.registered.get? root.text = some id) (h : Goes id m base asked fits (f id) l) :
    Goes id m base asked fits (Waiting.withKept root f) l := by
  unfold Goes Waiting.withKept
  rw [Act.reaches_bind, Act.returns_state, hr]
  exact h

/-- However a call goes on, it goes as calls of the mirror do. -/
theorem goes_call {root : Path} {x : Suspended Operation Waiting} (hx : IsCall root id m x) (signal : Signal)
    (hm : m.StandsAt base l.state.disk.files) (hr : l.state.registered.get? root.text = some id)
    (hw : l.state.workspaces[id]? = some w) (hwr : w.root = root) (hwm : w.mirror = some m) :
    Goes id m base (asked? l.state.policy root x) (IsWait id m) (serverMachine.goesOn signal x) l := by
  subst hwr
  cases hx with
  | text path content =>
      cases signal with
      | go => exact goes_withKept hr ((goes_startWrite hm hw hwm path content).ending fun _ h => h)
      | _ => exact goes_fail hm
  | created path =>
      cases signal with
      | go => exact goes_withKept hr ((goes_startCopy hm hw hwm path).ending fun _ h => h)
      | _ => exact goes_fail hm
  | waits h =>
      cases h with
      | inLine hi content =>
          exact (goes_resumeWrite hm (.inLine hi content) signal l.state.policy w.root).ending fun _ h => h
      | writes hi content =>
          exact (goes_resumeWrite hm (.writes hi content) signal l.state.policy w.root).ending fun _ h => h
      | copyInLine path => exact (goes_resumeCopy hm (.copyInLine path) signal).ending fun _ h => h
      | copies path => exact (goes_resumeCopy hm (.copies path) signal).ending fun _ h => h

end Mirror

end InkServer
