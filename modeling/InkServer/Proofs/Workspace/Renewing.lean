import InkServer.Proofs.Mirror.Faithful
import InkServer.Proofs.Workspace.Created
import InkServer.Proofs.Workspace.Initializing

/-!
# Workspaces that get a new mirror

While nothing else happens, an initialization either fails, and the user is told of it, or its workspace is ready
afterwards with a new mirror that holds the open documents. All other mirrors are left alone.
-/

namespace InkServer

open Work ServerAct DiskWork Mirror

namespace ServerState

variable {s s' s'' : ServerState} {id : WorkspaceId} {m : Mirror} {w : Workspace}

/-! ## Servers at rest -/

/-- A server at rest whose mirrors are faithful. -/
structure IsUpkept (s : ServerState) : Prop extends Rests s where
  faithful : ∀ id m, s.Has id m → m.IsFaithful s

/-- The server after one workspace was changed and something was noted. -/
def changing (s : ServerState) (id : WorkspaceId) (f : Workspace → Workspace) (record : List Event) : ServerState :=
  { s with workspaces := s.workspaces.modify id f, events := s.events ++ record }

/-- The user was told of an error. -/
def IsAlarmed (s : ServerState) : Prop := ∃ text, .noticed (.serverError text) ∈ s.events

/-- Something was done for one workspace. The others are as they were, and so is where documents belong. -/
structure WorksFor (id : WorkspaceId) (s s' : ServerState) : Prop where
  policy : s'.policy = s.policy
  documents : s'.documents = s.documents
  registered : s'.registered = s.registered
  folders : s'.folders = s.folders
  settings : s'.settings = s.settings
  record : s.events <+: s'.events
  others : ∀ other : WorkspaceId, other ≠ id → s'.workspaces[other]? = s.workspaces[other]?
  root : (s'.workspaces[id]?).map Workspace.root = (s.workspaces[id]?).map Workspace.root
  spared : ∀ other m, other ≠ id → s.Has other m → m.IsLeftAlone s s'

namespace WorksFor

theorem refl : WorksFor id s s :=
  ⟨rfl, rfl, rfl, rfl, rfl, List.prefix_refl _, fun _ _ => rfl, rfl, fun _ _ _ _ => .refl⟩

theorem has_iff (h : WorksFor id s s') {other : WorkspaceId} (ho : other ≠ id) : s'.Has other m ↔ s.Has other m := by
  unfold Has
  rw [h.others other ho]

theorem trans (h : WorksFor id s s') (h' : WorksFor id s' s'') : WorksFor id s s'' :=
  ⟨h'.policy.trans h.policy, h'.documents.trans h.documents, h'.registered.trans h.registered,
    h'.folders.trans h.folders, h'.settings.trans h.settings, h.record.trans h'.record,
    fun other ho => (h'.others other ho).trans (h.others other ho), h'.root.trans h.root,
    fun other m ho hm => (h.spared other m ho hm).trans (h'.spared other m ho ((h.has_iff ho).mpr hm))⟩

theorem roots (h : WorksFor id s s') (other : WorkspaceId) :
    (s'.workspaces[other]?).map Workspace.root = (s.workspaces[other]?).map Workspace.root := by
  by_cases ho : other = id
  · exact ho ▸ h.root
  · rw [h.others other ho]

theorem findWorkspace (h : WorksFor id s s') (path : Path) : s'.findWorkspace path = s.findWorkspace path :=
  findWorkspace_congr h.registered h.roots path

theorem openDocumentsOf (h : WorksFor id s s') (other : WorkspaceId) :
    s'.openDocumentsOf other = s.openDocumentsOf other :=
  openDocumentsOf_congr h.documents h.registered h.roots other

/-- The workspace becomes another one. -/
theorem changing {f : Workspace → Workspace} (hr : ∀ w, (f w).root = w.root) (s : ServerState) (record : List Event) :
    WorksFor id s (s.changing id f record) := by
  refine ⟨rfl, rfl, rfl, rfl, rfl, List.prefix_append _ _, fun other ho => ?_, ?_, fun _ _ _ _ => .of_same rfl rfl rfl⟩
  · show (s.workspaces.modify id f)[other]? = _
    simp [Ne.symm ho]
  · show ((s.workspaces.modify id f)[id]?).map _ = _
    cases hw : s.workspaces[id]? with
    | none => simp [hw]
    | some w => simp [hw, hr w]

end WorksFor

/-- A mirror was made for a workspace and is not in use yet. All others are left alone. -/
structure Bears (id : WorkspaceId) (m : Mirror) (s s' : ServerState) : Prop extends WorksFor id s s' where
  tidy : s'.disk.files.IsTidy s'.policy s'.disk.scratches
  isFaithful : m.IsFaithful s'
  alone : ∀ other m', s.Has other m' → m' ≠ m ∧ m'.IsLeftAlone s s'
  has : ∀ other m', s'.Has other m' → s.Has other m'
  free : ∀ w ∈ s'.workspaces, w.writing = {}

/-- A workspace is ready with a new mirror, which holds the documents that belong to it. -/
structure Renews (id : WorkspaceId) (s s' : ServerState) : Prop extends WorksFor id s s' where
  upkept : s'.IsUpkept
  ready : ∃ w m, s'.workspaces[id]? = some w ∧ w.isReady ∧ w.mirror = some m ∧ (∀ other, ¬s.Has other m) ∧
    m.HoldsAll s'.disk.files (Mirror.overlays s.policy w.root (s.openDocumentsOf id))

/-! ## Steps of an initialization -/

theorem get?_changing (f : Workspace → Workspace) (record : List Event) (hw : s.workspaces[id]? = some w) :
    (s.changing id f record).workspaces[id]? = some (f w) := by
  show (s.workspaces.modify id f)[id]? = _
  rw [List.getElem?_modify_eq, hw]
  rfl

theorem has_changing_iff {f : Workspace → Workspace} (hm : ∀ w, (f w).mirror = w.mirror) {record : List Event}
    {other : WorkspaceId} : (s.changing id f record).Has other m ↔ s.Has other m := by
  show (∃ w, (s.workspaces.modify id f)[other]? = some w ∧ _) ↔ _
  rw [List.getElem?_modify]
  unfold Has
  cases s.workspaces[other]? with
  | none => simp
  | some w => by_cases ho : id = other <;> simp [ho, hm]

theorem free_changing {f : Workspace → Workspace} {record : List Event} (hf : ∀ w ∈ s.workspaces, w.writing = {})
    (hw : ∀ w, (f w).writing = w.writing) : ∀ w ∈ (s.changing id f record).workspaces, w.writing = {} := by
  intro w hm
  obtain ⟨i, hi, rfl⟩ := List.mem_iff_getElem.mp (show w ∈ s.workspaces.modify id f from hm)
  rw [List.getElem_modify]
  split
  · rw [hw]
    exact hf _ (List.getElem_mem _)
  · exact hf _ (List.getElem_mem _)

/-- A server keeps up the mirrors that are left alone. -/
theorem IsUpkept.leftAlone (h : s.IsUpkept) (ht : s'.disk.files.IsTidy s'.policy s'.disk.scratches)
    (hm : ∀ other m, s'.Has other m → s.Has other m ∧ m.IsLeftAlone s s') (hw : ∀ w ∈ s'.workspaces, w.writing = {}) :
    s'.IsUpkept := by
  have hfaithful : ∀ other m, s'.Has other m → m.IsFaithful s' := fun other m hm' =>
    (h.faithful other m (hm other m hm').1).leftAlone (hm other m hm').2
  exact ⟨⟨ht, fun other m hm' => (hfaithful other m hm').stands.made,
    fun other other' m ho ho' => h.apart other other' m (hm other m ho).1 (hm other' m ho').1, hw⟩, hfaithful⟩

/-- Workspaces that keep their mirrors and locks are kept up. -/
theorem IsUpkept.changing {f : Workspace → Workspace} (h : s.IsUpkept) (hm : ∀ w, (f w).mirror = w.mirror)
    (hw : ∀ w, (f w).writing = w.writing) (id : WorkspaceId) (record : List Event) :
    (s.changing id f record).IsUpkept :=
  h.leftAlone h.tidy (fun _ _ hm' => ⟨(has_changing_iff hm).mp hm', .of_same rfl rfl rfl⟩) (free_changing h.free hw)

/-- A mirror was made. -/
theorem IsUpkept.bears (h : s.IsUpkept) {d : Disk} {index : Index} (id : WorkspaceId) (record : List Event)
    (ht : d.files.IsTidy s.policy d.scratches) (hm : m.IsFaithful (s.indexing m d index))
    (ho : ∀ other : Mirror, other.Stands s.policy s.disk → other ≠ m ∧ other.IsLeftAlone s (s.indexing m d index)) :
    Bears id m s { s.indexing m d index with events := s.events ++ record } := by
  have halone : ∀ other m', s.Has other m' →
      m' ≠ m ∧ m'.IsLeftAlone s { s.indexing m d index with events := s.events ++ record } :=
    fun other m' hm' => (ho m' (h.faithful other m' hm').stands).imp_right fun hl => hl.trans (.of_same rfl rfl rfl)
  exact {
    policy := rfl
    documents := rfl
    registered := rfl
    folders := rfl
    settings := rfl
    record := List.prefix_append _ _
    others := fun _ _ => rfl
    root := rfl
    spared := fun other m' _ hm' => (halone other m' hm').2
    tidy := ht
    isFaithful := hm.leftAlone (.of_same rfl rfl rfl)
    alone := halone
    has := fun _ _ hm' => hm'
    free := h.free }

/-- The documents were written into the mirror. -/
theorem Bears.fills (h : Bears id m s s') (hu : s.IsUpkept) {base : Place} {d : Disk}
    {contents : List (Path × ByteArray)} (hf : m.Fills base s'.disk contents d)
    (hc : Disk.Confined s'.policy s'.disk d) :
    Bears id m s (s'.indexing m d ((s'.indexOf m).record (contents.map fun w => .ofContent w.1 w.2))) := by
  have halone : ∀ other m', s.Has other m' → m' ≠ m ∧ m'.IsLeftAlone s (s'.indexing m d
      ((s'.indexOf m).record (contents.map fun w => .ofContent w.1 w.2))) := fun other m' hm' => by
    obtain ⟨hne, hleft⟩ := h.alone other m' hm'
    have hstands := ((hu.faithful other m' hm').leftAlone hleft).stands
    exact ⟨hne, hleft.trans (hf.isLeftAlone hc h.tidy h.isFaithful.stands hstands hne)⟩
  exact {
    policy := h.policy
    documents := h.documents
    registered := h.registered
    folders := h.folders
    settings := h.settings
    record := h.record
    others := h.others
    root := h.root
    spared := fun other m' _ hm' => (halone other m' hm').2
    tidy := hc.tidy
    isFaithful := hf.isFaithful hc h.isFaithful
    alone := halone
    has := h.has
    free := h.free }

/-- The new mirror takes the place of the previous one. -/
theorem Bears.installs (h : Bears id m s s') (hu : s.IsUpkept) {f : Workspace → Workspace}
    (hm : ∀ w, (f w).mirror = some m) (hw : ∀ w, (f w).writing = w.writing) (hr : ∀ w, (f w).root = w.root)
    (record : List Event) :
    (s'.changing id f record).IsUpkept ∧ WorksFor id s (s'.changing id f record) ∧
      ∀ other m', (s'.changing id f record).Has other m' → m' = m ∨ other ≠ id ∧ s.Has other m' := by
  have hworks := h.toWorksFor.trans (.changing hr s' record)
  have hhas : ∀ other m', (s'.changing id f record).Has other m' →
      other = id ∧ m' = m ∨ other ≠ id ∧ s.Has other m' := by
    intro other m' hm'
    by_cases ho : other = id
    · obtain ⟨w, hget, hw⟩ := hm'
      have hget : (s'.workspaces.modify id f)[other]? = some w := hget
      rw [ho, List.getElem?_modify_eq] at hget
      obtain ⟨v, _, rfl⟩ := Option.map_eq_some_iff.mp hget
      exact .inl ⟨ho, Option.some.inj (hw.symm.trans (hm v))⟩
    · exact .inr ⟨ho, (hworks.has_iff ho).mp hm'⟩
  have hfaithful : ∀ other m', (s'.changing id f record).Has other m' → m'.IsFaithful (s'.changing id f record) := by
    intro other m' hm'
    rcases hhas other m' hm' with ⟨_, rfl⟩ | ⟨_, hold⟩
    · exact h.isFaithful.leftAlone (.of_same rfl rfl rfl)
    · exact ((hu.faithful other m' hold).leftAlone (h.alone other m' hold).2).leftAlone (.of_same rfl rfl rfl)
  refine ⟨⟨⟨h.tidy, fun other m' hm' => (hfaithful other m' hm').stands.made, fun i i' m' hi hi' => ?_,
    free_changing h.free hw⟩, hfaithful⟩, hworks, fun other m' hm' => (hhas other m' hm').imp_left And.right⟩
  rcases hhas i m' hi with ⟨rfl, rfl⟩ | ⟨_, hold⟩
  · rcases hhas i' m' hi' with ⟨rfl, _⟩ | ⟨_, hold'⟩
    · rfl
    · exact absurd rfl (h.alone i' m' hold').1
  · rcases hhas i' m' hi' with ⟨_, rfl⟩ | ⟨_, hold'⟩
    · exact absurd rfl (h.alone i m' hold).1
    · exact hu.apart i i' m' hold hold'

/-- A mirror is deleted that no workspace has any more. -/
theorem IsUpkept.deletes (h : s.IsUpkept) (hm : m.IsMade s.policy s.disk) (hp : s'.policy = s.policy)
    (hd : s'.disk = (m.delete.run s.disk).2) (hi : s'.indexes = s.indexes)
    (hhas : ∀ other m', s'.Has other m' → s.Has other m' ∧ m' ≠ m) (hfree : ∀ w ∈ s'.workspaces, w.writing = {}) :
    s'.IsUpkept ∧ ∀ other m', s'.Has other m' → m'.IsLeftAlone s s' := by
  have hleft : ∀ other m', s'.Has other m' → m'.IsLeftAlone s s' := fun other m' hm' => by
    obtain ⟨hold, hne⟩ := hhas other m' hm'
    have hleft := isLeftAlone_delete h.tidy hm (h.faithful other m' hold).stands hne
    rw [← hd] at hleft
    exact hleft.trans (.of_same hp rfl hi)
  have hconfined := confined_delete h.tidy hm
  rw [← hd] at hconfined
  refine ⟨h.leftAlone (hp ▸ hconfined.tidy) (fun other m' hm' => ?_) hfree, hleft⟩
  exact ⟨(hhas other m' hm').1, hleft other m' hm'⟩

/-- What was done before did not touch mirrors. -/
theorem Renews.since (h : Renews id s' s'') (hw : WorksFor id s s') (hm : ∀ other m, s.Has other m → s'.Has other m) :
    Renews id s s'' := by
  obtain ⟨hworks, hupkept, w, m, hget, hready, hmirror, hnew, hholds⟩ := h
  rw [hw.policy, hw.openDocumentsOf] at hholds
  exact ⟨hw.trans hworks, hupkept, w, m, hget, hready, hmirror, fun other ho => hnew other (hm other m ho), hholds⟩

/-- The mirror that a workspace had before is deleted. -/
theorem Renews.deletes (h : Renews id s s') {previous : Mirror} (hm : previous.IsMade s'.policy s'.disk)
    (hno : ∀ other, ¬s'.Has other previous) {d : Disk} (hd : d = (previous.delete.run s'.disk).2) :
    Renews id s { s' with disk := d } := by
  obtain ⟨hworks, hupkept, w, m, hw, hready, hmirror, hnew, hholds⟩ := h
  have hhas : ∀ other m', ({ s' with disk := d } : ServerState).Has other m' → s'.Has other m' ∧ m' ≠ previous :=
    fun other m' hm' => ⟨hm', fun he => hno other (he ▸ hm')⟩
  have hdeletes : ({ s' with disk := d } : ServerState).IsUpkept ∧ _ :=
    hupkept.deletes hm (by rfl) hd (by rfl) hhas hupkept.free
  obtain ⟨hupkept', hleft⟩ := hdeletes
  refine ⟨hworks.trans { WorksFor.refl with spared := fun other m' _ hm' => hleft other m' hm' }, hupkept', w, m, hw,
    hready, hmirror, hnew, ?_⟩
  exact (hupkept.faithful id m ⟨w, hw, hmirror⟩).holdsAll_leftAlone (hleft id m ⟨w, hw, hmirror⟩)
    (fun x hx => isInner_of_mem_overlays hx) hholds

end ServerState

/-! ## How an initialization settles -/

namespace Initialization

open ServerState

variable {s : ServerState} {l : Loop ServerState Operation} {id : WorkspaceId} {w : Workspace} {m : Mirror} {g : Nat}

/-- What an initialization comes to while nothing else happens. A workspace that waited for a mirror still does where
the user was told that there is none. -/
inductive Outcome (id : WorkspaceId) (s : ServerState) : Except Failure Bool → ServerState → Prop
  | failed (f : Failure) (s' : ServerState) : Outcome id s (.error f) s'
  | alarmed {ready : Bool} {s' : ServerState} (h : s'.IsAlarmed)
      (hw : ∀ w, s.workspaces[id]? = some w → w.state = .mirrorPending → ready = false) :
      Outcome id s (.ok ready) s'
  | renewed {s' : ServerState} (h : Renews id s s') : Outcome id s (.ok true) s'

/-- An initialization of a workspace that is under way. -/
structure IsLast (id : WorkspaceId) (g : Nat) (s s' : ServerState) : Prop where
  workspace : ∃ w, s'.workspaces[id]? = some w ∧ w.initializations = g ∧ w.state ≠ .removed
  pending : ∀ w w', s.workspaces[id]? = some w → s'.workspaces[id]? = some w' → w.state = .mirrorPending →
    w'.state = .mirrorPending

theorem IsLast.congr {s' s'' : ServerState} (h : IsLast id g s s') (hw : s''.workspaces = s'.workspaces) :
    IsLast id g s s'' := by
  obtain ⟨workspace, pending⟩ := h
  rw [← hw] at workspace pending
  exact ⟨workspace, pending⟩

theorem returns_isLatest (hw : l.state.workspaces[id]? = some w) (hg : w.initializations = g)
    (hs : w.state ≠ .removed) : (isLatest id g).returns l = true := by
  show (l.state.workspaces[id]?).any (fun w => g = w.initializations && w.state ≠ .removed) = true
  rw [hw]
  simp [hg, hs]

theorem leaves_hasMirror (id : WorkspaceId) (l : Loop ServerState Operation) : (hasMirror id).leaves l = l := by
  unfold hasMirror
  rw [Act.leaves_bind]
  cases hm : ((workspace? id).returns l).bind (·.mirror) with
  | none => rfl
  | some m =>
      dsimp only
      rw [leaves_onDisk]
      have hlooks : leaves m.isThere l.state.disk = l.state.disk := looks_telling (FileWork.looks_holds _ _) _
      show { l with state := { l.state with disk := leaves m.isThere l.state.disk } } = l
      rw [hlooks]

/-- Giving up tells the user, and a workspace that waited for a mirror still does. -/
theorem settles_giveUp (h : IsLast id g s l.state) (e : MirrorError) :
    Act.Settles (resume · .go) Eq (Outcome id s) (giveUp id g e) l := by
  obtain ⟨w, hw, hg, hs⟩ := h.workspace
  have htells : ∀ (w' : Workspace) (l' : Loop ServerState Operation), l'.state.workspaces[id]? = some w' →
      (w.state = .mirrorPending → w'.state = .mirrorPending) →
      Act.Settles (resume · .go) Eq (Outcome id s) (do tell (.serverError (some e.message)); readiness id) l' := by
    intro w' l' hw' hstate
    unfold readiness
    refine .bind (.bind (Act.settles_ends (Outcome.alarmed ?_ fun w₀ hw₀ hpending => ?_)) (.refl _)) ⟨rfl, rfl, rfl⟩
    · exact ⟨_, List.mem_append_right _ (List.mem_singleton_self _)⟩
    · show (l'.state.workspaces[id]?).any Workspace.isReady = false
      rw [hw', Option.any_some, Workspace.isReady, hstate (h.pending w₀ w hw₀ hw hpending)]
      simp
  have hsame : (isLatest id g).leaves l = l := rfl
  unfold giveUp
  refine .bind ?_ (.refl l)
  rw [returns_isLatest hw hg hs, if_pos rfl, hsame]
  refine .bind ?_ ((leaves_hasMirror id l).symm ▸ .refl l)
  rw [leaves_hasMirror]
  cases (hasMirror id).returns l with
  | error f => exact Act.settles_ends (Outcome.failed f _)
  | ok there =>
      cases there with
      | true => exact htells w l hw fun h => h
      | false =>
          refine .bind (htells (w.enter .mirrorPending) _ ?_ fun _ => rfl) ⟨rfl, rfl, rfl⟩
          show (l.state.workspaces.modify id _)[id]? = _
          rw [List.getElem?_modify_eq, hw]
          rfl

/-- Where a mirror could not be made, what there is of it is deleted. -/
theorem settles_afterFailure (h : IsLast id g s l.state) (f : Failure) :
    Act.Settles (resume · .go) Eq (Outcome id s) (afterFailure id g f) l := by
  unfold afterFailure
  split
  · split
    · refine Act.settles_through rfl rfl fun l' hl' => .bind (settles_giveUp ?_ _) ?_
      · rw [leaves_delete]
        exact (hl' ▸ h).congr rfl
      · rw [leaves_delete]
        exact ⟨rfl, rfl, rfl⟩
    · exact settles_giveUp h _
  · exact Act.settles_ends (Outcome.failed _ _)

/-- A mirror that was made for a workspace and holds its documents. -/
def Carries (id : WorkspaceId) (m : Mirror) (s s' : ServerState) : Prop :=
  ∀ w, s'.workspaces[id]? = some w →
    m.HoldsAll s'.disk.files (Mirror.overlays s.policy w.root (s.openDocumentsOf id))

/-- A workspace that got a mirror. -/
def furnished (m : Mirror) (w : Workspace) : Workspace :=
  { w.enter (if w.state = .compileInFlight then w.state else .ready) with mirror := some m }

theorem isReady_furnished (m : Mirror) (w : Workspace) : (furnished m w).isReady = true := by
  unfold furnished Workspace.isReady Workspace.enter
  by_cases h : w.state = .compileInFlight <;> simp [h]

/-- A mirror with all documents takes the place of the previous one, which is deleted. -/
theorem settles_install (hu : s.IsUpkept) (hb : Bears id m s l.state) (hl : IsLast id g s l.state)
    (hc : Carries id m s l.state) : Act.Settles (resume · .go) Eq (Outcome id s) (install id g m) l := by
  obtain ⟨w, hw, hg, hs⟩ := hl.workspace
  have hsame : (isLatest id g).leaves l = l := rfl
  have hreturns : (workspace? id).returns l = some w := hw
  have hsame' : (workspace? id).leaves l = l := rfl
  unfold install
  refine .bind ?_ (.refl l)
  rw [returns_isLatest hw hg hs, if_pos rfl, hsame]
  refine .bind ?_ (.refl l)
  rw [hreturns, hsame']
  refine .bind (.bind ?_ ⟨rfl, rfl, rfl⟩) ⟨rfl, rfl, rfl⟩
  obtain ⟨hupkept, hworks, hhas⟩ := hb.installs hu (f := furnished m) (fun _ => rfl) (fun _ => rfl) (fun _ => rfl)
    [.installed id g m]
  have hrenews := Renews.mk hworks hupkept ⟨_, m, get?_changing _ _ hw, isReady_furnished m w, rfl,
    fun other hm => (hb.alone other m hm).1 rfl, hc w hw⟩
  cases hp : ((some w).bind (·.mirror)).filter (· ≠ m) with
  | none => exact Act.settles_ends (.renewed hrenews)
  | some previous =>
      obtain ⟨hprevious, hne⟩ := Option.filter_eq_some_iff.mp hp
      have hhad : s.Has id previous := hb.has id previous ⟨w, hw, hprevious⟩
      have hmade := ((hu.faithful id previous hhad).leftAlone (hb.alone id previous hhad).2).stands.made
      have hgone : ∀ other, ¬(l.state.changing id (furnished m) [.installed id g m]).Has other previous := by
        intro other hm
        rcases hhas other previous hm with rfl | ⟨hother, hold⟩
        · exact absurd hne (by simp)
        · exact hother (hu.apart other id previous hold hhad)
      refine Act.settles_through rfl rfl fun l' hl' => .bind (Act.settles_ends (.renewed ?_)) ?_
      · rw [leaves_delete, ← show _ = l'.state from hl']
        exact hrenews.deletes hmade hgone rfl
      · rw [leaves_delete]
        exact ⟨rfl, rfl, rfl⟩

/-- The open documents are written over the copies. -/
theorem settles_writeOver (hu : s.IsUpkept) (hb : Bears id m s l.state) (hl : IsLast id g s l.state)
    {documents : List (Path × ByteArray)} (hd : ∀ w, l.state.workspaces[id]? = some w →
      documents = Mirror.overlays s.policy w.root (s.openDocumentsOf id)) :
    Act.Settles (resume · .go) Eq (Outcome id s) (writeOver id g m documents) l := by
  obtain ⟨w, hw, -⟩ := hl.workspace
  have hreturns : (workspace? id).returns l = some w := hw
  have hsame : (workspace? id).leaves l = l := rfl
  have hinside : ∀ x ∈ documents, x.1.IsInner ∧ l.state.policy.isSource x.1 := fun x hx => by
    rw [hd w hw] at hx
    rw [hb.policy]
    exact ⟨isInner_of_mem_overlays hx, isSource_of_mem_overlays hx⟩
  have hreaches := overlay_faithfully hb.isFaithful hb.tidy w.root hinside
  unfold writeOver withWorkspace
  refine .bind ?_ (.refl l)
  rw [hreturns, hsame]
  refine .bind ?_ ⟨rfl, rfl, rfl⟩
  rw [returns_onDisk, leaves_onDisk]
  cases hr : returns (m.overlay w.root documents) l.state.disk with
  | error f =>
      refine settles_afterFailure ?_ f
      exact hl.congr rfl
  | ok entries =>
      obtain ⟨rfl, hconfined, base, hfills⟩ := hreaches.of_ok hr
      refine .bind (settles_install hu ?_ (hl.congr rfl) fun w' hw' => ?_) ⟨rfl, rfl, rfl⟩
      · exact hb.fills hu hfills hconfined
      · obtain rfl : documents = _ := hd w' hw'
        exact hfills.holdsAll

/-- A new mirror is filled. -/
theorem settles_overlay (hu : s.IsUpkept) (hb : Bears id m s l.state) (hl : IsLast id g s l.state) :
    Act.Settles (resume · .go) Eq (Outcome id s) (overlay id g m) l := by
  obtain ⟨w, hw, -⟩ := hl.workspace
  have hreturns : (workspace? id).returns l = some w := hw
  have hsame : (workspace? id).leaves l = l := rfl
  unfold overlay withWorkspace
  refine .bind ?_ (.refl l)
  rw [hreturns, hsame]
  refine .bind ?_ (.refl l)
  rw [Act.returns_state, Act.leaves_state, hb.policy, hb.openDocumentsOf]
  dsimp only
  have hdocuments : ∀ w', l.state.workspaces[id]? = some w' →
      Mirror.overlays s.policy w.root (s.openDocumentsOf id) =
        Mirror.overlays s.policy w'.root (s.openDocumentsOf id) := fun w' hw' => by
    cases hw.symm.trans hw'
    rfl
  split
  · rename_i hempty
    refine settles_install hu hb hl fun w' hw' relative content hlatest => ?_
    rw [← hdocuments w' hw', List.isEmpty_iff.mp hempty] at hlatest
    cases hlatest
  · exact Act.settles_through rfl rfl fun l' hl' => settles_writeOver hu (hl' ▸ hb) (hl' ▸ hl) (hl' ▸ hdocuments)

/-- A new mirror is made. -/
theorem settles_create (hu : l.state.IsUpkept) (hl : IsLast id g l.state l.state) :
    Act.Settles (resume · .go) Eq (Outcome id l.state) (create id g) l := by
  obtain ⟨w, hw, -⟩ := hl.workspace
  have hreturns : (workspace? id).returns l = some w := hw
  have hsame : (workspace? id).leaves l = l := rfl
  have hreaches := create_faithfully hu.tidy w.root
  unfold create withWorkspace
  refine .bind ?_ (.refl l)
  rw [hreturns, hsame]
  unfold makeMirror
  refine .bind ?_ ?_
  · simp only [Act.returns_bind, Act.leaves_bind, Act.returns_state, Act.leaves_state, returns_onDisk, leaves_onDisk]
    cases hr : returns (Mirror.create l.state.policy w.root) l.state.disk with
    | error f =>
        refine settles_afterFailure ?_ f
        exact hl.congr rfl
    | ok made =>
        obtain ⟨m, index⟩ := made
        obtain ⟨htidy, hfaithful, hothers⟩ := hreaches.of_ok hr
        refine .bind (settles_overlay hu ?_ (hl.congr rfl)) ⟨rfl, rfl, rfl⟩
        exact hu.bears id _ htidy hfaithful hothers
  · simp only [Act.leaves_bind, Act.returns_state, Act.leaves_state, returns_onDisk, leaves_onDisk]
    cases returns (Mirror.create l.state.policy w.root) l.state.disk <;> exact ⟨rfl, rfl, rfl⟩

/-- A workspace whose initialization begins. -/
def begun (generation : Nat) (w : Workspace) : Workspace :=
  { w.enter (if w.mirror.isNone then .mirrorPending else w.state) with initializations := generation }

/-- An initialization fails, or its workspace is ready with a new mirror. -/
theorem settles_start (hu : l.state.IsUpkept) (hw : l.state.workspaces[id]? = some w) (hs : w.state ≠ .removed) :
    Act.Settles (resume · .go) Eq (Outcome id l.state) (start id) l := by
  have hreturns : (workspace? id).returns l = some w := hw
  have hsame : (workspace? id).leaves l = l := rfl
  unfold start withWorkspace
  refine .bind ?_ (.refl l)
  rw [hreturns, hsame]
  dsimp only
  rw [if_neg hs]
  refine .bind (.bind ?_ ⟨rfl, rfl, rfl⟩) ⟨rfl, rfl, rfl⟩
  refine Act.settles_through rfl rfl fun l' hl' => ?_
  obtain ⟨record, hbegun⟩ : ∃ record, l'.state = l.state.changing id (begun (w.initializations + 1)) record :=
    ⟨_, hl'.symm⟩
  have hworks : WorksFor id l.state l'.state := by
    rw [hbegun]
    exact WorksFor.changing (f := begun _) (fun _ => rfl) l.state record
  have hhas : ∀ other m, l'.state.Has other m ↔ l.state.Has other m := fun other m => by
    rw [hbegun]
    exact has_changing_iff (f := begun _) fun _ => rfl
  have hupkept : l'.state.IsUpkept := by
    rw [hbegun]
    exact hu.changing (f := begun _) (fun _ => rfl) (fun _ => rfl) id record
  have hget : l'.state.workspaces[id]? = some (begun (w.initializations + 1) w) := by
    rw [hbegun]
    exact get?_changing _ _ hw
  have hlast : IsLast id (w.initializations + 1) l'.state l'.state := by
    refine ⟨⟨_, hget, rfl, ?_⟩, fun w₁ w₂ h₁ h₂ hpending => ?_⟩
    · dsimp only [begun, Workspace.enter]
      split
      · exact Lifecycle.noConfusion
      · exact hs
    · cases h₁.symm.trans h₂
      exact hpending
  refine (settles_create hupkept hlast).mono fun r s' h => ?_
  cases h with
  | failed f => exact .failed f s'
  | alarmed h hpending =>
      refine .alarmed h fun w₀ hw₀ hstate => hpending _ hget ?_
      cases hw.symm.trans hw₀
      dsimp only [begun, Workspace.enter]
      rw [hstate, ite_self]
  | renewed h => exact .renewed (h.since hworks fun other m hm => (hhas other m).mpr hm)

end Initialization

end InkServer
