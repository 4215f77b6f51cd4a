import InkServer.Proofs.Mirror.Kept
import InkServer.Proofs.Server.Mirrors

/-!
# How an initialization goes

An initialization that is not overtaken by another one of its workspace makes the workspace ready, unless making
the mirror or writing the open documents over it fails. It touches no other workspace, and whenever it waits it
waits at a gate.
-/

namespace InkServer

open Work ServerAct

namespace ServerState

variable {s s' : ServerState}

/-- Whether two entries stand for the same workspace with the same root. -/
def SameRoot (p q : WorkspaceId × Workspace) : Prop := q.1 = p.1 ∧ q.2.root = p.2.root

theorem forall₂_registeredWorkspaces (hr : s'.registered = s.registered)
    (hw : ∀ id : WorkspaceId, (s'.workspaces[id]?).map Workspace.root = (s.workspaces[id]?).map Workspace.root) :
    List.Forall₂ SameRoot s.registeredWorkspaces s'.registeredWorkspaces := by
  unfold registeredWorkspaces
  rw [hr]
  induction s.registered.values with
  | nil => exact .nil
  | cons id ids ih =>
      have hid := hw id
      rw [List.filterMap_cons, List.filterMap_cons]
      cases hs : s.workspaces[id]? with
      | none =>
          rw [hs] at hid
          rw [Option.map_eq_none_iff.mp hid]
          exact ih
      | some w =>
          rw [hs] at hid
          obtain ⟨w', hs', hroot⟩ := Option.map_eq_some_iff.mp hid
          rw [hs']
          exact .cons ⟨rfl, hroot⟩ ih

/-- Where a document belongs depends on the roots of the registered workspaces only. -/
theorem findWorkspace_congr (hr : s'.registered = s.registered)
    (hw : ∀ id : WorkspaceId, (s'.workspaces[id]?).map Workspace.root = (s.workspaces[id]?).map Workspace.root)
    (path : Path) : s'.findWorkspace path = s.findWorkspace path := by
  have hsame := forall₂_registeredWorkspaces hr hw
  have hinside : ∀ p q, SameRoot p q → (path.isInside p.2.root = true ↔ path.isInside q.2.root = true) :=
    fun p q h => by rw [h.2]
  have hfiltered := List.rel_filter (R := SameRoot) (p := fun w => path.isInside w.2.root)
    (q := fun w => path.isInside w.2.root) (fun p q h => hinside p q h) hsame
  have hdeeper : ∀ best best', Option.Rel SameRoot best best' → ∀ p q, SameRoot p q →
      Option.Rel SameRoot (deeper best p) (deeper best' q) := by
    intro best best' hbest p q hpq
    cases hbest with
    | none => exact .some hpq
    | @some b b' hb =>
        unfold deeper
        dsimp only
        rw [hb.2, hpq.2]
        split
        · exact .some hpq
        · exact .some hb
  have hfold := List.rel_foldl (R := SameRoot) (P := Option.Rel SameRoot) (fun b b' hb p q hp => hdeeper b b' hb p q hp)
    Option.Rel.none hfiltered
  unfold findWorkspace
  revert hfold
  generalize List.foldl deeper none (List.filter _ s.registeredWorkspaces) = best
  generalize List.foldl deeper none (List.filter _ s'.registeredWorkspaces) = best'
  intro hfold
  cases hfold with
  | none => rfl
  | some hb => exact congrArg some hb.1

theorem openDocumentsOf_congr (hd : s'.documents = s.documents) (hr : s'.registered = s.registered)
    (hw : ∀ id : WorkspaceId, (s'.workspaces[id]?).map Workspace.root = (s.workspaces[id]?).map Workspace.root)
    (id : WorkspaceId) : s'.openDocumentsOf id = s.openDocumentsOf id := by
  unfold openDocumentsOf
  rw [hd]
  exact List.filter_congr fun d _ => by rw [findWorkspace_congr hr hw]

end ServerState

namespace Initialization

variable {id : WorkspaceId} {good : Prop} {w : Workspace} {g : Nat} {m : Mirror}
  {l l₁ l₂ : Loop ServerState Operation}

/-! ## Turns -/

/-- What a turn of an initialization leaves as it is, besides its own workspace. -/
structure Keeps (id : WorkspaceId) (l l' : Loop ServerState Operation) : Prop where
  current : l'.current = l.current
  created : l'.created = l.created
  gatherings : l'.gatherings = l.gatherings
  ready : l'.ready = l.ready
  atGates : l.atGates <+: l'.atGates
  arrives : ∀ w ∈ l'.atGates, w ∈ l.atGates ∨ w.2 = l.current
  policy : l'.state.policy = l.state.policy
  documents : l'.state.documents = l.state.documents
  registered : l'.state.registered = l.state.registered
  others : ∀ other : WorkspaceId, other ≠ id → l'.state.workspaces[other]? = l.state.workspaces[other]?

theorem Keeps.refl : Keeps id l l :=
  ⟨rfl, rfl, rfl, rfl, List.prefix_refl _, fun _ => .inl, rfl, rfl, rfl, fun _ _ => rfl⟩

theorem Keeps.trans (h : Keeps id l l₁) (h' : Keeps id l₁ l₂) : Keeps id l l₂ :=
  ⟨h'.current.trans h.current, h'.created.trans h.created, h'.gatherings.trans h.gatherings,
    h'.ready.trans h.ready, h.atGates.trans h'.atGates,
    fun w hw => (h'.arrives w hw).elim (h.arrives w) fun he => .inr (he.trans h.current), h'.policy.trans h.policy,
    h'.documents.trans h.documents, h'.registered.trans h.registered,
    fun other ho => (h'.others other ho).trans (h.others other ho)⟩

/-- A workspace is what it was but for how far it got. -/
def Becomes (id : WorkspaceId) (w : Workspace) (s : ServerState) (w' : Workspace) : Prop :=
  s.workspaces[id]? = some w' ∧ w'.uri = w.uri ∧ w'.root = w.root

/-- A workspace whose latest initialization has a number, and which is neither removed nor compiled. -/
structure IsUnderWay (w : Workspace) (g : Nat) : Prop where
  latest : w.initializations = g
  notRemoved : w.state ≠ .removed
  notCompiled : w.state ≠ .compileInFlight

/-- What an initialization waits with, if a mirror that can be made is made. -/
def Awaits (good : Prop) (id : WorkspaceId) (w : Workspace) : Initialization → Prop
  | .creating id' g => id' = id ∧ IsUnderWay w g
  | .overlaying id' g _ _ => id' = id ∧ IsUnderWay w g
  | .discardingFailed id' _ _ _ => id' = id ∧ ¬good
  | .discardingSuperseded _ _ => False
  | .deletingPrevious _ => w.state = .ready ∧ w.mirror.isSome

/-- What an initialization has made of its workspace. -/
def Attained (good : Prop) (w : Workspace) : Except Failure Bool → Prop
  | .ok _ => good → w.state = .ready ∧ w.mirror.isSome
  | .error _ => ¬good

/-- What a turn of an initialization of a workspace that waits has come to. -/
def Pauses (good : Prop) (id : WorkspaceId) (w : Workspace) (l : Loop ServerState Operation) (state : Initialization)
    (l' : Loop ServerState Operation) : Prop :=
  Keeps id l l' ∧ l.current ∈ l'.atGates.map Prod.snd ∧ ∃ w', Becomes id w l'.state w' ∧ Awaits good id w' state

/-- What a turn of an initialization of a workspace that ends has come to. -/
def Finishes (good : Prop) (id : WorkspaceId) (w : Workspace) (l : Loop ServerState Operation)
    (r : Except Failure Bool) (l' : Loop ServerState Operation) : Prop :=
  Keeps id l l' ∧ ∃ w', Becomes id w l'.state w' ∧ Attained good w' r

/-- How a turn of an initialization of a workspace goes. -/
def Goes (good : Prop) (id : WorkspaceId) (w : Workspace) (a : ServerAct (Step Initialization Bool))
    (l : Loop ServerState Operation) : Prop :=
  a.Reaches l (Pauses good id w l) (Finishes good id w l)

variable {α : Type} {a : ServerAct (Step Initialization Bool)} {v : Workspace}

/-- A turn, seen from before something that is none of other workspaces. -/
theorem Goes.since (h : Goes good id v a l₁) (hk : Keeps id l l₁) (hu : v.uri = w.uri) (hr : v.root = w.root) :
    a.Reaches l₁ (Pauses good id w l) (Finishes good id w l) := by
  refine h.mono (fun state l' ⟨hk', hgate, w', hw', hstate⟩ => ?_) fun r l' ⟨hk', w', hw', hr'⟩ => ?_
  · exact ⟨hk.trans hk', hk.current ▸ hgate, w', ⟨hw'.1, hw'.2.1.trans hu, hw'.2.2.trans hr⟩, hstate⟩
  · exact ⟨hk.trans hk', w', ⟨hw'.1, hw'.2.1.trans hu, hw'.2.2.trans hr⟩, hr'⟩

/-- A turn that first does something that is none of other workspaces. -/
theorem Goes.first {x : ServerAct α} {f : α → ServerAct (Step Initialization Bool)}
    (h : Goes good id v (f (x.returns l)) (x.leaves l)) (hk : Keeps id l (x.leaves l)) (hu : v.uri = w.uri)
    (hr : v.root = w.root) : Goes good id w (x >>= f) l := by
  unfold Goes
  rw [Act.reaches_bind]
  exact h.since hk hu hr

/-- The documents that are written over a new mirror of a workspace. -/
def documentsFor (s : ServerState) (id : WorkspaceId) (w : Workspace) : List (Path × ByteArray) :=
  Mirror.overlays s.policy w.root (s.openDocumentsOf id)

/-- Whether a mirror of a workspace can be made and its open documents be written over it. -/
def Makes (s : ServerState) (id : WorkspaceId) (w : Workspace) : Prop :=
  Reaches (Mirror.create s.policy w.root) s.disk
    (fun (m, _) d => Reaches (m.overlay w.root (documentsFor s id w)) d (fun _ _ => True) fun _ _ => False)
    fun _ _ => False

/-- Work that must not fail if a mirror can be made. -/
theorem not_good_of_error {work : DiskWork α} {d : Disk} {ok : α → Disk → Prop}
    (h : good → Reaches work d ok fun _ _ => False) {f : Failure} (hf : returns work d = .error f) : ¬good := by
  intro hg
  have hreaches := h hg
  unfold Reaches at hreaches
  rw [hf] at hreaches
  exact hreaches

section parts

variable (hw : l.state.workspaces[id]? = some w)

include hw

theorem goes_ends {r : Except Failure Bool} (h : Attained good w r) : Goes good id w (pure (.ends r)) l :=
  ⟨.refl, w, ⟨hw, rfl, rfl⟩, h⟩

theorem goes_through {gate : String} {state : Initialization} (hs : Awaits good id w state)
    (h : Goes good id w a l) : Goes good id w (Act.through gate state a) l := by
  unfold Goes Act.through
  rw [Act.reaches_bind, Act.reaches_ite]
  refine ⟨fun _ => ⟨?_, ?_, w, ⟨hw, rfl, rfl⟩, hs⟩, fun _ => h⟩
  · refine ⟨rfl, rfl, rfl, rfl, List.prefix_append _ _, fun place hp => ?_, rfl, rfl, rfl, fun _ _ => rfl⟩
    exact (List.mem_append.mp hp).imp_right fun hp => congrArg Prod.snd (List.mem_singleton.mp hp)
  · show l.current ∈ (l.atGates ++ [(gate, l.current)]).map Prod.snd
    rw [List.map_append]
    exact List.mem_append_right _ (List.mem_singleton_self _)

/-- A turn that changes its workspace first. -/
theorem goes_update {f : Workspace → Workspace} (hu : (f w).uri = w.uri) (hr : (f w).root = w.root)
    (h : ∀ l', l'.state.workspaces[id]? = some (f w) → l'.state.disk = l.state.disk →
      Keeps id l l' → Goes good id (f w) a l') : Goes good id w (do updateWorkspace id f; a) l := by
  have hkeeps : Keeps id l ((updateWorkspace id f).leaves l) := by
    refine ⟨rfl, rfl, rfl, rfl, List.prefix_refl _, fun _ => .inl, rfl, rfl, rfl, fun other ho => ?_⟩
    show (l.state.workspaces.modify id f)[other]? = _
    simp [Ne.symm ho]
  refine (h ((updateWorkspace id f).leaves l) ?_ rfl hkeeps).first hkeeps hu hr
  show (l.state.workspaces.modify id f)[id]? = _
  simp [hw]

/-- A turn that does some work on mirrors first. -/
theorem goes_onDisk {work : DiskWork α} {f : Except Failure α → ServerAct (Step Initialization Bool)}
    (h : ∀ l', l'.state.disk = leaves work l.state.disk → l'.state.workspaces[id]? = some w → Keeps id l l' →
      Goes good id w (f (returns work l.state.disk)) l') :
    Goes good id w (onDisk work >>= f) l := by
  have hkeeps : Keeps id l ((onDisk work).leaves l) := by
    rw [Mirror.leaves_onDisk]
    exact ⟨rfl, rfl, rfl, rfl, List.prefix_refl _, fun _ => .inl, rfl, rfl, rfl, fun _ _ => rfl⟩
  refine Goes.first ?_ hkeeps rfl rfl
  rw [Mirror.returns_onDisk]
  rw [Mirror.leaves_onDisk] at hkeeps ⊢
  exact h _ rfl hw hkeeps

theorem goes_delete (m : Mirror) (h : ∀ l', l'.state.workspaces[id]? = some w → Goes good id w a l') :
    Goes good id w (do let _ ← delete m; a) l := by
  have hkeeps : Keeps id l ((delete m).leaves l) := by
    rw [leaves_delete]
    exact ⟨rfl, rfl, rfl, rfl, List.prefix_refl _, fun _ => .inl, rfl, rfl, rfl, fun _ _ => rfl⟩
  refine (h _ ?_).first hkeeps rfl rfl
  rw [leaves_delete]
  exact hw

theorem goes_withWorkspace {absent : ServerAct (Step Initialization Bool)}
    {f : Workspace → ServerAct (Step Initialization Bool)} (h : Goes good id w (f w) l) :
    Goes good id w (withWorkspace id absent f) l := by
  have hreturns : (workspace? id).returns l = some w := hw
  unfold Goes withWorkspace
  rw [Act.reaches_bind, hreturns]
  exact h

/-! ## The parts of an initialization -/

theorem goes_isLatest {g : Nat} {f : Bool → ServerAct (Step Initialization Bool)}
    (h : Goes good id w (f (g = w.initializations && w.state ≠ .removed)) l) :
    Goes good id w (isLatest id g >>= f) l := by
  have hreturns : (isLatest id g).returns l = (g = w.initializations && w.state ≠ .removed) := by
    show (l.state.workspaces[id]?).any (fun w => g = w.initializations && w.state ≠ .removed) = _
    rw [hw]
    rfl
  unfold Goes
  rw [Act.reaches_bind, hreturns]
  exact h

theorem goes_hasMirror {f : Except Failure Bool → ServerAct (Step Initialization Bool)}
    (h : ∀ r l', l'.state.workspaces[id]? = some w → Goes good id w (f r) l') :
    Goes good id w (hasMirror id >>= f) l := by
  have hleaves : ∃ disk, (hasMirror id).leaves l = { l with state := { l.state with disk } } := by
    have hreturns : (workspace? id).returns l = some w := hw
    unfold hasMirror
    rw [Act.leaves_bind, hreturns]
    cases hm : w.mirror with
    | none => exact ⟨l.state.disk, by rw [Option.bind_some, hm]; rfl⟩
    | some m => exact ⟨_, by rw [Option.bind_some, hm]; exact Mirror.leaves_onDisk _⟩
  obtain ⟨disk, hleaves⟩ := hleaves
  have hkeeps : Keeps id l ((hasMirror id).leaves l) := by
    rw [hleaves]
    exact ⟨rfl, rfl, rfl, rfl, List.prefix_refl _, fun _ => .inl, rfl, rfl, rfl, fun _ _ => rfl⟩
  refine (h _ _ ?_).first hkeeps rfl rfl
  rw [hleaves]
  exact hw

theorem goes_note (e : Event) (h : ∀ l', l'.state.workspaces[id]? = some w → l'.state.disk = l.state.disk →
    Keeps id l l' → Goes good id w a l') : Goes good id w (do note e; a) l := by
  have hkeeps : Keeps id l ((note e).leaves l) :=
    ⟨rfl, rfl, rfl, rfl, List.prefix_refl _, fun _ => .inl, rfl, rfl, rfl, fun _ _ => rfl⟩
  exact (h ((note e).leaves l) hw rfl hkeeps).first hkeeps rfl rfl

theorem goes_tell (n : Notice) (h : ∀ l', l'.state.workspaces[id]? = some w → Goes good id w a l') :
    Goes good id w (do tell n; a) l := goes_note hw _ fun l' hw' _ _ => h l' hw'

theorem goes_readiness (hbad : ¬good) : Goes good id w (readiness id) l :=
  goes_ends hw fun h => absurd h hbad

/-- Giving up makes nothing ready. -/
theorem goes_giveUp (hbad : ¬good) (g : Nat) (e : MirrorError) : Goes good id w (giveUp id g e) l := by
  unfold giveUp
  refine goes_isLatest hw ?_
  split
  · refine goes_hasMirror hw fun r l' hw' => ?_
    have htell : ∀ w' l', l'.state.workspaces[id]? = some w' →
        Goes good id w' (do tell (.serverError (some e.message)); readiness id) l' :=
      fun w' l' hw' => goes_tell hw' _ fun l'' hw'' => goes_readiness hw'' hbad
    cases r with
    | error f => exact goes_ends hw' hbad
    | ok there =>
        cases there with
        | true => exact htell w l' hw'
        | false => exact goes_update hw' rfl rfl fun l'' hw'' _ _ => htell _ l'' hw''
  · exact goes_readiness hw hbad

theorem goes_afterFailure (hbad : ¬good) (g : Nat) (f : Failure) : Goes good id w (afterFailure id g f) l := by
  unfold afterFailure
  split
  · rename_i e
    split
    · rename_i path _
      exact goes_through hw ⟨rfl, hbad⟩ (goes_delete hw _ fun l' hw' => goes_giveUp hw' hbad g e)
    · exact goes_giveUp hw hbad g e
  · exact goes_ends hw hbad

/-- A new mirror makes its workspace ready. -/
theorem goes_install (hg : IsUnderWay w g) (m : Mirror) : Goes good id w (install id g m) l := by
  have hlatest : (decide (g = w.initializations) && decide (w.state ≠ .removed)) = true := by
    simp [hg.latest, hg.notRemoved]
  have hreturns : (workspace? id).returns l = some w := hw
  unfold install
  refine goes_isLatest hw ?_
  rw [hlatest, if_pos rfl]
  refine Goes.first (v := w) ?_ .refl rfl rfl
  rw [hreturns]
  refine goes_note hw _ fun _ hw _ _ => goes_update hw rfl rfl fun l' hw' _ _ => ?_
  have hready : ({ w.enter (if w.state = .compileInFlight then w.state else .ready) with mirror := some m } :
      Workspace).state = .ready := if_neg hg.notCompiled
  have hends : ∀ l'', l''.state.workspaces[id]? = some _ → Goes good id _ (pure (.done true)) l'' :=
    fun l'' hw'' => goes_ends hw'' fun _ => ⟨hready, rfl⟩
  cases ((some w).bind (·.mirror)).filter (· ≠ m) with
  | none => exact hends _ hw'
  | some previous =>
      refine goes_through hw' ?_ (goes_delete hw' previous hends)
      exact ⟨hready, rfl⟩

theorem goes_writeOver (hg : IsUnderWay w g) {documents : List (Path × ByteArray)}
    (hok : good → Reaches (m.overlay w.root documents) l.state.disk (fun _ _ => True) fun _ _ => False) :
    Goes good id w (writeOver id g m documents) l := by
  refine goes_withWorkspace hw (goes_onDisk hw fun l' _ hw' _ => ?_)
  split
  · rename_i entries _
    have hrecord : ((record m entries).leaves l').state.workspaces[id]? = some w := hw'
    refine Goes.first (v := w) (goes_install hrecord hg m) ?_ rfl rfl
    exact ⟨rfl, rfl, rfl, rfl, List.prefix_refl _, fun _ => .inl, rfl, rfl, rfl, fun _ _ => rfl⟩
  · rename_i f hf
    exact goes_afterFailure hw' (not_good_of_error hok hf) g f

theorem goes_overlay (hg : IsUnderWay w g)
    (hok : good → Reaches (m.overlay w.root (documentsFor l.state id w)) l.state.disk (fun _ _ => True)
      fun _ _ => False) : Goes good id w (overlay id g m) l := by
  refine goes_withWorkspace hw ?_
  refine Goes.first (v := w) ?_ .refl rfl rfl
  rw [Act.returns_state, Act.leaves_state]
  dsimp only
  split
  · exact goes_install hw hg m
  · exact goes_through hw ⟨rfl, hg⟩ (goes_writeOver hw hg hok)

theorem goes_create (hg : IsUnderWay w g) (hok : good → Makes l.state id w) : Goes good id w (create id g) l := by
  refine goes_withWorkspace hw ?_
  have hkeeps : ∀ disk indexes events, Keeps id l { l with state := { l.state with disk, indexes, events } } :=
    fun _ _ _ => ⟨rfl, rfl, rfl, rfl, List.prefix_refl _, fun _ => .inl, rfl, rfl, rfl, fun _ _ => rfl⟩
  unfold Goes
  rw [Mirror.reaches_makeMirror]
  refine (reaches_self (Mirror.create l.state.policy w.root) l.state.disk).mono
    (fun (m, index) disk ⟨hmade, hdisk⟩ => ?_) fun f disk ⟨hfailed, _⟩ => ?_
  · have hoverlay : good → Reaches (m.overlay w.root (documentsFor l.state id w)) disk (fun _ _ => True)
        fun _ _ => False := by
      intro hgood
      have hreaches := hok hgood
      unfold Makes Reaches at hreaches
      rw [hmade] at hreaches
      rw [hdisk]
      exact hreaches
    have hgoes := goes_overlay (l := { l with state := { l.state with
      disk
      indexes := l.state.indexes.insert m.path index
      events := l.state.events ++ [.made id g m] } }) hw hg hoverlay
    exact hgoes.since (hkeeps _ _ _) rfl rfl
  · exact (goes_afterFailure (l := { l with state := { l.state with disk } }) hw
      (not_good_of_error hok hfailed) g f).since (hkeeps _ _ _) rfl rfl

/-- Whether a mirror can be made does not depend on how far the workspace got. -/
theorem Makes.congr {l' : Loop ServerState Operation} (h : Makes l.state id w) (hk : Keeps id l l')
    (hd : l'.state.disk = l.state.disk) (hw' : l'.state.workspaces[id]? = some v) (hr : v.root = w.root) :
    Makes l'.state id v := by
  have hroots : ∀ other : WorkspaceId,
      (l'.state.workspaces[other]?).map Workspace.root = (l.state.workspaces[other]?).map Workspace.root := by
    intro other
    by_cases ho : other = id
    · rw [ho, hw, hw', Option.map_some, Option.map_some, hr]
    · rw [hk.others other ho]
  have hdocuments : documentsFor l'.state id v = documentsFor l.state id w := by
    unfold documentsFor
    rw [hk.policy, hr, ServerState.openDocumentsOf_congr hk.documents hk.registered hroots]
  unfold Makes
  rw [hdocuments, hk.policy, hr, hd]
  exact h

/-- An initialization of a workspace that nobody removes or compiles. -/
theorem goes_start (hremoved : w.state ≠ .removed) (hcompiled : w.state ≠ .compileInFlight)
    (hok : good → Makes l.state id w) : Goes good id w (start id) l := by
  refine goes_withWorkspace hw ?_
  rw [if_neg hremoved]
  refine goes_note hw _ fun l₁ hw₁ hd₁ hk₁ => goes_update hw₁ rfl rfl fun l' hw' hd hk => ?_
  have hg : IsUnderWay { w.enter (if w.mirror.isNone then .mirrorPending else w.state) with
      initializations := w.initializations + 1 } (w.initializations + 1) := by
    refine ⟨rfl, ?_, ?_⟩
    · dsimp only [Workspace.enter]
      split
      · exact nofun
      · exact hremoved
    · dsimp only [Workspace.enter]
      split
      · exact nofun
      · exact hcompiled
  refine goes_through hw' ⟨rfl, hg⟩ (goes_create hw' hg fun hgood => ?_)
  exact (hok hgood).congr hw (hk₁.trans hk) (hd.trans hd₁) hw' rfl

/-- An initialization that is let through where it waits. -/
theorem goes_resume {state : Initialization} (hs : Awaits good id w state)
    (hmakes : ∀ g, state = .creating id g → good → Makes l.state id w)
    (hover : ∀ g m documents, state = .overlaying id g m documents → good →
      Reaches (m.overlay w.root documents) l.state.disk (fun _ _ => True) fun _ _ => False) :
    Goes good id w (resume state .go) l := by
  cases state with
  | creating id' g =>
      obtain ⟨rfl, hg⟩ := hs
      exact goes_create hw hg (hmakes g rfl)
  | overlaying id' g m documents =>
      obtain ⟨rfl, hg⟩ := hs
      exact goes_writeOver hw hg (hover g m documents rfl)
  | discardingFailed id' g scratch e =>
      obtain ⟨rfl, hbad⟩ := hs
      exact goes_delete hw scratch fun l' hw' => goes_giveUp hw' hbad g e
  | discardingSuperseded => exact hs.elim
  | deletingPrevious previous => exact goes_delete hw previous fun l' hw' => goes_ends hw' fun _ => hs

end parts

end Initialization

end InkServer
