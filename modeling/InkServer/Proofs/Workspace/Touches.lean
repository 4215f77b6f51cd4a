import InkServer.Proofs.Server.Mirrors

/-!
# What initializations touch

An initialization works on the disk, puts what it does on record and changes its workspace as long as that is not
removed, and it does nothing else. A relation that covers these few things covers all turns of an initialization.
-/

namespace InkServer

open ServerState ServerAct

/-- What an initialization puts on record. -/
def Event.isOfInitialization : Event → Bool
  | .initializing _ _ _ | .made _ _ _ | .installed _ _ _ | .superseded _ _ _ | .noticed _ => true
  | _ => false

namespace Initialization

/-- A relation between what there is before and after that covers all that the initializations of a workspace do. -/
structure Covers (id : WorkspaceId) (R : Loop ServerState Operation → Loop ServerState Operation → Prop) : Prop where
  refl : ∀ l, R l l
  trans : ∀ {l l₁ l₂}, R l l₁ → R l₁ l₂ → R l l₂
  aside : ∀ (l : Loop ServerState Operation) disk indexes atGates,
    R l { l with state := { l.state with disk, indexes }, atGates }
  notes : ∀ (l : Loop ServerState Operation) (e : Event), e.isOfInitialization →
    R l { l with state := { l.state with events := l.state.events ++ [e] } }
  changes : ∀ (l : Loop ServerState Operation) w f, l.state.workspaces[id]? = some w → w.state ≠ .removed →
    R l { l with state := { l.state with workspaces := l.state.workspaces.modify id f } }

namespace Covers

variable {id : WorkspaceId} {R : Loop ServerState Operation → Loop ServerState Operation → Prop}
  {l : Loop ServerState Operation} {τ α β : Type} {generation : Nat} {m : Mirror}

/-! ## Acts -/

theorem bind (h : Covers id R) {a : ServerAct β} {f : β → ServerAct α} (ha : R l (a.leaves l))
    (hf : R (a.leaves l) ((f (a.returns l)).leaves (a.leaves l))) : R l ((a >>= f).leaves l) := h.trans ha hf

theorem ends (h : Covers id R) (a : α) : R l ((pure a : ServerAct α).leaves l) := h.refl l

theorem readiness (h : Covers id R) (other : WorkspaceId) : R l ((Initialization.readiness other).leaves l) := h.refl l

theorem note (h : Covers id R) {e : Event} (he : e.isOfInitialization) : R l ((note e).leaves l) := h.notes l e he

theorem onDisk (h : Covers id R) (work : DiskWork α) : R l ((ServerAct.onDisk work).leaves l) :=
  h.aside l (work.run l.state.disk).2 l.state.indexes l.atGates

theorem indexes (h : Covers id R) (f : ServerState → Dict Path Mirror.Index) :
    R l ((Act.modifyState fun s => { s with indexes := f s } : ServerAct Unit).leaves l) :=
  h.aside l l.state.disk (f l.state) l.atGates

theorem record (h : Covers id R) (entries : List MirrorEntry) : R l ((ServerAct.record m entries).leaves l) :=
  h.indexes _

theorem delete (h : Covers id R) (m : Mirror) : R l ((Initialization.delete m).leaves l) := by
  rw [leaves_delete]
  exact h.aside l _ l.state.indexes l.atGates

theorem through (h : Covers id R) {gate : String} {state : τ} {next : ServerAct (Step τ α)}
    (hn : R l (next.leaves l)) : R l ((Act.through gate state next).leaves l) := by
  rw [Act.leaves_through]
  split
  · exact h.aside l l.state.disk l.state.indexes _
  · exact hn

theorem withWorkspace (h : Covers id R) {other : WorkspaceId} {a : α} {f : Workspace → ServerAct α}
    (hf : ∀ w, l.state.workspaces[other]? = some w → R l ((f w).leaves l)) :
    R l ((ServerAct.withWorkspace other (pure a) f).leaves l) := by
  unfold ServerAct.withWorkspace
  refine h.bind (h.refl l) ?_
  split
  · rename_i w hw
    exact hf w hw
  · exact h.refl l

/-- The latest initialization of a workspace is one of a workspace that is not removed. -/
theorem exists_of_isLatest (h : (isLatest id generation).returns l = true) :
    ∃ w, l.state.workspaces[id]? = some w ∧ w.state ≠ .removed := by
  obtain ⟨w, hw, hlatest⟩ := (Option.any_eq_true _ _).mp (show (l.state.workspaces[id]?.any fun w =>
    generation = w.initializations && w.state ≠ .removed) = true from h)
  exact ⟨w, hw, (eq_and_ne_removed_of_isLatest ((Option.any_some ..).trans hlatest) rfl).2⟩

/-! ## Turns -/

theorem discard (h : Covers id R) {state : Initialization} {next : ServerAct (Step Initialization Bool)}
    (hn : ∀ l, R l (next.leaves l)) :
    R l ((Act.through "delete" state (Initialization.delete m >>= fun _ => next)).leaves l) :=
  h.through (h.bind (h.delete m) (hn _))

theorem giveUp (h : Covers id R) (error : MirrorError) : R l ((giveUp id generation error).leaves l) := by
  have htell : ∀ l, R l (Act.leaves (do
      tell (.serverError (some error.message))
      Initialization.readiness id) l) := fun l => h.bind (h.note rfl) (h.readiness id)
  unfold Initialization.giveUp
  refine h.bind (h.refl l) ?_
  split
  · rename_i hlatest
    obtain ⟨w, hw, hstate⟩ := exists_of_isLatest hlatest
    have hmirror : ((hasMirror id).leaves l).state.workspaces = l.state.workspaces ∧ R l ((hasMirror id).leaves l) := by
      unfold hasMirror
      rw [Act.leaves_bind]
      split
      · exact ⟨rfl, h.refl l⟩
      · exact ⟨rfl, h.onDisk _⟩
    refine h.bind hmirror.2 ?_
    split
    · exact h.refl _
    · split
      · exact htell _
      · exact h.bind (h.changes _ w _ (hmirror.1.symm ▸ hw) hstate) (htell _)
  · exact h.readiness id

theorem afterFailure (h : Covers id R) (f : Failure) : R l ((afterFailure id generation f).leaves l) := by
  unfold Initialization.afterFailure
  split
  · split
    · exact h.discard fun l => h.giveUp _
    · exact h.giveUp _
  · exact h.ends _

theorem install (h : Covers id R) : R l ((install id generation m).leaves l) := by
  unfold Initialization.install
  refine h.bind (h.refl l) ?_
  split
  · rename_i hlatest
    obtain ⟨w, hw, hstate⟩ := exists_of_isLatest hlatest
    refine h.bind (h.refl l) (h.bind (h.note rfl) (h.bind (h.changes _ w _ hw hstate) ?_))
    split
    · exact h.discard fun _ => h.ends _
    · exact h.ends _
  · exact h.bind (h.note rfl) (h.discard fun _ => h.readiness id)

theorem writeOver (h : Covers id R) (documents : List (Path × ByteArray)) :
    R l ((writeOver id generation m documents).leaves l) := by
  refine h.withWorkspace fun w _ => h.bind (h.onDisk _) ?_
  split
  · exact h.bind (h.record _) h.install
  · exact h.afterFailure _

theorem overlay (h : Covers id R) : R l ((overlay id generation m).leaves l) := by
  refine h.withWorkspace fun w _ => h.bind (h.refl l) ?_
  dsimp only
  split
  · exact h.install
  · exact h.through (h.writeOver _)

theorem makeMirror (h : Covers id R) (root : Path) : R l ((makeMirror root).leaves l) := by
  unfold Initialization.makeMirror
  refine h.bind (h.refl l) (h.bind (h.onDisk _) ?_)
  split
  · exact h.bind (h.indexes _) (h.ends _)
  · exact h.refl _

theorem create (h : Covers id R) : R l ((create id generation).leaves l) := by
  refine h.withWorkspace fun w _ => h.bind (h.makeMirror w.root) ?_
  split
  · exact h.bind (h.note rfl) h.overlay
  · exact h.afterFailure _

theorem start (h : Covers id R) : R l ((start id).leaves l) := by
  refine h.withWorkspace fun w hw => ?_
  split
  · exact h.refl l
  · rename_i hstate
    exact h.bind (h.note rfl) (h.bind (h.changes _ w _ hw hstate) (h.through h.create))

end Covers

/-- Whether an initialization that waits may be one of a workspace. One that only has the mirror before to delete may be
that of any. -/
def IsOf (id : WorkspaceId) : Initialization → Prop
  | .creating id' _ | .overlaying id' _ _ _ | .discardingFailed id' _ _ _ | .discardingSuperseded id' _ => id' = id
  | .deletingPrevious _ => True

theorem exists_isOf (state : Initialization) : ∃ id, state.IsOf id := by
  cases state with
  | deletingPrevious => exact ⟨0, trivial⟩
  | creating id | overlaying id | discardingFailed id | discardingSuperseded id => exact ⟨id, rfl⟩

theorem Covers.resume {id : WorkspaceId} {R : Loop ServerState Operation → Loop ServerState Operation → Prop}
    {l : Loop ServerState Operation} (h : Covers id R) {state : Initialization} (hs : state.IsOf id) (signal : Signal) :
    R l ((resume state signal).leaves l) := by
  unfold Initialization.resume
  cases signal with
  | go =>
      cases state with
      | creating id' generation =>
          cases hs
          exact h.create
      | overlaying id' generation m documents =>
          cases hs
          exact h.writeOver documents
      | discardingFailed id' generation m error =>
          cases hs
          exact h.bind (h.delete m) (h.giveUp error)
      | discardingSuperseded id' m => exact h.bind (h.delete m) (h.readiness id')
      | deletingPrevious m => exact h.bind (h.delete m) (h.ends _)
  | cancelled | timedOut | failed f => exact h.ends _

end Initialization

end InkServer
