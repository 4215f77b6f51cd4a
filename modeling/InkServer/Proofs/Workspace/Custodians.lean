import InkServer.Proofs.Mirror.Kept
import InkServer.Proofs.Workspace.Bookkeeping

/-!
# How operations look after mirrors

Every operation on workspaces, followed step by step up to its next wait, whichever books are kept: what it was in
charge of when it went on, it has handed over, has deleted or is still in charge of. Only a task that is told to
give up, or that comes upon a name that no file can have, drops its duty.
-/

namespace InkServer

open ServerState ServerAct

/-- Whether a failure ends an operation in the middle of something. -/
def Failure.isAbrupt : Failure → Bool
  | .cancelled | .file .nullCharacter => true
  | _ => false

/-- Whether an operation ended in the middle of something. -/
def IsAbrupt {α : Type} (r : Except Failure α) : Prop := ∃ f, r = .error f ∧ f.isAbrupt

instance {α : Type} (r : Except Failure α) : Decidable (IsAbrupt r) :=
  match r with
  | .ok _ => .isFalse fun ⟨_, h, _⟩ => nomatch h
  | .error f => decidable_of_iff f.isAbrupt ⟨fun h => ⟨f, rfl, h⟩, fun ⟨_, he, h⟩ => Except.error.inj he ▸ h⟩

/-- In the course of a step that began at `l₀`, these duties are all there are. -/
structure Minds (B : List Duty → ServerState → Prop) (l₀ : Loop ServerState Operation) (held : List Duty)
    (l : Loop ServerState Operation) : Prop where
  keeping : Keeping B
  creates : ∃ new, Creates l₀ l new
  tally : B held l.state

/-- How an operation goes on while others have duties: it has that of its wait, or none once it ends. -/
def Minding {τ α : Type} (B : List Duty → ServerState → Prop) (l₀ : Loop ServerState Operation)
    (others : List Duty) (charge : τ → Duty) (a : ServerAct (Step τ α)) (l : Loop ServerState Operation) : Prop :=
  a.Reaches l (fun state l' => Minds B l₀ (charge state :: others) l') fun r l' =>
    Minds B l₀ others l' ∨ IsAbrupt r ∧ ∃ duty, Minds B l₀ (duty :: others) l'

variable {τ υ α β : Type} {B : List Duty → ServerState → Prop} {l₀ l l' : Loop ServerState Operation}
  {others held held' : List Duty} {duty : Duty} {charge : τ → Duty} {charge' : υ → Duty} {id : WorkspaceId} {m : Mirror}

namespace Minds

theorem standsBy (h : Minds B l₀ held l) (hs : StandsBy l l') : Minds B l₀ held l' := by
  obtain ⟨new, hn⟩ := h.creates
  obtain ⟨new', hn'⟩ := hs.creates
  exact ⟨h.keeping, ⟨_, hn.trans hn'⟩, h.keeping.standsBy hs h.tally⟩

theorem noted (h : Minds B l₀ held l) (e : Event) :
    Minds B l₀ held { l with state := { l.state with events := l.state.events ++ [e] } } :=
  h.standsBy (standingBy_note e)

/-- What is done to the state alone. -/
theorem moved (h : Minds B l₀ held l) {s : ServerState} (hb : B held' s) :
    Minds B l₀ held' { l with state := s } := by
  obtain ⟨new, hn⟩ := h.creates
  exact ⟨h.keeping, ⟨new, hn.created, hn.numbers, hn.next, hn.ofRegistry⟩, hb⟩

/-- Being in charge of nothing is no duty. -/
theorem idle_iff : Minds B l₀ ([] :: held) l ↔ Minds B l₀ held l :=
  ⟨fun h => ⟨h.keeping, h.creates, h.keeping.idle.mp h.tally⟩,
    fun h => ⟨h.keeping, h.creates, h.keeping.idle.mpr h.tally⟩⟩

theorem discards (h : Minds B l₀ (.bringing id m :: held) l) : Minds B l₀ (.clearing m :: held) l :=
  ⟨h.keeping, h.creates, h.keeping.discards h.tally⟩

end Minds

/-! ## Acts -/

theorem minding_ends {r : Except Failure α} (h : Minds B l₀ others l) :
    Minding B l₀ others charge (pure (.ends r)) l := .inl h

theorem minding_abrupt {f : Failure} (hf : f.isAbrupt) (h : Minds B l₀ (duty :: others) l) :
    Minding B l₀ others charge (pure (.fail f) : ServerAct (Step τ α)) l := .inr ⟨⟨f, rfl, hf⟩, duty, h⟩

theorem minding_bind {a : ServerAct β} {f : β → ServerAct (Step τ α)} (ha : StandingBy a l)
    (h : Minds B l₀ held l) (hf : ∀ x l', Minds B l₀ held l' → Minding B l₀ others charge (f x) l') :
    Minding B l₀ others charge (a >>= f) l := hf _ _ (h.standsBy ha)

theorem minding_note {e : Event} {f : Unit → ServerAct (Step τ α)} :
    Minding B l₀ others charge (note e >>= f) l ↔
      Minding B l₀ others charge (f ()) { l with state := { l.state with events := l.state.events ++ [e] } } := Iff.rfl

theorem minding_state {f : ServerState → ServerAct (Step τ α)} :
    Minding B l₀ others charge (Act.state >>= f) l ↔ Minding B l₀ others charge (f l.state) l := Iff.rfl

theorem minding_updateWorkspace {f : Workspace → Workspace} {g : Unit → ServerAct (Step τ α)} :
    Minding B l₀ others charge (updateWorkspace id f >>= g) l ↔
      Minding B l₀ others charge (g ())
        { l with state := { l.state with workspaces := l.state.workspaces.modify id f } } :=
  Iff.rfl

theorem minding_workspace? {f : Option Workspace → ServerAct (Step τ α)} :
    Minding B l₀ others charge (workspace? id >>= f) l ↔ Minding B l₀ others charge (f l.state.workspaces[id]?) l :=
  Iff.rfl

theorem minding_withWorkspace {absent : ServerAct (Step τ α)} {f : Workspace → ServerAct (Step τ α)}
    (ha : l.state.workspaces[id]? = none → Minding B l₀ others charge absent l)
    (hf : ∀ w, l.state.workspaces[id]? = some w → Minding B l₀ others charge (f w) l) :
    Minding B l₀ others charge (withWorkspace id absent f) l := by
  unfold withWorkspace
  rw [minding_workspace?]
  split
  · rename_i w hw
    exact hf w hw
  · rename_i hw
    exact ha hw

theorem minds_waitAt {gate : String} {state : τ} (h : Minds B l₀ held l) :
    Minds B l₀ held ((Act.waitAt gate state : ServerAct (Step τ α)).leaves l) :=
  h.standsBy (standingBy_waitAt gate state)

theorem minding_through {gate : String} {state : τ} {next : ServerAct (Step τ α)}
    (h : Minds B l₀ (charge state :: others) l) (hn : Minding B l₀ others charge next l) :
    Minding B l₀ others charge (Act.through gate state next) l := by
  unfold Minding Act.through
  rw [Act.reaches_bind, Act.reaches_ite]
  exact ⟨fun _ => minds_waitAt (α := α) h, fun _ => hn⟩

/-- A part that is in charge of nothing. -/
theorem minding_of_leaves {part : ServerAct (Step τ α)} (h : Minds B l₀ others (part.leaves l))
    (hc : ∀ state, charge state = []) : Minding B l₀ others charge part l := by
  unfold Minding Act.Reaches
  split
  · rename_i state _
    show Minds B l₀ (charge state :: others) _
    rw [hc]
    exact Minds.idle_iff.mpr h
  · exact .inl h

/-- What comes after a part that is in charge of nothing. -/
theorem minding_afterwards {part : ServerAct (Step υ β)} {wrap : υ → τ}
    {next : Except Failure β → ServerAct (Step τ α)} (h : Minds B l₀ others (part.leaves l))
    (hc : ∀ state, charge (wrap state) = [])
    (hn : ∀ r l', Minds B l₀ others l' → Minding B l₀ others charge (next r) l') :
    Minding B l₀ others charge (Act.afterwards part wrap next) l := by
  unfold Minding
  rw [Act.reaches_afterwards]
  unfold Act.Reaches
  split
  · rename_i state _
    show Minds B l₀ (charge (wrap state) :: others) _
    rw [hc]
    exact Minds.idle_iff.mpr h
  · exact hn _ _ h

theorem Minding.andThen {part : ServerAct (Step υ β)} {wrap : υ → τ} {next : β → ServerAct (Step τ α)}
    (h : Minding B l₀ others charge' part l) (hc : ∀ state, charge (wrap state) = charge' state)
    (hn : ∀ a l', Minds B l₀ others l' → Minding B l₀ others charge (next a) l') :
    Minding B l₀ others charge (Act.andThen part wrap next) l := by
  unfold Minding Act.andThen
  rw [Act.reaches_afterwards]
  refine h.mono (fun state l' h => (hc state).symm ▸ h) fun r l' h => ?_
  cases r with
  | ok a =>
      rcases h with h | ⟨⟨_, he, _⟩, _⟩
      · exact hn a l' h
      · cases he
  | error f =>
      rcases h with h | ⟨⟨_, he, hf⟩, hdropped⟩
      · exact .inl h
      · cases he
        exact .inr ⟨⟨f, rfl, hf⟩, hdropped⟩

/-- Work on mirrors that makes none. -/
theorem minding_onDisk {work : DiskWork β} {f : Except Failure β → ServerAct (Step τ α)} (h : Minds B l₀ held l)
    {q : Failure → Prop}
    (hw : Work.Reaches work l.state.disk (fun _ d => l.state.disk.Extends d) fun e d => l.state.disk.Extends d ∧ q e)
    (hok : ∀ b l', Minds B l₀ held l' → Minding B l₀ others charge (f (.ok b)) l')
    (herror : ∀ e l', q e → Minds B l₀ held l' → Minding B l₀ others charge (f (.error e)) l') :
    Minding B l₀ others charge (onDisk work >>= f) l := by
  have hdisk : ∀ {disk : Disk}, l.state.disk.Extends disk → Minds B l₀ held { l with state := { l.state with disk } } :=
    fun hd => h.standsBy ⟨⟨[], .nil rfl rfl⟩, rfl, hd, rfl, fun id => StandsBy.rel_refl _ id⟩
  unfold Minding
  rw [Mirror.reaches_onDisk]
  exact hw.mono (fun b d hd => hok b _ (hdisk hd)) fun e d ⟨hd, he⟩ => herror e _ he (hdisk hd)

/-! ## Initializing workspaces -/

namespace Initialization

/-- What an initialization that waits is in charge of. -/
def charges : Initialization → List Charge
  | .creating _ _ => []
  | .overlaying id _ m _ => [.scratch m, .serving id]
  | .discardingFailed _ _ m _ | .discardingSuperseded _ m | .deletingPrevious m => [.scratch m]

theorem minds_delete (h : Minds B l₀ (.clearing m :: others) l) : Minds B l₀ others ((delete m).leaves l) := by
  rw [leaves_delete]
  exact h.moved (h.keeping.deletes h.tally)

theorem standingBy_hasMirror (id : WorkspaceId) : StandingBy (hasMirror id) l := by
  unfold hasMirror
  rw [standingBy_workspace?]
  split
  · exact standingBy_pure _
  · exact standingBy_onDisk (.of_looks (Mirror.looks_isThere _))

theorem minding_readiness (h : Minds B l₀ others l) : Minding B l₀ others charges (readiness id) l := .inl h

theorem minding_isLatest {generation : Nat} {f : Bool → ServerAct (Step τ α)} :
    Minding B l₀ others charge (isLatest id generation >>= f) l ↔
      Minding B l₀ others charge
        (f (l.state.workspaces[id]?.any fun w => generation = w.initializations && w.state ≠ .removed)) l := Iff.rfl

variable {generation : Nat}

theorem minding_giveUp (error : MirrorError) (h : Minds B l₀ others l) :
    Minding B l₀ others charges (giveUp id generation error) l := by
  have htell : ∀ l, Minds B l₀ others l → Minding B l₀ others charges (do
      tell (.serverError (some error.message))
      readiness id) l := fun l h => minding_bind (standingBy_tell _) h fun _ _ h => minding_readiness h
  unfold giveUp
  rw [minding_isLatest]
  split
  · refine minding_bind (standingBy_hasMirror id) h fun there l₁ h => ?_
    cases there with
    | error f => exact minding_ends h
    | ok there =>
        cases there with
        | true => exact htell l₁ h
        | false =>
            refine minding_bind (standingBy_updateWorkspace fun w _ => ⟨rfl, rfl, fun _ => Lifecycle.noConfusion⟩) h
              fun _ l₂ h => htell l₂ h
  · exact minding_readiness h

theorem minding_delete {f : Bool → ServerAct (Step τ α)} (h : Minds B l₀ (.clearing m :: others) l)
    (hf : ∀ gone l', Minds B l₀ others l' → Minding B l₀ others charge (f gone) l') :
    Minding B l₀ others charge (delete m >>= f) l := by
  unfold Minding
  rw [Act.reaches_bind]
  exact hf _ _ (minds_delete h)

theorem minding_deleted {next : ServerAct (Step Initialization Bool)} (h : Minds B l₀ (.clearing m :: others) l)
    (hn : ∀ l, Minds B l₀ others l → Minding B l₀ others charges next l) :
    Minding B l₀ others charges (delete m >>= fun _ => next) l := minding_delete h fun _ l h => hn l h

/-- A mirror is deleted, at once or after a wait. -/
theorem minding_discard {next : ServerAct (Step Initialization Bool)} {state : Initialization}
    (hc : state.charges = [.scratch m]) (h : Minds B l₀ (.clearing m :: others) l)
    (hn : ∀ l, Minds B l₀ others l → Minding B l₀ others charges next l) :
    Minding B l₀ others charges (Act.through "delete" state (delete m >>= fun _ => next)) l := by
  refine minding_through ?_ (minding_deleted h hn)
  rw [hc]
  exact h

/-- A failure that leaves a mirror to be deleted hands it over. -/
theorem minding_afterLeft {f : Failure} (hf : m.IsLeftBy f) (h : Minds B l₀ (.clearing m :: others) l) :
    Minding B l₀ others charges (afterFailure id generation f) l := by
  rcases hf with rfl | ⟨e, rfl, he⟩
  · exact minding_abrupt rfl h
  · unfold afterFailure
    dsimp only
    rw [he]
    exact minding_discard rfl h fun l h => minding_giveUp e h

/-- After a failure that leaves nothing there is nothing to be in charge of. -/
theorem minding_afterNothing {f : Failure} (hf : ∀ e, f = .mirror e → e.scratch = none) (h : Minds B l₀ others l) :
    Minding B l₀ others charges (afterFailure id generation f) l := by
  unfold afterFailure
  split
  · rename_i e
    rw [hf e rfl]
    exact minding_giveUp e h
  · exact minding_ends h

theorem minding_install (h : Minds B l₀ (.bringing id m :: others) l) :
    Minding B l₀ others charges (install id generation m) l := by
  unfold install
  rw [minding_isLatest]
  split
  · rename_i hlatest
    obtain ⟨w, hw, hr⟩ : ∃ w, l.state.workspaces[id]? = some w ∧ w.state ≠ .removed := by
      obtain ⟨w, hw, hlatest⟩ := (Option.any_eq_true _ _).mp hlatest
      simp only [Bool.and_eq_true, decide_eq_true_eq] at hlatest
      exact ⟨w, hw, hlatest.2⟩
    rw [minding_workspace?, hw]
    have hkeeps : ∀ w : Workspace, w.state ≠ .removed →
        (if w.state = .compileInFlight then w.state else .ready : Lifecycle) ≠ .removed := fun w hr => by
      split
      · exact hr
      · exact Lifecycle.noConfusion
    rw [minding_note]
    replace h := h.noted (.installed id generation m)
    have hinstalled := h.keeping.installs (f := fun w =>
      { w.enter (if w.state = .compileInFlight then w.state else .ready) with mirror := some m })
      h.tally hw hr rfl rfl hkeeps
    rw [minding_updateWorkspace, Option.bind_some]
    cases hprevious : w.mirror.filter (· ≠ m) with
    | none =>
        rw [hprevious] at hinstalled
        exact minding_ends (h.moved hinstalled)
    | some previous =>
        rw [hprevious] at hinstalled
        exact minding_discard rfl (h.moved hinstalled) fun l h => minding_ends h
  · rw [minding_note]
    exact minding_discard rfl (h.noted _).discards fun l h => minding_readiness h

/-- A workspace that is to get a mirror is there. -/
theorem minding_served {next : Workspace → ServerAct (Step Initialization Bool)}
    (h : Minds B l₀ (.bringing id m :: others) l)
    (hn : ∀ w, l.state.workspaces[id]? = some w → Minding B l₀ others charges (next w) l) :
    Minding B l₀ others charges (withWorkspace id (pure (.done false)) next) l :=
  minding_withWorkspace (fun hnone => minding_ends ⟨h.keeping, h.creates, h.keeping.known h.tally hnone⟩) hn

theorem minding_writeOver (documents : List (Path × ByteArray)) (h : Minds B l₀ (.bringing id m :: others) l) :
    Minding B l₀ others charges (writeOver id generation m documents) l := by
  refine minding_served h fun w _ => ?_
  refine minding_onDisk h (Mirror.overlay_leaves m w.root documents) (fun entries l₁ h => ?_)
    fun f l₁ hf h => minding_afterLeft hf h.discards
  exact minding_bind (standingBy_record m entries) h fun _ _ h => minding_install h

theorem minding_overlay (h : Minds B l₀ (.bringing id m :: others) l) :
    Minding B l₀ others charges (overlay id generation m) l := by
  refine minding_served h fun w _ => ?_
  rw [minding_state]
  dsimp only
  split
  · exact minding_install h
  · exact minding_through h (minding_writeOver _ h)

theorem minding_create (h : Minds B l₀ others l) : Minding B l₀ others charges (create id generation) l := by
  refine minding_withWorkspace (fun _ => minding_ends h) fun w hw => ?_
  have hknown : id < l.state.workspaces.length := (List.getElem?_eq_some_iff.mp hw).1
  unfold Minding
  rw [Mirror.reaches_makeMirror]
  refine (Mirror.create_grows l.state.policy w.root l.state.disk).mono (fun (m, index) disk hd => ?_)
    fun f disk hf => ?_
  · have hmade := h.moved (h.keeping.makes h.tally hknown hd)
    exact minding_overlay (hmade.standsBy (.aside rfl rfl rfl rfl rfl rfl))
  · rcases hf with ⟨hd, hnone⟩ | ⟨m, hd, hleft⟩
    · refine minding_afterNothing hnone (h.standsBy ⟨⟨[], .nil rfl rfl⟩, rfl, hd, rfl, fun id => ?_⟩)
      exact StandsBy.rel_refl _ id
    · exact minding_afterLeft hleft (h.moved (h.keeping.makes h.tally hknown hd)).discards

theorem minding_start (h : Minds B l₀ others l) : Minding B l₀ others charges (start id) l := by
  refine minding_withWorkspace (fun _ => minding_ends h) fun w hw => ?_
  split
  · exact minding_ends h
  · rw [minding_note]
    refine minding_bind (standingBy_updateWorkspace fun w _ => ⟨rfl, rfl, fun hr => ?_⟩) (h.noted _) fun _ l₁ h =>
      minding_through (Minds.idle_iff.mpr h) (minding_create h)
    dsimp only [Workspace.enter]
    split
    · exact Lifecycle.noConfusion
    · exact hr

-- From here on what an operation does is followed by the lemmas above, not by running it.
attribute [irreducible] Minding

theorem minding_resume (state : Initialization) (signal : Signal) (h : Minds B l₀ (state.charges :: others) l) :
    Minding B l₀ others charges (resume state signal) l := by
  unfold resume
  cases signal with
  | go =>
      cases state with
      | creating id generation => exact minding_create (Minds.idle_iff.mp h)
      | overlaying id generation m documents => exact minding_writeOver documents h
      | discardingFailed id generation m error => exact minding_deleted h fun l h => minding_giveUp error h
      | discardingSuperseded id m => exact minding_deleted h fun l h => minding_readiness h
      | deletingPrevious m => exact minding_deleted h fun l h => minding_ends h
  | cancelled | timedOut | failed f => exact minding_abrupt rfl h

end Initialization

end InkServer
