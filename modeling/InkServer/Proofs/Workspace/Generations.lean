import InkServer.Proofs.Workspace.Lifecycle

/-!
# The initializations of a workspace

The initializations of a workspace are numbered in the order in which they begin. What is on record says which have
begun, who made which mirror, and whether a mirror that was made became that of its workspace or came too late.
Only the latest initialization gives a registered workspace its mirror.
-/

namespace InkServer

open ServerState

/-- The workspace whose initialization begins, or has a mirror that is filled. -/
def Event.initialized? : Event → Option WorkspaceId
  | .initializing id _ _ | .installed id _ _ | .superseded id _ _ => some id
  | _ => none

namespace Workspace

/-- What is on record of the initializations of a registered workspace. -/
structure Generations (events : List Event) (id : WorkspaceId) (w : Workspace) : Prop where
  begun : ∀ g had, .initializing id g had ∈ events → g ≤ w.initializations
  last : 0 < w.initializations → ∃ had, .initializing id w.initializations had ∈ events
  installed : ∀ g m, .installed id g m ∈ events → g ≤ w.initializations
  superseded : ∀ g m, .superseded id g m ∈ events → g < w.initializations
  /-- A mirror is installed before any later initialization has begun. -/
  ordered : ∀ before g m after, events = before ++ .installed id g m :: after →
    .made id g m ∈ before ∧ ∀ g' had, .initializing id g' had ∈ before → g' ≤ g
  /-- The mirror is the one of the latest initialization, or the one that the workspace had before. -/
  mirror : ∀ had, .initializing id w.initializations had ∈ events →
    (∃ m, .installed id w.initializations m ∈ events ∧ w.mirror = some m) ∨
      (∀ m, .installed id w.initializations m ∉ events) ∧ w.mirror = had

variable {id : WorkspaceId} {w w' : Workspace} {events record : List Event}

theorem generations_of_forall_ne (h : ∀ e ∈ events, e.initialized? ≠ some id) (hw : w.initializations = 0) :
    w.Generations events id where
  begun _ _ hm := absurd rfl (h _ hm)
  last hpos := absurd hw (Nat.pos_iff_ne_zero.mp hpos)
  installed _ _ hm := absurd rfl (h _ hm)
  superseded _ _ hm := absurd rfl (h _ hm)
  ordered _ _ _ _ he := absurd rfl (h _ (he ▸ List.mem_append_right _ List.mem_cons_self))
  mirror _ hm := absurd rfl (h _ hm)

namespace Generations

/-- What else is put on record is none of the workspace's business, or comes too late. -/
theorem append (h : w.Generations events id) (hi : w'.initializations = w.initializations) (hm : w'.mirror = w.mirror)
    (hr : ∀ e ∈ record, e.initialized? = some id → ∃ g m, e = .superseded id g m ∧ g < w.initializations) :
    w'.Generations (events ++ record) id := by
  have hbegun : ∀ {g had}, .initializing id g had ∈ events ++ record ↔ .initializing id g had ∈ events := by
    refine fun {g had} => ⟨fun hm => (List.mem_append.mp hm).resolve_right fun hm => ?_, List.mem_append_left _⟩
    obtain ⟨_, _, he, _⟩ := hr _ hm rfl
    cases he
  have hinstalled : ∀ {g m}, .installed id g m ∉ record := fun hm => by
    obtain ⟨_, _, he, _⟩ := hr _ hm rfl
    cases he
  have hevents : ∀ {g m}, .installed id g m ∈ events ++ record ↔ .installed id g m ∈ events := by
    exact fun {g m} => ⟨fun hm => (List.mem_append.mp hm).resolve_right hinstalled, List.mem_append_left _⟩
  refine ⟨fun g had hm => ?_, fun hpos => ?_, fun g m hm => ?_, fun g m hm => ?_, fun before g m after he => ?_,
    fun had hm => ?_⟩
  · exact hi ▸ h.begun g had (hbegun.mp hm)
  · rw [hi] at hpos ⊢
    exact (h.last hpos).imp fun _ hm => List.mem_append_left _ hm
  · exact hi ▸ h.installed g m (hevents.mp hm)
  · rw [hi]
    rcases List.mem_append.mp hm with hm | hm
    · exact h.superseded g m hm
    · obtain ⟨_, _, he, hlt⟩ := hr _ hm rfl
      cases he
      exact hlt
  · rcases append_eq_append_cons he with ⟨old, hold, _⟩ | ⟨first, _, hrecord⟩
    · exact h.ordered before g m old hold
    · exact absurd (hrecord ▸ List.mem_append_right _ List.mem_cons_self) hinstalled
  · rw [hi] at hm ⊢
    rename_i hmirror
    rw [hmirror]
    simp only [hevents]
    exact h.mirror had (hbegun.mp hm)

/-- Another initialization begins. -/
theorem begins (h : w.Generations events id) (hi : w'.initializations = w.initializations + 1)
    (hm : w'.mirror = w.mirror) :
    w'.Generations (events ++ [.initializing id (w.initializations + 1) w.mirror]) id := by
  have hbegun : ∀ {g had}, .initializing id g had ∈ events ++ [.initializing id (w.initializations + 1) w.mirror] ↔
      .initializing id g had ∈ events ∨ g = w.initializations + 1 ∧ had = w.mirror := by simp
  have hinstalled : ∀ {g m}, .installed id g m ∈ events ++ [.initializing id (w.initializations + 1) w.mirror] ↔
      .installed id g m ∈ events := by simp
  refine ⟨fun g had hb => ?_, fun _ => ⟨w.mirror, hi ▸ hbegun.mpr (.inr ⟨rfl, rfl⟩)⟩, fun g m hb => ?_,
    fun g m hb => ?_, fun before g m after he => ?_, fun had hb => ?_⟩
  · rcases hbegun.mp hb with hb | ⟨rfl, _⟩
    · exact hi ▸ Nat.le_succ_of_le (h.begun g had hb)
    · exact Nat.le_of_eq hi.symm
  · exact hi ▸ Nat.le_succ_of_le (h.installed g m (hinstalled.mp hb))
  · exact hi ▸ Nat.lt_succ_of_lt (h.superseded g m (by simpa using hb))
  · rcases append_eq_append_cons he with ⟨old, hold, _⟩ | ⟨first, _, hrecord⟩
    · exact h.ordered before g m old hold
    · have hmem := hrecord ▸ List.mem_append_right first (List.mem_cons_self (a := Event.installed id g m) (l := after))
      cases List.mem_singleton.mp hmem
  · -- Nothing of the new initialization was on record before.
    rw [hi] at hb ⊢
    refine .inr ⟨fun m hm' => absurd (h.installed _ m (hinstalled.mp hm')) (Nat.not_succ_le_self _), ?_⟩
    rcases hbegun.mp hb with hb | ⟨_, rfl⟩
    · exact absurd (h.begun _ had hb) (Nat.not_succ_le_self _)
    · exact hm

/-- The latest initialization gives the workspace its mirror. -/
theorem installs {m : Mirror} (h : w.Generations events id) (hi : w'.initializations = w.initializations)
    (hm : w'.mirror = some m) (hc : .made id w.initializations m ∈ events) :
    w'.Generations (events ++ [.installed id w.initializations m]) id := by
  have hbegun : ∀ {g had}, .initializing id g had ∈ events ++ [.installed id w.initializations m] ↔
      .initializing id g had ∈ events := by simp
  refine ⟨fun g had hb => hi ▸ h.begun g had (hbegun.mp hb), fun hpos => ?_, fun g m' hb => ?_, fun g m' hb => ?_,
    fun before g m' after he => ?_, fun had hb => ?_⟩
  · rw [hi] at hpos ⊢
    exact (h.last hpos).imp fun _ hb => hbegun.mpr hb
  · rw [hi]
    rcases List.mem_append.mp hb with hb | hb
    · exact h.installed g m' hb
    · cases List.mem_singleton.mp hb
      exact Nat.le_refl _
  · exact hi ▸ h.superseded g m' (by simpa using hb)
  · rcases append_eq_append_cons he with ⟨old, hold, _⟩ | ⟨first, hbefore, hrecord⟩
    · exact h.ordered before g m' old hold
    · cases first with
      | nil =>
          cases (List.cons.inj hrecord).1
          rw [hbefore, List.append_nil]
          exact ⟨hc, fun g' had => h.begun g' had⟩
      | cons _ first => exact absurd (List.cons.inj hrecord).2 (by simp)
  · exact .inl ⟨m, by rw [hi]; simp, hm⟩

end Generations

namespace Turn

variable {s : ServerState} {lists : List (String × List Diagnostic)}

/-- What a turn of a workspace means for its initializations: nothing, or one begins or installs its mirror. -/
theorem initializes (h : w.Turn s id w' lists record) (hg : ¬s.Gone id) :
    w'.initializations = w.initializations ∧ w'.mirror = w.mirror ∧ (∀ e ∈ record, e.initialized? = none) ∨
      (w'.initializations = w.initializations + 1 ∧ w'.mirror = w.mirror ∧
        record = [.initializing id (w.initializations + 1) w.mirror]) ∨
      ∃ m, w'.initializations = w.initializations ∧ w'.mirror = some m ∧
        .made id w.initializations m ∈ s.events ∧ record = [.installed id w.initializations m] := by
  cases h with
  | begins => exact .inr (.inl ⟨rfl, rfl, rfl⟩)
  | installs _ _ _ hc => exact .inr (.inr ⟨_, rfl, rfl, hc, rfl⟩)
  | drops h => exact absurd h hg
  | _ => exact .inl ⟨rfl, rfl, by simp [Event.initialized?]⟩

/-- A workspace has no other mirrors than those that were made in its initializations. -/
theorem made_of_mirror (h : w.Turn s id w' lists record) {m : Mirror} (hm : w'.mirror = some m) :
    w.mirror = some m ∨ ∃ g, .made id g m ∈ s.events := by
  cases h with
  | installs _ _ _ hc =>
      cases hm
      exact .inr ⟨_, hc⟩
  | drops => cases hm
  | _ => exact .inl hm

theorem generations (h : w.Turn s id w' lists record) (hg : ¬s.Gone id) {published : List Event}
    (hp : ∀ e ∈ published, IsPublication e) (hold : w.Generations s.events id) :
    w'.Generations (s.events ++ (published ++ record)) id := by
  have hpublished : w.Generations (s.events ++ published) id := by
    refine hold.append rfl rfl fun e hm he => ?_
    have hpublication := hp e hm
    cases e with
    | published | handed => cases he
    | _ => cases hpublication
  rw [← List.append_assoc]
  rcases h.initializes hg with ⟨hi, hm, hnone⟩ | ⟨hi, hm, rfl⟩ | ⟨m, hi, hm, hc, rfl⟩
  · refine hpublished.append hi hm fun e hmem he => ?_
    rw [hnone e hmem] at he
    cases he
  · exact hpublished.begins hi hm
  · exact hpublished.installs hi hm (List.mem_append_left _ hc)

end Turn

end Workspace

/-! ## At all times -/

namespace ServerState

variable {s s' : ServerState} {id : WorkspaceId} {allowed : Foreign → Prop}

/-- The record tells of the initializations of all registered workspaces, and of no others that were never there. -/
structure Numbered (s : ServerState) : Prop where
  consistent : s.Consistent
  known : ∀ e ∈ s.events, ∀ id, e.initialized? = some id → id < s.workspaces.length
  each : ∀ id, s.IsRegistered id → ∀ w, s.workspaces[id]? = some w → w.Generations s.events id

/-- What is put on record of an initialization is about a workspace that is there already. -/
theorem Numbered.known_of_mem (hn : s.Numbered) (h : Change s s') {e : Event} (hm : e ∈ s'.events)
    (he : e.initialized? = some id) : id < s.workspaces.length := by
  obtain ⟨record, hrecord⟩ := h.later.events
  by_cases hold : e ∈ s.events
  · exact hn.known e hold id he
  · have hnew : e ∈ record := (List.mem_append.mp (hrecord.symm ▸ hm)).resolve_left hold
    have hknown : e.workspace? = some id → id < s.workspaces.length := fun hw => by
      obtain ⟨w, hw⟩ := h.known_of_mem hrecord.symm hnew hw
      exact (List.getElem?_eq_some_iff.mp hw).1
    cases e with
    | initializing | installed => exact hknown he
    | superseded =>
        obtain ⟨had, hbegun⟩ := ((h.superseded hm).resolve_left hold).begun.recorded
        exact hn.known _ hbegun id he
    | _ => cases he

theorem Numbered.change (hn : s.Numbered) (h : Change s s') (hs : s.Sound) : s'.Numbered := by
  have hstep : Steps (fun _ => True) s s' := .single (.own h)
  refine ⟨hstep.consistent hs hn.consistent,
    fun e hm id he => Nat.lt_of_lt_of_le (hn.known_of_mem h hm he) h.later.length, fun id hr w' hw' => ?_⟩
  by_cases hk : id < s.workspaces.length
  · have hr₀ := hr.earlier h.later hk
    have hw := List.getElem?_eq_getElem hk
    have hpresent := (hn.consistent id hr₀ _ hw).present
    have hold := hn.each id hr₀ _ hw
    obtain ⟨record, he, ⟨rfl, hrest⟩ | ⟨_, published, own, rfl, hp, ht⟩⟩ := h.stays hs hr hw hw' hpresent
    · rw [he]
      refine hold.append rfl rfl fun e hm hid => ?_
      cases e with
      | initializing | installed => exact absurd hid (hrest _ hm)
      | superseded _ g m =>
          cases hid
          refine ⟨g, m, rfl, ?_⟩
          rcases h.superseded (he ▸ List.mem_append_right _ hm) with hm | hlate
          · exact hold.superseded g m hm
          · -- It has begun, and it is not the latest one as long as the workspace is registered.
            obtain ⟨had, hbegun⟩ := hlate.begun.recorded
            refine Nat.lt_of_le_of_ne (hold.begun g had hbegun) fun hlatest => ?_
            exact hpresent (hlate.late _ hw hlatest)
      | _ => cases hid
    · rw [he]
      exact ht.generations hr₀.not_gone hp hold
  · obtain ⟨folder, hf⟩ := h.comes hk hw'
    obtain ⟨root, _, rfl⟩ := Workspace.eq_of_ofFolder hf
    exact Workspace.generations_of_forall_ne (fun e hm he => hk (hn.known_of_mem h hm he)) rfl

theorem Steps.numbered (h : Steps allowed s s') (hs : s.Sound) (hn : s.Numbered) : s'.Numbered :=
  (h.keeps hs hn (fun _ _ hs hc hn => hn.change hc hs) fun _ _ _ _ hn => ⟨hn.consistent, hn.known, hn.each⟩).2

/-! ## Whose mirror is whose -/

/-- Every mirror was made for one workspace, and no other has it. -/
structure Attributed (s : ServerState) : Prop where
  single : ∀ id g id' g' m, .made id g m ∈ s.events → .made id' g' m ∈ s.events → id = id'
  owned : ∀ id w m, s.workspaces[id]? = some w → w.mirror = some m → ∃ g, .made id g m ∈ s.events

theorem Attributed.change (ha : s.Attributed) (h : Change s s') : s'.Attributed := by
  constructor
  · intro id g id' g' m hm hm'
    rcases h.made hm with hold | ⟨he, hnew⟩
    · rcases h.made hm' with hold' | ⟨_, hnew⟩
      · exact ha.single id g id' g' m hold hold'
      · exact absurd hold (hnew.unclaimed id g)
    · rcases h.made hm' with hold' | ⟨he', _⟩
      · exact absurd hold' (hnew.unclaimed id' g')
      · have hsame := List.append_cancel_left (he.symm.trans he')
        cases (List.cons.inj hsame).1
        rfl
  · intro id w' m hw' hm
    have hlater : (∃ g, .made id g m ∈ s.events) → ∃ g, .made id g m ∈ s'.events :=
      .imp fun _ hm => h.later.events.subset hm
    by_cases hk : id < s.workspaces.length
    · have hw := List.getElem?_eq_getElem hk
      obtain ⟨x, record, hx, _, hp⟩ := h.passes hw
      cases hw'.symm.trans hx
      cases hp with
      | rests | removes | dismisses => exact hlater (ha.owned id _ m hw hm)
      | turns _ ht => exact hlater ((ht.made_of_mirror hm).elim (ha.owned id _ m hw) fun hg => hg)
    · obtain ⟨folder, hf⟩ := h.comes hk hw'
      obtain ⟨root, _, rfl⟩ := Workspace.eq_of_ofFolder hf
      cases hm

theorem Steps.attributed (h : Steps allowed s s') (hs : s.Sound) (ha : s.Attributed) : s'.Attributed :=
  (h.keeps hs ha (fun _ _ _ hc ha => ha.change hc) fun _ _ _ _ ha => ⟨ha.single, ha.owned⟩).2

end ServerState

namespace Server

variable {s : ServerState}

theorem IsFresh.numbered (h : IsFresh s) : s.Numbered := by
  refine ⟨h.consistent, fun e hm => ?_, fun id ⟨uri, hr⟩ => ?_⟩
  · rw [h.events] at hm
    cases hm
  · rw [h.registered] at hr
    cases hr

theorem IsFresh.attributed (h : IsFresh s) : s.Attributed := by
  refine ⟨fun id g id' g' m hm => ?_, fun id w m hw => ?_⟩
  · rw [h.events] at hm
    cases hm
  · rw [h.workspaces] at hw
    cases hw

end Server

end InkServer
