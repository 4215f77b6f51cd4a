import InkServer.Proofs.Workspace.Accounts
import InkServer.Proofs.Workspace.Generations

/-!
# Initializations that overtake each other

Any number of initializations of a workspace may be under way, and each may be done with its mirror, or fail, before or
after the others. Whatever their order, the one that began last decides which mirror the workspace has, and of the
mirrors of all others nothing stays.
-/

namespace InkServer

open ServerState

namespace Workspace

/-- Whether an initialization made a mirror and wrote everything into it. -/
def Completes (events : List Event) (id : WorkspaceId) (g : Nat) (m : Mirror) : Prop :=
  .installed id g m ∈ events ∨ .superseded id g m ∈ events

/-- An initialization after which no other has begun, and the mirror that the workspace had when it began. -/
structure IsLatest (events : List Event) (id : WorkspaceId) (g : Nat) (had : Option Mirror) : Prop where
  begun : .initializing id g had ∈ events
  last : ∀ g' had', .initializing id g' had' ∈ events → g' ≤ g

namespace Generations

variable {events : List Event} {id : WorkspaceId} {w : Workspace} {g : Nat} {had : Option Mirror}

/-- The number of the latest initialization is how many there were. -/
theorem initializations_of_isLatest (h : w.Generations events id) (hl : IsLatest events id g had) :
    w.initializations = g := by
  refine Nat.le_antisymm ?_ (h.begun g had hl.begun)
  rcases Nat.eq_zero_or_pos w.initializations with h0 | hpos
  · exact h0 ▸ Nat.zero_le g
  · obtain ⟨had', hbegun⟩ := h.last hpos
    exact hl.last _ had' hbegun

/-- An initialization that completes its mirror before any other begins gives it to the workspace. -/
theorem installed_of_isLatest (h : w.Generations events id) (hl : IsLatest events id g had) {m : Mirror}
    (hc : Completes events id g m) : .installed id g m ∈ events := by
  refine hc.resolve_right fun hlate => ?_
  have hbefore := h.superseded g m hlate
  rw [h.initializations_of_isLatest hl] at hbefore
  exact absurd hbefore (Nat.lt_irrefl g)

theorem made_of_installed (h : w.Generations events id) {m : Mirror} (hi : .installed id g m ∈ events) :
    .made id g m ∈ events := by
  obtain ⟨before, after, he⟩ := List.append_of_mem hi
  exact he ▸ List.mem_append_left _ (h.ordered before g m after he).1

/-- The mirror of a workspace is the one that the latest initialization made and completed, or, if it did not, the one
that was there before. -/
theorem mirror_of_isLatest (h : w.Generations events id) (hl : IsLatest events id g had) :
    ((∃ m, Completes events id g m) →
        ∃ m, .made id g m ∈ events ∧ Completes events id g m ∧ w.mirror = some m) ∧
      ((¬∃ m, Completes events id g m) → w.mirror = had) := by
  have hmirror := h.mirror had
  rw [h.initializations_of_isLatest hl] at hmirror
  rcases hmirror hl.begun with ⟨m, hi, hm⟩ | ⟨hnone, hm⟩
  · exact ⟨fun _ => ⟨m, h.made_of_installed hi, .inl hi, hm⟩, fun hfailed => absurd ⟨m, .inl hi⟩ hfailed⟩
  · exact ⟨fun ⟨m, hc⟩ => absurd (h.installed_of_isLatest hl hc) (hnone m), fun _ => hm⟩

end Generations

end Workspace

namespace Server

variable {s : ServerState} {moves : List (Session.Move External)} {id : WorkspaceId}

/-- Once all is done, the mirrors that were made for a workspace, and those that could not be completed for any, are
deleted, except for the one that the workspace has. -/
theorem IsSettled.mirror_or_deleted (h : IsSettled s moves) (hs : IsFresh s) {w : Workspace}
    (hw : (run s moves).state.workspaces[id]? = some w) {m : Mirror}
    (hm : m.IsMade (run s moves).state.policy (run s moves).state.disk)
    (hown : ∀ id' g, .made id' g m ∈ (run s moves).state.events → id' = id) :
    w.mirror = some m ∨ .deleted m.path ∈ (run s moves).state.disk.history := by
  have hsteps : Steps (fun _ => True) s (run s moves).state := steps_run hs fun _ _ => allows_all
  refine (h.kept hs hm).imp_left fun ⟨id', w', hw', hm'⟩ => ?_
  obtain ⟨g, hmade⟩ := (hsteps.attributed hs.sound hs.attributed).owned id' w' m hw' hm'
  obtain rfl := hown id' g hmade
  rw [hw] at hw'
  rwa [Option.some.inj hw']

/-- Initializations that were overtaken never win. However those of a registered workspace overtake each other, one
installs its mirror only before a later one has begun. If the latest one completes its mirror, then the workspace has
that mirror, otherwise the one that it had when the latest one began. Once all is done, every other directory that was
made for the workspace is deleted, also those in which no mirror was completed. -/
theorem superseded_initializations_never_win (hs : IsFresh s) {uri : String}
    (hr : (run s moves).state.registered.get? uri = some id) :
    ∃ w, (run s moves).state.workspaces[id]? = some w ∧
      (∀ before g m after, (run s moves).state.events = before ++ .installed id g m :: after →
        .made id g m ∈ before ∧ ∀ g' had, .initializing id g' had ∈ before → g' ≤ g) ∧
      (∀ g had, Workspace.IsLatest (run s moves).state.events id g had →
        ((∃ m, Workspace.Completes (run s moves).state.events id g m) →
            ∃ m, .made id g m ∈ (run s moves).state.events ∧
              Workspace.Completes (run s moves).state.events id g m ∧ w.mirror = some m) ∧
          ((¬∃ m, Workspace.Completes (run s moves).state.events id g m) → w.mirror = had)) ∧
      (IsSettled s moves → ∀ m : Mirror, m.IsMade (run s moves).state.policy (run s moves).state.disk →
        (∀ id' g, .made id' g m ∈ (run s moves).state.events → id' = id) →
          w.mirror = some m ∨ .deleted m.path ∈ (run s moves).state.disk.history) := by
  have hsteps : Steps (fun _ => True) s (run s moves).state := steps_run hs fun _ _ => allows_all
  obtain ⟨w, hw, _⟩ := (hsteps.sound hs.sound).keyed uri id hr
  have hgenerations := (hsteps.numbered hs.sound hs.numbered).each id ⟨uri, hr⟩ w hw
  exact ⟨w, hw, hgenerations.ordered, fun g had hl => hgenerations.mirror_of_isLatest hl,
    fun hsettled m hm hown => hsettled.mirror_or_deleted hs hw hm hown⟩

/-- Which initialization begins. -/
def begun? : Event → Option (WorkspaceId × Nat)
  | .initializing id g _ => some (id, g)
  | _ => none

/-- Which initialization has completed which mirror. -/
def completed? : Event → Option (WorkspaceId × Nat × Mirror)
  | .installed id g m | .superseded id g m => some (id, g, m)
  | _ => none

/-- For which workspace a mirror was made. -/
def maker? : Event → Option WorkspaceId
  | .made id _ _ => some id
  | _ => none

theorem mem_filterMap_begun {events : List Event} {g : Nat} :
    (id, g) ∈ events.filterMap begun? ↔ ∃ had, .initializing id g had ∈ events := by
  rw [List.mem_filterMap]
  constructor
  · rintro ⟨e, he, hg⟩
    cases e <;> cases hg
    exact ⟨_, he⟩
  · exact fun ⟨had, he⟩ => ⟨_, he, rfl⟩

theorem mem_filterMap_completed {events : List Event} {g : Nat} {m : Mirror} :
    (id, g, m) ∈ events.filterMap completed? ↔ Workspace.Completes events id g m := by
  rw [List.mem_filterMap]
  constructor
  · rintro ⟨e, he, hg⟩
    cases e with
    | installed => cases hg; exact .inl he
    | superseded => cases hg; exact .inr he
    | _ => cases hg
  · exact fun h => h.elim (fun he => ⟨_, he, rfl⟩) fun he => ⟨_, he, rfl⟩

/-- The workspace of the sample is initialized twice more, and the second of the two goes first. -/
def overtaking : List (Session.Move External) :=
  openingFolder ++ [.closes "create", .outside (.asks (.initialize_ 0)), .outside (.asks (.initialize_ 0)),
    .turn, .turn, .passes 2 .go, .passes 1 .go] ++ List.replicate 3 .turn

/-- The initialization that was overtaken completes its mirror, but the workspace has that of the later one, and the
other is deleted. -/
theorem overtaken_initialization_is_discarded :
    Workspace.Completes (run (sample []) overtaking).state.events 0 2 (sampleMirror 3) ∧
      ∃ w, (run (sample []) overtaking).state.workspaces[0]? = some w ∧ w.mirror = some (sampleMirror 2) ∧
        .deleted (sampleMirror 3).path ∈ (run (sample []) overtaking).state.disk.history := by
  have hsettled : IsSettled (sample []) overtaking := isSettled_of_sample (by decide +kernel)
  have hrun : (run (sample []) overtaking).state.registered.get? "file:///p" = some 0 ∧
      (run (sample []) overtaking).state.events.filterMap begun? = [(0, 1), (0, 2), (0, 3)] ∧
      (run (sample []) overtaking).state.events.filterMap completed? =
        [(0, 1, sampleMirror 1), (0, 3, sampleMirror 2), (0, 2, sampleMirror 3)] ∧
      ((run (sample []) overtaking).state.events.all fun e => (maker? e).all (· = 0)) ∧
      3 ≤ (run (sample []) overtaking).state.disk.scratches ∧
      (run (sample []) overtaking).state.policy.tempRoot = .ofText "/m" := by decide +kernel
  obtain ⟨hregistered, hbegun, hcompleted, hmakers, hmade⟩ := hrun
  have hlate : Workspace.Completes (run (sample []) overtaking).state.events 0 2 (sampleMirror 3) := by
    rw [← mem_filterMap_completed, hcompleted]
    decide
  obtain ⟨w, hw, _, hlatest, hdeleted⟩ := superseded_initializations_never_win (isFresh_sample []) hregistered
  have hmirror : w.mirror = some (sampleMirror 2) := by
    obtain ⟨had, hthird⟩ : ∃ had, .initializing 0 3 had ∈ (run (sample []) overtaking).state.events := by
      rw [← mem_filterMap_begun, hbegun]
      decide
    have hlast : ∀ g had', .initializing 0 g had' ∈ (run (sample []) overtaking).state.events → g ≤ 3 := by
      intro g had' he
      have hg := mem_filterMap_begun.mpr ⟨had', he⟩
      rw [hbegun] at hg
      exact (by decide : ∀ x ∈ [(0, 1), (0, 2), (0, 3)], x.2 ≤ 3) _ hg
    have hdone : Workspace.Completes (run (sample []) overtaking).state.events 0 3 (sampleMirror 2) := by
      rw [← mem_filterMap_completed, hcompleted]
      decide
    obtain ⟨m, _, hc, hm⟩ := (hlatest 3 had ⟨hthird, hlast⟩).1 ⟨_, hdone⟩
    rw [← mem_filterMap_completed, hcompleted] at hc
    have hsame := (by decide : ∀ x ∈ [(0, 1, sampleMirror 1), (0, 3, sampleMirror 2), (0, 2, sampleMirror 3)],
      x.2.1 = 3 → x.2.2 = sampleMirror 2) _ hc rfl
    exact hsame ▸ hm
  refine ⟨hlate, w, hw, hmirror, ?_⟩
  refine (hdeleted hsettled _ (isMade_sampleMirror (by decide) hmade) fun id' g he => ?_).resolve_left ?_
  · have hmaker := List.all_eq_true.mp hmakers _ he
    exact of_decide_eq_true hmaker
  · rw [hmirror]
    decide

end Server

end InkServer
