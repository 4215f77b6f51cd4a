import InkServer.Proofs.Server.Told
import Mathlib.Data.List.Basic

/-!
# Workspaces that were removed

A removal takes a workspace out of the registered ones and takes back its diagnostics at once, but then it
waits for its mirror to be deleted, and tasks that hold the workspace go on meanwhile. Two of them write its
state without asking whether it was removed: a compile whose turn comes while the mirror is still there, and
an edit or a compile that finds the directory of the mirror missing. A removed workspace is left alone
exactly if neither happens, and nothing of the kind happens any more once the mirror is gone.
-/

namespace InkServer

open ServerState

/-- Since its removal, a workspace was not called to compile in its mirror and the mirror was not missed. -/
structure Workspace.Undisturbed (id : WorkspaceId) (since : List Event) : Prop where
  uncalled : ∀ request m, .called id request (some m) ∉ since
  unmissed : .missed id ∉ since

/-- A removed workspace is at rest: it is still removed, no compiler was started for it since, nothing was
published for it since, and the client was not left with diagnostics that came from it. -/
structure ServerState.AtRest (s : ServerState) (id : WorkspaceId) (since : List Event) : Prop where
  removed : ∃ w, s.workspaces[id]? = some w ∧ w.state = .removed
  unstarted : ∀ request, .started id request ∉ since
  undelivered : ∀ request count, .delivered id request count ∉ since
  untold : ∀ uri diagnostics, s.told uri = some (some id, diagnostics) → diagnostics = []

/-! ## One turn of a removed workspace -/

namespace Workspace.Turn

variable {s : ServerState} {id : WorkspaceId} {w w' : Workspace}
  {lists : List (String × List Diagnostic)} {record : List Event}

/-- No turn removes a workspace. -/
theorem state_ne_removed (h : w.Turn s id w' lists record) (hw : w.state ≠ .removed) : w'.state ≠ .removed := by
  cases h with
  | starts | misses | yields => exact Lifecycle.noConfusion
  | settles | installs =>
      dsimp only [enter]
      split
      · first | exact hw | exact Lifecycle.noConfusion
      · first | exact hw | exact Lifecycle.noConfusion
  | begins =>
      dsimp only [enter]
      split
      · exact Lifecycle.noConfusion
      · exact hw
  | _ => exact hw

/-- Whoever is called to compile in a mirror starts the compiler. -/
theorem started_of_called (h : w.Turn s id w' lists record) {request : CompileRequest} {m : Mirror}
    (hr : .called id request (some m) ∈ record) : .started id request ∈ record := by
  cases h with
  | starts =>
      rcases List.mem_cons.mp hr with hr | hr
      · cases hr
        exact List.mem_cons_of_mem _ (List.mem_singleton_self _)
      · cases List.mem_singleton.mp hr
  | _ => simp at hr

/-- A missed mirror sets the state anew. -/
theorem state_of_missed (h : w.Turn s id w' lists record) (hr : .missed id ∈ record) :
    w'.state ≠ .removed := by
  cases h with
  | misses => exact Lifecycle.noConfusion
  | _ => simp at hr

/-- A turn that does not disturb a removed workspace leaves it at rest. -/
theorem rests (h : w.Turn s id w' lists record) (hw : w.state = .removed) (hr : Undisturbed id record) :
    w'.state = .removed ∧ w'.published = w.published ∧ (∀ request, .started id request ∉ record) ∧
      ∀ request count, .delivered id request count ∉ record := by
  cases h with
  | starts => exact absurd List.mem_cons_self (hr.uncalled _ _)
  | misses => exact absurd (List.mem_singleton_self _) hr.unmissed
  | delivers _ _ _ hn => exact absurd hw hn
  | begins hn => exact absurd hw hn
  | installs hn => exact absurd hw hn
  | yields hn => exact absurd hw hn
  | settles => exact ⟨by rw [if_neg (by rw [hw]; exact Lifecycle.noConfusion)]; exact hw, rfl, by simp, by simp⟩
  | _ => exact ⟨hw, rfl, by simp, by simp⟩

/-- Nothing disturbs a removed workspace without a mirror. -/
theorem undisturbed (h : w.Turn s id w' lists record) (hw : w.state = .removed) (hm : w.mirror = none) :
    Undisturbed id record ∧ w'.mirror = none := by
  cases h with
  | starts _ hm' | misses hm' =>
      rw [hm] at hm'
      cases hm'
  | installs hn => exact absurd hw hn
  | drops => exact ⟨⟨by simp, by simp⟩, rfl⟩
  | _ => exact ⟨⟨by simp, by simp⟩, hm⟩

end Workspace.Turn

/-! ## All steps after the removal -/

namespace ServerState

variable {s s' : ServerState} {id : WorkspaceId} {since : List Event}

/-- What holds of a workspace after its removal. -/
structure Removed (s : ServerState) (id : WorkspaceId) (since : List Event) : Prop where
  gone : s.Gone id
  starts : ∀ request m, .called id request (some m) ∈ since → .started id request ∈ since
  misses : .missed id ∈ since → ∀ w, s.workspaces[id]? = some w → w.state ≠ .removed
  rests : Workspace.Undisturbed id since →
    (∃ w, s.workspaces[id]? = some w ∧ w.state = .removed ∧ w.published = []) ∧
      (∀ request, .started id request ∉ since) ∧ ∀ request count, .delivered id request count ∉ since

theorem undisturbed_append {first last : List Event} :
    Workspace.Undisturbed id (first ++ last) ↔
      Workspace.Undisturbed id first ∧ Workspace.Undisturbed id last := by
  constructor
  · intro h
    exact ⟨⟨fun r m hm => h.uncalled r m (List.mem_append_left _ hm), fun hm => h.unmissed (List.mem_append_left _ hm)⟩,
      ⟨fun r m hm => h.uncalled r m (List.mem_append_right _ hm), fun hm => h.unmissed (List.mem_append_right _ hm)⟩⟩
  · rintro ⟨h, h'⟩
    exact ⟨fun r m hm => (List.mem_append.mp hm).elim (h.uncalled r m) (h'.uncalled r m),
      fun hm => (List.mem_append.mp hm).elim h.unmissed h'.unmissed⟩

/-- One step leaves a removed workspace as it is, or disturbs it. -/
theorem Removed.passes (h : s.Removed id since) {w w' : Workspace} {record : List Event}
    (hg : s'.Gone id) (hw : s.workspaces[id]? = some w) (hw' : s'.workspaces[id]? = some w')
    (hp : Workspace.Passes s id w w' record) : s'.Removed id (since ++ record) := by
  cases hp with
  | rests hr =>
      have hold : ∀ e ∈ since ++ record, e.workspace? = some id → e ∈ since := fun e hm he =>
        (List.mem_append.mp hm).elim (fun hm => hm) fun hm => absurd he (hr e hm)
      refine ⟨hg, fun r m hm => List.mem_append_left _ (h.starts r m (hold _ hm rfl)), fun hm => ?_, fun hu => ?_⟩
      · intro x hx
        rw [hw'] at hx
        cases hx
        exact h.misses (hold _ hm rfl) w hw
      · obtain ⟨⟨x, hx, hrest⟩, hs, hd⟩ := h.rests (undisturbed_append.mp hu).1
        rw [hw] at hx
        cases hx
        exact ⟨⟨w, hw', hrest⟩, fun r hm => hs r (hold _ hm rfl), fun r n hm => hd r n (hold _ hm rfl)⟩
  | turns hpub ht =>
      rename_i lists published record
      refine ⟨hg, fun r m hm => ?_, fun hm x hx => ?_, fun hu => ?_⟩
      · rcases List.mem_append.mp hm with hm | hm
        · exact List.mem_append_left _ (h.starts r m hm)
        · exact List.mem_append_right _
            (List.mem_append_right _ (ht.started_of_called (mem_record_of_mem hpub rfl hm)))
      · rw [hw'] at hx
        cases hx
        rcases List.mem_append.mp hm with hm | hm
        · exact ht.state_ne_removed (h.misses hm w hw)
        · exact ht.state_of_missed (mem_record_of_mem hpub rfl hm)
      · obtain ⟨hu, hu'⟩ := undisturbed_append.mp hu
        obtain ⟨⟨x, hx, hremoved, hcleared⟩, hs, hd⟩ := h.rests hu
        rw [hw] at hx
        cases hx
        obtain ⟨hstate, hlist, hs', hd'⟩ := ht.rests hremoved (undisturbed_append.mp hu').2
        refine ⟨⟨w', hw', hstate, hlist.trans hcleared⟩, fun r hm => ?_, fun r n hm => ?_⟩
        · exact (List.mem_append.mp hm).elim (hs r) fun hm => hs' r (mem_record_of_mem hpub rfl hm)
        · exact (List.mem_append.mp hm).elim (hd r n) fun hm => hd' r n (mem_record_of_mem hpub rfl hm)
  | removes _ hr | dismisses hr => exact absurd hr (h.gone.unregistered _)

/-- Only a removal puts a removal on record, and the workspace is gone then. -/
theorem Change.gone_of_removed (h : Change s s') (hs : s.Sound) {record : List Event}
    (he : s'.events = s.events ++ record) (hm : .removed id ∈ record) : s'.Gone id := by
  rcases h.of_mem he hm rfl with ⟨_, _, _, _, _, ht, hin, _⟩ | ⟨_, _, _, hr, _, ht⟩
  · cases ht <;> simp at hin
  · exact hs.gone_erase hr h.later.length ht

/-- A workspace that has just been removed is at rest. -/
theorem Removed.of_passes {w w' : Workspace} {record before : List Event} (hg : s'.Gone id)
    (hw' : s'.workspaces[id]? = some w') (hp : Workspace.Passes s id w w' record)
    (he : record = before ++ .removed id :: since) : s'.Removed id since := by
  have hm : .removed id ∈ record := he ▸ List.mem_append_right _ List.mem_cons_self
  cases hp with
  | rests hr => exact absurd rfl (hr _ hm)
  | turns hpub ht =>
      have hin := mem_record_of_mem hpub rfl hm
      cases ht <;> simp at hin
  | removes hpub hr =>
      rename_i uri published
      have hnot : Event.removed id ∉ published := fun h => by
        have h' := hpub _ h
        cases h'
      obtain ⟨_, _, hsince⟩ := (List.append_cons_inj_of_notMem hnot List.not_mem_nil).mp he
      rw [← hsince]
      exact ⟨hg, fun _ _ h => absurd h List.not_mem_nil, fun h => absurd h List.not_mem_nil,
        fun _ => ⟨⟨_, hw', rfl, rfl⟩, fun _ => List.not_mem_nil, fun _ _ => List.not_mem_nil⟩⟩
  | dismisses => exact absurd hm List.not_mem_nil

/-- After each removal on record, the workspace is as it is after a removal. -/
theorem Steps.removed {allowed : Foreign → Prop} (h : Steps allowed s s') (hs : s.Sound) (he : s.events = []) :
    ∀ id before since, s'.events = before ++ .removed id :: since → s'.Removed id since := by
  refine (Steps.keeps h hs (p := fun t => ∀ id before since, t.events = before ++ .removed id :: since →
    t.Removed id since) (fun id before since h => ?_) (fun s s' hs hc ih id before since h => ?_) ?_).2
  · rw [he] at h
    exact absurd (congrArg List.length h) (by simp)
  · obtain ⟨record, hevents⟩ := hc.later.events
    rcases append_eq_append_cons (hevents.trans h) with ⟨old, hold, rfl⟩ | ⟨first, _, rfl⟩
    · have hr := ih id before old hold
      obtain ⟨w, hw⟩ : ∃ w, s.workspaces[id]? = some w := ⟨_, List.getElem?_eq_getElem hr.gone.known⟩
      obtain ⟨w', record', hw', he', hp⟩ := hc.passes hw
      rw [List.append_cancel_left (hevents.trans he')]
      exact hr.passes (hc.later.gone id hr.gone) hw hw' hp
    · have hm : .removed id ∈ first ++ .removed id :: since := List.mem_append_right _ List.mem_cons_self
      have hg := hc.gone_of_removed hs hevents.symm hm
      obtain ⟨w, hw⟩ := hc.known_of_mem hevents.symm hm rfl
      obtain ⟨w', record', hw', he', hp⟩ := hc.passes hw
      exact .of_passes hg hw' hp (List.append_cancel_left (hevents.trans he')).symm
  · intro s f _ _ ih id before since h
    have hr := ih id before since h
    exact ⟨⟨hr.gone.known, hr.gone.unregistered⟩, hr.starts, hr.misses, hr.rests⟩

/-- A removed workspace whose mirror is gone. -/
structure Emptied (s : ServerState) (id : WorkspaceId) : Prop where
  gone : s.Gone id
  rests : ∃ w, s.workspaces[id]? = some w ∧ w.state = .removed ∧ w.mirror = none

/-- Nothing disturbs a removed workspace whose mirror is gone. -/
theorem Emptied.change (h : s.Emptied id) (hc : Change s s') :
    s'.Emptied id ∧ ∃ record, s'.events = s.events ++ record ∧ Workspace.Undisturbed id record := by
  obtain ⟨w, hw, hstate, hm⟩ := h.rests
  obtain ⟨w', record, hw', he, hp⟩ := hc.passes hw
  have hg := hc.later.gone id h.gone
  cases hp with
  | rests hr =>
      exact ⟨⟨hg, w, hw', hstate, hm⟩, record, he, fun _ _ h => hr _ h rfl, fun h => hr _ h rfl⟩
  | turns hpub ht =>
      have hu := ht.undisturbed hstate hm
      refine ⟨⟨hg, w', hw', (ht.rests hstate hu.1).1, hu.2⟩, _, he, fun r m h => ?_, fun h => ?_⟩
      · exact hu.1.uncalled r m (mem_record_of_mem hpub rfl h)
      · exact hu.1.unmissed (mem_record_of_mem hpub rfl h)
  | removes _ hr | dismisses hr => exact absurd hr (h.gone.unregistered _)

theorem Emptied.steps {allowed : Foreign → Prop} (h : s.Emptied id) (hs : Steps allowed s s') :
    s'.Emptied id ∧ ∃ later, s'.events = s.events ++ later ∧ Workspace.Undisturbed id later := by
  induction hs with
  | refl => exact ⟨h, [], (List.append_nil _).symm, fun _ _ => List.not_mem_nil, List.not_mem_nil⟩
  | tail _ hstep ih =>
      obtain ⟨hem, later, he, hu⟩ := ih
      cases hstep with
      | own hc =>
          obtain ⟨hem', record, he', hu'⟩ := hem.change hc
          exact ⟨hem', later ++ record, by rw [he', he, List.append_assoc], undisturbed_append.mpr ⟨hu, hu'⟩⟩
      | foreign => exact ⟨⟨⟨hem.gone.known, hem.gone.unregistered⟩, hem.rests⟩, later, he, hu⟩

/-- A workspace is at rest after its removal exactly if nothing disturbed it. -/
theorem Removed.atRest_iff (h : s.Removed id since) (ha : s.Accounted) :
    s.AtRest id since ↔ Workspace.Undisturbed id since := by
  constructor
  · intro hr
    obtain ⟨w, hw, hstate⟩ := hr.removed
    exact ⟨fun r m hm => hr.unstarted r (h.starts r m hm), fun hm => h.misses hm w hw hstate⟩
  · intro hu
    obtain ⟨⟨w, hw, hstate, hlist⟩, hs, hd⟩ := h.rests hu
    refine ⟨⟨w, hw, hstate⟩, hs, hd, fun uri ds ht => ?_⟩
    by_cases hds : ds = []
    · exact hds
    · obtain ⟨w', hw', hu'⟩ := ha.listed uri id ds ht hds
      rw [hw] at hw'
      cases hw'
      rw [hlist] at hu'
      cases hu'

end ServerState

/-! ## Runs -/

namespace Server

/-- However a run goes, a workspace that was removed is at rest exactly if nothing has disturbed it since.
Once its mirror is gone as well, it stays at rest however the run goes on. -/
theorem removed_workspace_rests_iff_undisturbed {s : ServerState} (hs : IsFresh s)
    {moves : List (Session.Move External)} {id : WorkspaceId} {before since : List Event}
    (he : (run s moves).state.events = before ++ .removed id :: since) :
    ((run s moves).state.AtRest id since ↔ Workspace.Undisturbed id since) ∧
      (Workspace.Undisturbed id since →
        (∀ w, (run s moves).state.workspaces[id]? = some w → w.mirror = none) →
        ∀ more, ∃ later, (run s (moves ++ more)).state.events = before ++ .removed id :: (since ++ later) ∧
          (run s (moves ++ more)).state.AtRest id (since ++ later)) := by
  have hsteps : ∀ moves, Steps (fun _ => True) s (run s moves).state := fun moves =>
    steps_run hs fun _ _ => allows_all
  have hremoved := (hsteps moves).removed hs.sound hs.events id before since he
  refine ⟨hremoved.atRest_iff ((hsteps moves).accounted hs.accounted), fun hu hm more => ?_⟩
  obtain ⟨⟨w, hw, hstate, _⟩, _⟩ := hremoved.rests hu
  have hemptied : (run s moves).state.Emptied id := ⟨hremoved.gone, w, hw, hstate, hm w hw⟩
  obtain ⟨_, later, he', hu'⟩ := hemptied.steps (steps_run_append hs fun _ _ => allows_all)
  have hevents : (run s (moves ++ more)).state.events = before ++ .removed id :: (since ++ later) := by
    rw [he', he, List.append_assoc, List.cons_append]
  refine ⟨later, hevents, ?_⟩
  have hremoved' := (hsteps (moves ++ more)).removed hs.sound hs.events id before (since ++ later) hevents
  exact (hremoved'.atRest_iff ((hsteps (moves ++ more)).accounted hs.accounted)).mpr
    (undisturbed_append.mpr ⟨hu, hu'⟩)

/-- Whether an event is the removal of a workspace. -/
def removes (id : WorkspaceId) : Event → Bool
  | .removed id' => id' = id
  | _ => false

theorem exists_removed_of_any {events : List Event} {id : WorkspaceId} (h : events.any (removes id)) :
    ∃ before since, events = before ++ .removed id :: since := by
  obtain ⟨e, hm, he⟩ := List.any_eq_true.mp h
  cases e with
  | removed id' =>
      rw [← of_decide_eq_true he]
      exact List.append_of_mem hm
  | _ => cases he

theorem exists_removed_of_last {events : List Event} {id : WorkspaceId}
    (h : events.getLast?.any (removes id)) : ∃ before, events = before ++ [.removed id] := by
  obtain ⟨e, hlast, he⟩ := (Option.any_eq_true _ _).mp h
  obtain ⟨before, rfl⟩ := List.getLast?_eq_some_iff.mp hlast
  cases e with
  | removed id' =>
      rw [← of_decide_eq_true he]
      exact ⟨before, rfl⟩
  | _ => cases he

/-- A run in which a workspace comes and goes. -/
def comingAndGoing : List (Session.Move External) :=
  [.outside (.asks (.add ⟨"file:///p", ""⟩)), .turn, .outside (.asks (.remove "file:///p")), .turn]

/-- The workspace that came and went stays at rest, whatever comes after. -/
theorem workspace_rests_after_coming_and_going :
    ∃ before since, (run (sample []) comingAndGoing).state.events = before ++ .removed 0 :: since ∧
      ((run (sample []) comingAndGoing).state.AtRest 0 since ↔ Workspace.Undisturbed 0 since) ∧
      ∀ more, ∃ later,
        (run (sample []) (comingAndGoing ++ more)).state.events = before ++ .removed 0 :: (since ++ later) ∧
          (run (sample []) (comingAndGoing ++ more)).state.AtRest 0 (since ++ later) := by
  have hlast : (run (sample []) comingAndGoing).state.events.getLast?.any (removes 0) := by decide +kernel
  have hm : (run (sample []) comingAndGoing).state.workspaces.all (·.mirror = none) := by decide +kernel
  -- The removal comes last on record.
  obtain ⟨before, he⟩ := exists_removed_of_last hlast
  obtain ⟨hiff, hstays⟩ := removed_workspace_rests_iff_undisturbed (isFresh_sample []) he
  have hu : Workspace.Undisturbed 0 [] := ⟨fun _ _ => List.not_mem_nil, List.not_mem_nil⟩
  exact ⟨before, [], he, hiff, hstays hu fun w hw =>
    of_decide_eq_true (List.all_eq_true.mp hm w (List.mem_of_getElem? hw))⟩

/-- A run in which a workspace is removed while its compiler runs and another compile waits for its turn.
The compiler ends before the mirror is deleted. -/
def removalAmidCompiles : List (Session.Move External) :=
  [.outside (.asks (.add ⟨"file:///p", ""⟩)), .turn,
    .outside (.asks (.edit (sampleDocument 1 "One."))), .turn,
    .outside (.asks (.edit (sampleDocument 2 "Two."))), .turn,
    .closes "delete", .outside (.asks (.remove "file:///p")), .turn,
    .passes 1 .go] ++ List.replicate 8 .turn

/-- Two compiles: one is held, and the other finds something to report. -/
def heldAndReporting : List (Option Behaviour) :=
  [some { held := true }, some { output := "ERROR: 'a.ink' line 1: late".toUTF8, status := some 1 }]

/-- The compile that waited is started after the removal. The workspace is ready in the end, and the client
is left with its diagnostics. -/
theorem waiting_compile_disturbs_removed_workspace :
    ∃ before since, (run (sample heldAndReporting) removalAmidCompiles).state.events =
        before ++ .removed 0 :: since ∧
      ¬ (run (sample heldAndReporting) removalAmidCompiles).state.AtRest 0 since ∧
      (run (sample heldAndReporting) removalAmidCompiles).state.workspaces.map (·.state) = [.ready] ∧
      ∃ diagnostics, diagnostics ≠ [] ∧
        (run (sample heldAndReporting) removalAmidCompiles).state.told "file:///p/a.ink" =
          some (some 0, diagnostics) := by
  have hrun : (run (sample heldAndReporting) removalAmidCompiles).state.events.any (removes 0) ∧
      (run (sample heldAndReporting) removalAmidCompiles).state.workspaces.map (·.state) = [.ready] ∧
      ((run (sample heldAndReporting) removalAmidCompiles).state.told "file:///p/a.ink").map
        (fun t => (t.1, t.2.length)) = some (some 0, 1) := by decide +kernel
  -- From here on the run is not looked at.
  generalize (run (sample heldAndReporting) removalAmidCompiles).state = s at *
  obtain ⟨hany, hstate, htold⟩ := hrun
  obtain ⟨before, since, hevents⟩ := exists_removed_of_any hany
  obtain ⟨⟨teller, diagnostics⟩, ht, htold⟩ := Option.map_eq_some_iff.mp htold
  obtain ⟨rfl, hlength⟩ := Prod.mk.inj htold
  refine ⟨before, since, hevents, fun hr => ?_, hstate, diagnostics, fun hd => ?_, ht⟩
  · obtain ⟨w, hw, hremoved⟩ := hr.removed
    have hin := List.mem_map_of_mem (f := (·.state)) (List.mem_of_getElem? hw)
    rw [hstate, hremoved] at hin
    cases List.mem_singleton.mp hin
  · rw [hd] at hlength
    cases hlength

end Server

end InkServer
