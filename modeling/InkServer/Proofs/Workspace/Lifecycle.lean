import InkServer.Proofs.Workspace.Removed
import Mathlib.Data.List.Chain

/-!
# The lifecycle of registered workspaces

A workspace that is registered has a mirror whenever it can be compiled, and a request in flight whenever it is
being compiled. Its states follow each other as they are laid out for it, with one exception. Whether a workspace
is ready is asked when a compile is asked for, but the compile may then wait for its turn, and its turn may come
while the workspace waits for a new mirror because the directory of the one it has is missing.
-/

namespace InkServer

open ServerState

/-! ## What a registered workspace is like -/

namespace Workspace

/-- What a workspace is like as long as it is registered. -/
structure IsConsistent (w : Workspace) : Prop where
  present : w.state ≠ .removed
  mirrored : w.state = .ready ∨ w.state = .compileInFlight → w.mirror.isSome
  engaged : w.state = .compileInFlight → w.scheduler.inFlight.isSome
  untouched : w.state = .uninitialized → w.mirror = none ∧ w.initializations = 0

/-- Nothing has been done to a workspace that has just been registered. -/
theorem isConsistent_ofFolder {folder : Folder} {w : Workspace} (h : ofFolder folder = .ok w) : w.IsConsistent := by
  obtain ⟨root, _, rfl⟩ := eq_of_ofFolder h
  exact ⟨nofun, nofun, nofun, fun _ => ⟨rfl, rfl⟩⟩

/-- A workspace without a mirror has not been initialized yet, or waits for one. -/
theorem IsConsistent.state_of_mirror_eq_none {w : Workspace} (h : w.IsConsistent) (hm : w.mirror = none) :
    w.state = .uninitialized ∨ w.state = .mirrorPending := by
  have hnot : ¬(w.state = .ready ∨ w.state = .compileInFlight) := fun hs => by
    have hsome := h.mirrored hs
    rw [hm] at hsome
    cases hsome
  cases hs : w.state with
  | uninitialized => exact .inl rfl
  | mirrorPending => exact .inr rfl
  | ready => exact absurd (.inl hs) hnot
  | compileInFlight => exact absurd (.inr hs) hnot
  | removed => exact absurd hs h.present

namespace Turn

variable {s : ServerState} {id : WorkspaceId} {w w' : Workspace}
  {lists : List (String × List Diagnostic)} {record : List Event}

/-- A mirror is only ever taken away from a workspace that is gone. -/
theorem keeps_mirror (h : w.Turn s id w' lists record) (hg : ¬s.Gone id) (hm : w.mirror.isSome) :
    w'.mirror.isSome := by
  cases h with
  | installs => rfl
  | drops h => exact absurd h hg
  | _ => exact hm

/-- A turn of a registered workspace leaves it consistent. -/
theorem isConsistent (h : w.Turn s id w' lists record) (hg : ¬s.Gone id) (hw : w.IsConsistent) :
    w'.IsConsistent := by
  cases h with
  | writes | queues | admits | calls | delivers => exact ⟨hw.present, hw.mirrored, hw.engaged, hw.untouched⟩
  | engages => exact ⟨hw.present, hw.mirrored, fun _ => rfl, hw.untouched⟩
  | accepts =>
      refine ⟨hw.present, hw.mirrored, fun hstate => ?_, hw.untouched⟩
      rw [Scheduler.inFlight_accept]
      exact hw.engaged hstate
  | frees hidle =>
      refine ⟨hw.present, hw.mirrored, fun hstate => ?_, hw.untouched⟩
      have hm := hw.mirrored (.inr hstate)
      rw [hidle hstate] at hm
      cases hm
  | starts _ hm hf =>
      exact ⟨nofun, fun _ => Option.isSome_iff_exists.mpr ⟨_, hm⟩, fun _ => Option.isSome_iff_exists.mpr ⟨_, hf⟩, nofun⟩
  | settles =>
      by_cases hstate : w.state = .compileInFlight
      · simp only [hstate, if_true]
        exact ⟨nofun, fun _ => hw.mirrored (.inr hstate), nofun, nofun⟩
      · simp only [hstate, if_false]
        exact ⟨hw.present, hw.mirrored, fun h => absurd h hstate, hw.untouched⟩
  | begins =>
      by_cases hm : w.mirror.isNone
      · rw [if_pos hm]
        exact ⟨nofun, nofun, nofun, nofun⟩
      · rw [if_neg hm]
        refine ⟨hw.present, hw.mirrored, hw.engaged, fun hs => absurd ?_ hm⟩
        exact Option.isNone_iff_eq_none.mpr (hw.untouched hs).1
  | installs _ hi =>
      by_cases hstate : w.state = .compileInFlight
      · simp only [hstate, if_true]
        exact ⟨nofun, fun _ => rfl, fun _ => hw.engaged hstate, nofun⟩
      · simp only [hstate, if_false]
        exact ⟨nofun, fun _ => rfl, nofun, nofun⟩
  | yields | misses => exact ⟨nofun, nofun, nofun, nofun⟩
  | drops h => exact absurd h hg

end Turn

end Workspace

/-! ## At all times -/

namespace ServerState

variable {s s' : ServerState} {id : WorkspaceId}

/-- A workspace is registered under some URI. -/
def IsRegistered (s : ServerState) (id : WorkspaceId) : Prop := ∃ uri, s.registered.get? uri = some id

theorem IsRegistered.not_gone (h : s.IsRegistered id) : ¬s.Gone id := fun hg => by
  obtain ⟨uri, hr⟩ := h
  exact hg.unregistered uri hr

/-- A workspace that is registered was so ever since it was there. -/
theorem IsRegistered.earlier (h : s'.IsRegistered id) (hl : s.Later s') (hk : id < s.workspaces.length) :
    s.IsRegistered id := by
  by_contra hn
  exact h.not_gone (hl.gone id ⟨hk, fun uri hr => hn ⟨uri, hr⟩⟩)

/-- Only a removal makes a workspace a removed one, and it is gone then. -/
theorem Change.gone_of_state (h : Change s s') (hs : s.Sound) {w w' : Workspace} (hw : s.workspaces[id]? = some w)
    (hw' : s'.workspaces[id]? = some w') (hn : w.state ≠ .removed) (hr : w'.state = .removed) : s'.Gone id := by
  have hlt := (List.getElem?_eq_some_iff.mp hw).1
  have hsame : s'.workspaces[id]? = s.workspaces[id]? → s'.Gone id := fun he => by
    rw [he, hw] at hw'
    cases hw'
    exact absurd hr hn
  cases h with
  | aside h => exact hsame (by rw [h.workspaces])
  | notes | works | opens | receives | closes => exact hsame rfl
  | registers => exact hsame (List.getElem?_append_left hlt)
  | turns hw₀ ht =>
      rename_i id₀ w₀ w₁ lists record
      rw [moved_workspaces] at hw' hsame
      by_cases hid : id₀ = id
      · subst hid
        cases hw₀.symm.trans hw
        rw [List.getElem?_set_self hlt] at hw'
        cases hw'
        exact absurd hr (ht.state_ne_removed hn)
      · exact hsame (List.getElem?_set_ne hid)
  | removes hr₀ hw₀ | dismisses hr₀ hw₀ =>
      rename_i uri id₀ w₀
      by_cases hid : id₀ = id
      · exact hid ▸ hs.gone_erase hr₀ (by simp) rfl
      · refine hsame ?_
        simp only [moved_workspaces]
        exact List.getElem?_set_ne hid

/-- A step leaves a workspace that stays registered alone, or is a turn that the workspace takes. -/
theorem Change.stays (h : Change s s') (hs : s.Sound) (hr : s'.IsRegistered id) {w w' : Workspace}
    (hw : s.workspaces[id]? = some w) (hw' : s'.workspaces[id]? = some w') (hn : w.state ≠ .removed) :
    ∃ record, s'.events = s.events ++ record ∧ ((w' = w ∧ ∀ e ∈ record, e.workspace? ≠ some id) ∨
      ∃ lists published own, record = published ++ own ∧ (∀ e ∈ published, IsPublication e) ∧
        w.Turn s id w' lists own) := by
  obtain ⟨x, record, hx, he, hp⟩ := h.passes hw
  cases hw'.symm.trans hx
  refine ⟨record, he, ?_⟩
  cases hp with
  | rests hrest => exact .inl ⟨rfl, hrest⟩
  | turns hp ht => exact .inr ⟨_, _, _, rfl, hp, ht⟩
  | removes | dismisses => exact absurd (h.gone_of_state hs hw hw' hn rfl) hr.not_gone

/-- A workspace that was not there before is that of a folder. -/
theorem Change.comes (h : Change s s') (hk : ¬id < s.workspaces.length) {w : Workspace}
    (hw : s'.workspaces[id]? = some w) : ∃ folder, Workspace.ofFolder folder = .ok w := by
  have hlt := (List.getElem?_eq_some_iff.mp hw).1
  cases h with
  | aside h => exact absurd (h.workspaces ▸ hlt) hk
  | notes | works | opens | receives | closes => exact absurd hlt hk
  | registers hf =>
      rw [List.getElem?_append_right (Nat.le_of_not_lt hk)] at hw
      cases List.mem_singleton.mp (List.mem_of_getElem? hw)
      exact ⟨_, hf⟩
  | turns | removes | dismisses => exact absurd (by simpa using hlt) hk

/-- What holds of every registered workspace. -/
def EachRegistered (p : Workspace → Prop) (s : ServerState) : Prop :=
  ∀ id, s.IsRegistered id → ∀ w, s.workspaces[id]? = some w → p w

variable {p : Workspace → Prop} {allowed : Foreign → Prop}

/-- What holds of new workspaces and is kept by every turn goes on to hold of every registered one. -/
theorem Change.eachRegistered (h : Change s s') (hs : s.Sound) (hn : ∀ w, p w → w.state ≠ .removed)
    (new : ∀ folder w, Workspace.ofFolder folder = .ok w → p w)
    (turn : ∀ {id w w' lists record}, w.Turn s id w' lists record → ¬s.Gone id → p w → p w')
    (hp : s.EachRegistered p) : s'.EachRegistered p := by
  intro id hr w' hw'
  by_cases hk : id < s.workspaces.length
  · have hr₀ := hr.earlier h.later hk
    have hw := List.getElem?_eq_getElem hk
    have hold := hp id hr₀ _ hw
    obtain ⟨_, _, ⟨rfl, _⟩ | ⟨_, _, _, _, _, ht⟩⟩ := h.stays hs hr hw hw' (hn _ hold)
    · exact hold
    · exact turn ht hr₀.not_gone hold
  · obtain ⟨folder, hf⟩ := h.comes hk hw'
    exact new folder w' hf

theorem Steps.eachRegistered (h : Steps allowed s s') (hs : s.Sound) (hn : ∀ w, p w → w.state ≠ .removed)
    (new : ∀ folder w, Workspace.ofFolder folder = .ok w → p w)
    (turn : ∀ {s id w w' lists record}, w.Turn s id w' lists record → ¬s.Gone id → p w → p w')
    (hp : s.EachRegistered p) : s'.EachRegistered p :=
  (h.keeps hs hp (fun _ _ hs hc hp => hc.eachRegistered hs hn new turn hp) fun _ _ _ _ hp => hp).2

/-- All registered workspaces are consistent. -/
abbrev Consistent (s : ServerState) : Prop := s.EachRegistered Workspace.IsConsistent

theorem Steps.consistent (h : Steps allowed s s') (hs : s.Sound) (hc : s.Consistent) : s'.Consistent :=
  h.eachRegistered hs (fun _ h => h.present) (fun _ _ => Workspace.isConsistent_ofFolder)
    (fun ht hg h => ht.isConsistent hg h) hc

/-- As long as a workspace is registered it keeps its mirror. -/
theorem Steps.keeps_mirror (h : Steps allowed s s') (hs : s.Sound) (hc : s.Consistent) (hr : s'.IsRegistered id)
    {w : Workspace} (hw : s.workspaces[id]? = some w) (hm : w.mirror.isSome) :
    ∀ w', s'.workspaces[id]? = some w' → w'.mirror.isSome := by
  have hk : id < s.workspaces.length := (List.getElem?_eq_some_iff.mp hw).1
  refine (h.keeps hs (p := fun t => t.Consistent ∧ id < t.workspaces.length ∧ (t.IsRegistered id →
    ∀ w', t.workspaces[id]? = some w' → w'.mirror.isSome)) ⟨hc, hk, fun _ w' hw' => ?_⟩ ?_ ?_).2.2.2 hr
  · cases hw.symm.trans hw'
    exact hm
  · rintro t t' ht hchange ⟨hc, hk, ih⟩
    have hstep : Steps allowed t t' := .single (.own hchange)
    refine ⟨hstep.consistent ht hc, Nat.lt_of_lt_of_le hk hchange.later.length, fun hr w' hw' => ?_⟩
    have hr₀ := hr.earlier hchange.later hk
    have hw := List.getElem?_eq_getElem hk
    obtain ⟨_, _, ⟨rfl, _⟩ | ⟨_, _, _, _, _, hturn⟩⟩ := hchange.stays ht hr hw hw' (hc id hr₀ _ hw).present
    · exact ih hr₀ _ hw
    · exact hturn.keeps_mirror hr₀.not_gone (ih hr₀ _ hw)
  · exact fun _ _ _ _ h => h

end ServerState

namespace Server

variable {s : ServerState}

theorem IsFresh.consistent (h : IsFresh s) : s.Consistent := by
  rintro id ⟨uri, hr⟩
  rw [h.registered] at hr
  cases hr

/-- However a run goes, a workspace that is registered is consistent, and if it had a mirror it has one. -/
theorem registered_workspace_is_consistent (hs : IsFresh s) {moves more : List (Session.Move External)}
    {uri : String} {id : WorkspaceId} (hr : (run s (moves ++ more)).state.registered.get? uri = some id) :
    ∃ w, (run s (moves ++ more)).state.workspaces[id]? = some w ∧ w.IsConsistent ∧
      ∀ w₀, (run s moves).state.workspaces[id]? = some w₀ → w₀.mirror.isSome → w.mirror.isSome := by
  have hsteps : ∀ moves, Steps (fun _ => True) s (run s moves).state := fun moves =>
    steps_run hs fun _ _ => allows_all
  have hsound : ∀ moves, (run s moves).state.Sound := fun moves => (hsteps moves).sound hs.sound
  obtain ⟨w, hw, _⟩ := (hsound (moves ++ more)).keyed uri id hr
  refine ⟨w, hw, (hsteps (moves ++ more)).consistent hs.sound hs.consistent id ⟨uri, hr⟩ w hw, ?_⟩
  intro w₀ hw₀ hm
  have hmore : Steps (fun _ => True) (run s moves).state (run s (moves ++ more)).state :=
    steps_run_append hs fun _ _ => allows_all
  exact hmore.keeps_mirror (hsound moves) ((hsteps moves).consistent hs.sound hs.consistent) ⟨uri, hr⟩ hw₀ hm w hw

/-- A folder is opened. -/
def openingFolder : List (Session.Move External) := [.outside (.asks (.add ⟨"file:///p", ""⟩)), .turn]

/-- The story is edited for the first time. -/
def firstEdit : List (Session.Move External) := [.outside (.asks (.edit (sampleDocument 1 "One."))), .turn]

/-- While the compiler is held, the workspace has the mirror that it got before and a request in flight. -/
theorem held_compile_has_mirror_and_request :
    ∃ w, (run (sample [some { held := true }]) (openingFolder ++ firstEdit)).state.workspaces[0]? = some w ∧
      w.state = .compileInFlight ∧ w.mirror.isSome ∧ w.scheduler.inFlight.isSome := by
  have hrun : (run (sample [some { held := true }]) (openingFolder ++ firstEdit)).state.registered.get? "file:///p" =
        some 0 ∧
      ((run (sample [some { held := true }]) (openingFolder ++ firstEdit)).state.workspaces[0]?).all
        (·.state = .compileInFlight) := by decide +kernel
  have hbefore : ((run (sample [some { held := true }]) openingFolder).state.workspaces[0]?).any
      (·.mirror.isSome) := by decide +kernel
  obtain ⟨w₀, hw₀, hm⟩ := (Option.any_eq_true _ _).mp hbefore
  obtain ⟨w, hw, hconsistent, hkeeps⟩ := registered_workspace_is_consistent (isFresh_sample _) hrun.1
  have hstate : w.state = .compileInFlight := by simpa [hw] using hrun.2
  exact ⟨w, hw, hstate, hkeeps w₀ hw₀ hm, hconsistent.engaged hstate⟩

end Server

/-! ## The ways of the lifecycle -/

/-- The ways from one state of a workspace to another. Those back to `mirrorPending` are only open to a workspace
that has lost the directory of its mirror. -/
inductive Lifecycle.Way (lost : Prop) : Lifecycle → Lifecycle → Prop where
  | begins : Way lost .uninitialized .mirrorPending
  | completes : Way lost .mirrorPending .ready
  | starts : Way lost .ready .compileInFlight
  | ends : Way lost .compileInFlight .ready
  | misses (h : lost) : Way lost .ready .mirrorPending
  | breaksOff (h : lost) : Way lost .compileInFlight .mirrorPending

theorem Lifecycle.Way.mono {lost lost' : Prop} {a b : Lifecycle} (h : Way lost a b) (hl : lost → lost') :
    Way lost' a b := by
  cases h with
  | misses h => exact .misses (hl h)
  | breaksOff h => exact .breaksOff (hl h)
  | begins => exact .begins
  | completes => exact .completes
  | starts => exact .starts
  | ends => exact .ends

namespace Workspace

/-- The directory of the mirror is missing. -/
def HasLostMirror (w : Workspace) (d : Disk) : Prop := ∃ m, w.mirror = some m ∧ m.IsMissing d

/-- The workspace stays in its state, or goes where its lifecycle leads it, which is kept on record. -/
def GoesItsWay (d : Disk) (w w' : Workspace) : Prop :=
  w'.state = w.state ∧ w'.past = w.past ∨
    Lifecycle.Way (w.HasLostMirror d) w.state w'.state ∧ w'.past = w.past ++ [w.state]

/-- What becomes of a workspace that enters a state. -/
theorem goesItsWay_of_enter {d : Disk} {w w' : Workspace} {state : Lifecycle} (hs : w'.state = state)
    (hp : w'.past = (w.enter state).past) (h : state = w.state ∨ Lifecycle.Way (w.HasLostMirror d) w.state state) :
    GoesItsWay d w w' := by
  by_cases he : state = w.state
  · exact .inl ⟨hs.trans he, hp.trans (if_pos he)⟩
  · exact .inr ⟨hs ▸ h.resolve_left he, hp.trans (if_neg he)⟩

end Workspace

namespace ServerState

/-- A step by which the registered workspaces go only where their lifecycle leads them, and which starts no compiler
for one that waits for a mirror. -/
def FollowsLifecycle (s s' : ServerState) : Prop :=
  ∀ id, s'.IsRegistered id → ∀ w w', s.workspaces[id]? = some w → s'.workspaces[id]? = some w' →
    w.GoesItsWay s.disk w' ∧
      (w.state = .mirrorPending → ∀ record, s'.events = s.events ++ record → ∀ request, .started id request ∉ record)

/-- A step that starts the compiler for a registered workspace that waits for a mirror, in the one that it has. -/
def StartsPending (s s' : ServerState) : Prop :=
  ∃ id w request m record, s'.IsRegistered id ∧ s.workspaces[id]? = some w ∧ w.state = .mirrorPending ∧
    w.mirror = some m ∧ s'.workspaces[id]? = some (w.enter .compileInFlight) ∧
    s'.events = s.events ++ record ∧ .called id request (some m) ∈ record ∧ .started id request ∈ record

end ServerState

namespace Workspace.Turn

variable {s : ServerState} {id : WorkspaceId} {w w' : Workspace}
  {lists : List (String × List Diagnostic)} {record : List Event}

/-- A turn takes a registered workspace where its lifecycle leads it, or starts the compiler too early. -/
theorem goesItsWay (h : w.Turn s id w' lists record) (hg : ¬s.Gone id) (hw : w.IsConsistent) :
    w.GoesItsWay s.disk w' ∧ (w.state = .mirrorPending → ∀ request, .started id request ∉ record) ∨
      w.state = .mirrorPending ∧ ∃ request m, w.mirror = some m ∧ w' = w.enter .compileInFlight ∧
        record = [.called id request (some m), .started id request] := by
  cases h with
  | writes | queues | engages | frees | accepts => exact .inl ⟨.inl ⟨rfl, rfl⟩, fun _ _ => List.not_mem_nil⟩
  | admits | calls | delivers => exact .inl ⟨.inl ⟨rfl, rfl⟩, fun _ _ => by simp⟩
  | @starts request m _ hm =>
      by_cases hs : w.state = .mirrorPending
      · exact .inr ⟨hs, request, m, hm, rfl, rfl⟩
      · refine .inl ⟨goesItsWay_of_enter rfl rfl ?_, fun h => absurd h hs⟩
        cases he : w.state with
        | uninitialized =>
            rw [(hw.untouched he).1] at hm
            cases hm
        | mirrorPending => exact absurd he hs
        | ready => exact .inr .starts
        | compileInFlight => exact .inl rfl
        | removed => exact absurd he hw.present
  | settles =>
      refine .inl ⟨goesItsWay_of_enter rfl rfl ?_, fun _ _ => List.not_mem_nil⟩
      split
      · rename_i hs
        exact .inr (hs ▸ .ends)
      · exact .inl rfl
  | begins =>
      refine .inl ⟨goesItsWay_of_enter rfl rfl ?_, fun _ _ => by simp⟩
      split
      · rename_i hm
        rcases hw.state_of_mirror_eq_none (Option.isNone_iff_eq_none.mp hm) with hs | hs
        · exact .inr (hs ▸ .begins)
        · exact .inl hs.symm
      · exact .inl rfl
  | installs _ hi =>
      refine .inl ⟨goesItsWay_of_enter rfl rfl ?_, fun _ _ => by simp⟩
      cases hs : w.state with
      | uninitialized => exact absurd (hw.untouched hs).2 (Nat.pos_iff_ne_zero.mp hi)
      | mirrorPending => exact .inr .completes
      | ready | compileInFlight => exact .inl rfl
      | removed => exact absurd hs hw.present
  | yields _ hlost =>
      refine .inl ⟨goesItsWay_of_enter rfl rfl ?_, fun _ _ => List.not_mem_nil⟩
      have hmissing : w.mirror.isSome → w.HasLostMirror s.disk := fun hm => by
        obtain ⟨m, hm⟩ := Option.isSome_iff_exists.mp hm
        exact ⟨m, hm, hlost m hm⟩
      cases hs : w.state with
      | uninitialized => exact .inr .begins
      | mirrorPending => exact .inl rfl
      | ready => exact .inr (.misses (hmissing (hw.mirrored (.inl hs))))
      | compileInFlight => exact .inr (.breaksOff (hmissing (hw.mirrored (.inr hs))))
      | removed => exact absurd hs hw.present
  | misses hm hd hu hp =>
      refine .inl ⟨goesItsWay_of_enter rfl rfl (.inr ?_), fun hs => absurd hs hp⟩
      have hlost : w.HasLostMirror s.disk := ⟨_, hm, hd⟩
      cases hs : w.state with
      | uninitialized => exact absurd hs hu
      | mirrorPending => exact absurd hs hp
      | ready => exact .misses hlost
      | compileInFlight => exact .breaksOff hlost
      | removed => exact absurd hs hw.present
  | drops h => exact absurd h hg

end Workspace.Turn

namespace ServerState

variable {s s' : ServerState} {allowed : Foreign → Prop}

/-- A step follows the lifecycle unless it starts the compiler for a workspace that waits for a mirror. -/
theorem Step.followsLifecycle_iff (h : Step allowed s s') (hs : s.Sound) (hc : s.Consistent) :
    FollowsLifecycle s s' ↔ ¬StartsPending s s' := by
  constructor
  · rintro hf ⟨id, w, request, m, record, hr, hw, hstate, _, hw', he, -, hstarted⟩
    exact (hf id hr w _ hw hw').2 hstate record he request hstarted
  · intro hn id hr w w' hw hw'
    cases h with
    | foreign =>
        cases hw.symm.trans hw'
        refine ⟨.inl ⟨rfl, rfl⟩, fun _ record he request hm => ?_⟩
        rw [List.self_eq_append_right.mp he] at hm
        cases hm
    | own h =>
        have hr₀ := hr.earlier h.later (List.getElem?_eq_some_iff.mp hw).1
        have hconsistent := hc id hr₀ w hw
        obtain ⟨record, he, hstays⟩ := h.stays hs hr hw hw' hconsistent.present
        have hrecord : ∀ {record'}, s'.events = s.events ++ record' → record' = record := fun he' =>
          List.append_cancel_left (he'.symm.trans he)
        rcases hstays with ⟨rfl, hrest⟩ | ⟨lists, published, own, hown, hp, ht⟩
        · exact ⟨.inl ⟨rfl, rfl⟩, fun _ record' he' request hm => hrest _ (hrecord he' ▸ hm) rfl⟩
        · rcases ht.goesItsWay hr₀.not_gone hconsistent with ⟨hway, hstarts⟩ | ⟨hstate, request, m, hm, hw₁, hown'⟩
          · refine ⟨hway, fun hstate record' he' request hm => hstarts hstate request ?_⟩
            rw [hrecord he', hown] at hm
            exact mem_record_of_mem hp rfl hm
          · refine absurd ⟨id, w, request, m, record, hr, hw, hstate, hm, hw₁ ▸ hw', he, ?_, ?_⟩ hn
            · rw [hown, hown']
              simp
            · rw [hown, hown']
              simp

theorem Steps.followLifecycle (h : Steps allowed s s') (hs : s.Sound) (hc : s.Consistent) :
    Relation.ReflTransGen (fun t t' => t.Step allowed t' ∧ (t.FollowsLifecycle t' ↔ ¬t.StartsPending t')) s s' := by
  induction h with
  | refl => exact .refl
  | tail h hstep ih => exact ih.tail ⟨hstep, hstep.followsLifecycle_iff (Steps.sound h hs) (Steps.consistent h hs hc)⟩

end ServerState

/-! ## Histories -/

/-- A way of the lifecycle, or that of a compiler that is started too early. -/
def Lifecycle.Passage (a b : Lifecycle) : Prop := Way True a b ∨ a = .mirrorPending ∧ b = .compileInFlight

namespace Workspace

/-- All states that a workspace was in, the present one last. -/
def history (w : Workspace) : List Lifecycle := w.past ++ [w.state]

/-- The states of a workspace from the first on: one passage after the other. -/
structure HasCourse (w : Workspace) : Prop where
  begins : w.history.head? = some .uninitialized
  follows : w.history.IsChain Lifecycle.Passage

theorem HasCourse.stays {w w' : Workspace} (h : w.HasCourse) (hs : w'.state = w.state) (hp : w'.past = w.past) :
    w'.HasCourse := by
  have he : w'.history = w.history := by rw [history, hs, hp, history]
  exact ⟨he ▸ h.begins, he ▸ h.follows⟩

theorem HasCourse.passes {w w' : Workspace} (h : w.HasCourse) (hs : Lifecycle.Passage w.state w'.state)
    (hp : w'.past = w.past ++ [w.state]) : w'.HasCourse := by
  have he : w'.history = w.history ++ [w'.state] := by rw [history, hp, history]
  constructor
  · rw [he, List.head?_append, h.begins]
    rfl
  · rw [he]
    refine h.follows.append (.singleton _) fun a ha b hb => ?_
    rw [history, List.getLast?_concat, Option.mem_some] at ha
    cases ha
    cases hb
    exact hs

/-- Every turn of a registered workspace is a passage, or leaves it in its state. -/
theorem Turn.hasCourse {s : ServerState} {id : WorkspaceId} {w w' : Workspace}
    {lists : List (String × List Diagnostic)} {record : List Event} (h : w.Turn s id w' lists record)
    (hg : ¬s.Gone id) (hw : w.IsConsistent) (hc : w.HasCourse) : w'.HasCourse := by
  rcases h.goesItsWay hg hw with ⟨⟨hs, hp⟩ | ⟨hway, hp⟩, _⟩ | ⟨hs, _, _, _, rfl, _⟩
  · exact hc.stays hs hp
  · exact hc.passes (.inl (hway.mono fun _ => trivial)) hp
  · refine hc.passes (.inr ⟨hs, rfl⟩) (if_neg ?_)
    rw [hs]
    exact nofun

end Workspace

namespace Server

variable {s : ServerState}

/-- However a run goes, it goes by steps that follow the lifecycle of the registered workspaces, except for those that
start the compiler for a workspace that waits for a mirror. The states of a registered workspace follow each other
accordingly from the first on. -/
theorem lifecycle_is_followed_unless_started_early (hs : IsFresh s) (moves : List (Session.Move External)) :
    Relation.ReflTransGen (fun t t' => t.Step (fun _ => True) t' ∧ (t.FollowsLifecycle t' ↔ ¬t.StartsPending t'))
        s (run s moves).state ∧
      (run s moves).state.EachRegistered Workspace.HasCourse := by
  have hsteps : Steps (fun _ => True) s (run s moves).state := steps_run hs fun _ _ => allows_all
  refine ⟨hsteps.followLifecycle hs.sound hs.consistent, ?_⟩
  have hboth := hsteps.eachRegistered hs.sound (p := fun w => w.IsConsistent ∧ w.HasCourse)
    (fun _ h => h.1.present) (fun folder w hf => ?_)
    (fun ht hg h => ⟨ht.isConsistent hg h.1, ht.hasCourse hg h.1 h.2⟩) ?_
  · exact fun id hr w hw => (hboth id hr w hw).2
  · obtain ⟨root, _, rfl⟩ := Workspace.eq_of_ofFolder hf
    exact ⟨Workspace.isConsistent_ofFolder hf, rfl, .singleton _⟩
  · rintro id ⟨uri, hr⟩
    rw [hs.registered] at hr
    cases hr

/-- An edit is compiled and nothing comes between. -/
def compiling : List (Session.Move External) := openingFolder ++ firstEdit ++ List.replicate 3 .turn

/-- A compile that nothing comes between takes the workspace along its lifecycle. -/
theorem compile_goes_through_lifecycle :
    ∃ w, (run (sample [some {}]) compiling).state.workspaces[0]? = some w ∧
      w.history = [.uninitialized, .mirrorPending, .ready, .compileInFlight, .ready] ∧
      w.history.IsChain Lifecycle.Passage := by
  have hrun : (run (sample [some {}]) compiling).state.registered.get? "file:///p" = some 0 ∧
      ((run (sample [some {}]) compiling).state.workspaces[0]?).map Workspace.history =
        some [.uninitialized, .mirrorPending, .ready, .compileInFlight, .ready] := by decide +kernel
  obtain ⟨w, hw, hhistory⟩ := Option.map_eq_some_iff.mp hrun.2
  have hcourse := (lifecycle_is_followed_unless_started_early (isFresh_sample [some {}]) compiling).2
  exact ⟨w, hw, hhistory, (hcourse 0 ⟨_, hrun.1⟩ w hw).follows⟩

/-- A run in which the directory of a mirror vanishes while one compile runs and another one waits for its turn. A new
mirror cannot be made yet when the turn comes. -/
def vanishingAmidCompiles : List (Session.Move External) :=
  openingFolder ++ firstEdit ++ [.outside (.asks (.edit (sampleDocument 2 "Two."))), .turn,
    .outside (.foreign (.vanishes ⟨.ofText "/m/inkls-1"⟩)), .closes "create",
    .outside (.asks (.edit (sampleDocument 3 "Three."))), .turn, .passes 1 .go] ++ List.replicate 4 .turn

/-- The compile that waited is started while the workspace waits for a mirror. -/
theorem waiting_compile_starts_without_mirror :
    ∃ w, (run (sample [some { held := true }, some { held := true }]) vanishingAmidCompiles).state.registered.get?
        "file:///p" = some 0 ∧
      (run (sample [some { held := true }, some { held := true }]) vanishingAmidCompiles).state.workspaces[0]? =
        some w ∧
      w.history = [.uninitialized, .mirrorPending, .ready, .compileInFlight, .mirrorPending, .compileInFlight] ∧
      ¬w.history.IsChain (Lifecycle.Way True) := by
  have hrun : (run (sample [some { held := true }, some { held := true }]) vanishingAmidCompiles).state.registered.get?
        "file:///p" = some 0 ∧
      ((run (sample [some { held := true }, some { held := true }]) vanishingAmidCompiles).state.workspaces[0]?).map
          Workspace.history =
        some [.uninitialized, .mirrorPending, .ready, .compileInFlight, .mirrorPending, .compileInFlight] := by
    decide +kernel
  obtain ⟨w, hw, hhistory⟩ := Option.map_eq_some_iff.mp hrun.2
  refine ⟨w, hrun.1, hw, hhistory, fun hchain => ?_⟩
  rw [hhistory] at hchain
  simp only [List.isChain_cons_cons] at hchain
  obtain ⟨-, -, -, -, hway, -⟩ := hchain
  cases hway

end Server

end InkServer
