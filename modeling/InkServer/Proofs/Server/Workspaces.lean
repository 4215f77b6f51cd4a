import InkServer.Proofs.Server.Change

/-!
# What one workspace goes through

Most steps of the server leave a given workspace alone. Those that do not are the turns that it takes and
its removal, and what is kept on record of it says which they were.
-/

namespace InkServer

/-- The workspace that an event is about. -/
def Event.workspace? : Event → Option WorkspaceId
  | .admitted _ id _ | .called id _ _ | .started id _ | .missed id | .initializing id _ _ | .installed id _ _
  | .removed id | .delivered id _ _ => some id
  | _ => none

namespace Workspace

/-- What a step of the server means for one workspace: what becomes of it, and what is added to the record. -/
inductive Passes (s : ServerState) (id : WorkspaceId) (w : Workspace) : Workspace → List Event → Prop where
  /-- The step leaves the workspace alone. -/
  | rests {record : List Event} (h : ∀ e ∈ record, e.workspace? ≠ some id) : Passes s id w w record
  | turns {w' : Workspace} {lists : List (String × List Diagnostic)} {published record : List Event}
      (hp : ∀ e ∈ published, ServerState.IsPublication e) (h : w.Turn s id w' lists record) :
      Passes s id w w' (published ++ record)
  | removes {uri : String} {published : List Event} (hp : ∀ e ∈ published, ServerState.IsPublication e)
      (hr : s.registered.get? uri = some id) :
      Passes s id w
        { w.enter .removed with initializations := w.initializations + 1, published := [] }
        (published ++ [.removed id])
  | dismisses {uri : String} (hr : s.registered.get? uri = some id) :
      Passes s id w (w.enter .removed) []

variable {s : ServerState} {id : WorkspaceId} {w w' : Workspace}
  {lists : List (String × List Diagnostic)} {record : List Event}

/-- What is kept of a turn is about the workspace that takes it. -/
theorem Turn.workspace?_eq (h : w.Turn s id w' lists record) : ∀ e ∈ record, e.workspace? = some id := by
  cases h <;> simp [Event.workspace?]

theorem workspace?_of_isPublication {e : Event} (h : ServerState.IsPublication e) :
    e.workspace? = none := by
  cases e <;> first | rfl | cases h

theorem workspace?_of_isPlain {e : Event} (h : ServerState.IsPlain e) : e.workspace? = none := by
  cases e <;> first | rfl | cases h

end Workspace

namespace ServerState

open Workspace

variable {s s' : ServerState} {id : WorkspaceId} {w : Workspace}

/-- A step that nothing is kept of and that leaves the workspaces alone. -/
theorem passes_silent (hw : s.workspaces[id]? = some w) (hws : s'.workspaces[id]? = s.workspaces[id]?)
    (he : s'.events = s.events) :
    ∃ w' record, s'.workspaces[id]? = some w' ∧ s'.events = s.events ++ record ∧
      Passes s id w w' record :=
  ⟨w, [], by rw [hws, hw], by rw [he, List.append_nil], .rests fun _ h => absurd h List.not_mem_nil⟩

/-- A step that leaves the workspaces alone. -/
theorem passes_rest {record : List Event} (hw : s.workspaces[id]? = some w)
    (hws : s'.workspaces = s.workspaces) (he : s'.events = s.events ++ record)
    (h : ∀ e ∈ record, e.workspace? = none) :
    ∃ w' record, s'.workspaces[id]? = some w' ∧ s'.events = s.events ++ record ∧
      Passes s id w w' record := by
  refine ⟨w, record, by rw [hws, hw], he, .rests fun e hm => ?_⟩
  rw [h e hm]
  exact Option.some_ne_none id ∘ Eq.symm

/-- A step in which another workspace moves. -/
theorem passes_other {id' : WorkspaceId} {w' : Workspace} {published record : List Event}
    (hw : s.workspaces[id]? = some w) (hid : id' ≠ id) (hws : s'.workspaces = s.workspaces.set id' w')
    (he : s'.events = s.events ++ (published ++ record)) (hp : ∀ e ∈ published, IsPublication e)
    (hr : ∀ e ∈ record, e.workspace? = some id') :
    ∃ w' record, s'.workspaces[id]? = some w' ∧ s'.events = s.events ++ record ∧
      Passes s id w w' record := by
  refine ⟨w, published ++ record, ?_, he, .rests fun e hm => ?_⟩
  · rw [hws, List.getElem?_set_ne hid, hw]
  · rcases List.mem_append.mp hm with hm | hm
    · rw [workspace?_of_isPublication (hp e hm)]
      exact Option.some_ne_none id ∘ Eq.symm
    · rw [hr e hm]
      exact fun h => hid (Option.some.inj h)

/-- What a step means for a workspace that is there. -/
theorem Change.passes (h : Change s s') (hw : s.workspaces[id]? = some w) :
    ∃ w' record, s'.workspaces[id]? = some w' ∧ s'.events = s.events ++ record ∧
      Passes s id w w' record := by
  have hlt := (List.getElem?_eq_some_iff.mp hw).1
  cases h with
  | aside h => exact passes_silent hw (by rw [h.workspaces]) h.events
  | works | closes => exact passes_silent hw rfl rfl
  | notes h =>
      exact passes_rest hw rfl rfl fun e hm => by
        rw [List.mem_singleton.mp hm]
        exact workspace?_of_isPlain h
  | opens | receives =>
      exact passes_rest hw rfl rfl fun e hm => by
        rw [List.mem_singleton.mp hm]
        rfl
  | registers => exact passes_silent hw (List.getElem?_append_left hlt) rfl
  | turns hw' h =>
      rename_i id' w₀ w' lists record
      obtain ⟨p, published, he, hp⟩ := moved_eq s id' w' lists record
      by_cases hid : id' = id
      · subst hid
        rw [hw] at hw'
        cases hw'
        refine ⟨w', published ++ record, ?_, by rw [he], .turns hp h⟩
        rw [moved_workspaces, List.getElem?_set_self hlt]
      · exact passes_other hw hid (moved_workspaces s id' w' lists record) (by rw [he]) hp h.workspace?_eq
  | removes hr hw' =>
      rename_i uri id' w₀
      obtain ⟨p, published, he, hp⟩ := moved_eq s id'
        { w₀.enter .removed with initializations := w₀.initializations + 1, published := [] }
        (empties w₀.published) [.removed id']
      by_cases hid : id' = id
      · subst hid
        rw [hw] at hw'
        cases hw'
        refine ⟨_, published ++ [.removed id'], ?_, by rw [he], .removes hp hr⟩
        rw [he]
        exact List.getElem?_set_self hlt
      · rw [he]
        refine passes_other hw hid rfl rfl hp fun e (hm : e ∈ [.removed id']) => ?_
        rw [List.mem_singleton.mp hm]
        rfl
  | dismisses hr hw' =>
      rename_i uri id' w₀
      by_cases hid : id' = id
      · subst hid
        rw [hw] at hw'
        cases hw'
        exact ⟨_, [], List.getElem?_set_self hlt, rfl, .dismisses hr⟩
      · exact passes_silent hw (List.getElem?_set_ne hid) (List.append_nil _)

/-! ## What is on record -/

/-- What is kept of a turn, among what was published in it. -/
theorem mem_record_of_mem {e : Event} {published record : List Event} (hp : ∀ e ∈ published, IsPublication e)
    (he : IsPublication e = false) (h : e ∈ published ++ record) : e ∈ record := by
  rcases List.mem_append.mp h with h | h
  · rw [hp e h] at he
    cases he
  · exact h

/-- Where an event stands in a longer record: in what was there before, or in what came last. -/
theorem append_eq_append_cons {e : Event} {record earlier before after : List Event}
    (h : earlier ++ record = before ++ e :: after) :
    (∃ old, earlier = before ++ e :: old ∧ after = old ++ record) ∨
      ∃ first, before = earlier ++ first ∧ record = first ++ e :: after := by
  rcases List.append_eq_append_iff.mp h with ⟨first, hb, hr⟩ | ⟨old, he, hr⟩
  · exact .inr ⟨first, hb, hr⟩
  · cases old with
    | nil => exact .inr ⟨[], by rw [he, List.append_nil, List.append_nil], hr.symm⟩
    | cons e' old =>
        obtain ⟨rfl, hafter⟩ := List.cons.inj hr
        exact .inl ⟨old, he, hafter⟩

/-- An event about a workspace is on record because of a turn that the workspace took, or because it was
removed. -/
theorem Change.of_mem (h : Change s s') {record : List Event} {e : Event}
    (he : s'.events = s.events ++ record) (hm : e ∈ record) (hid : e.workspace? = some id) :
    (∃ w w' lists record', s.workspaces[id]? = some w ∧ w.Turn s id w' lists record' ∧ e ∈ record' ∧
        s' = s.moved id w' lists record') ∨
      e = .removed id ∧ ∃ uri w, s.registered.get? uri = some id ∧ s.workspaces[id]? = some w ∧
        s'.registered = s.registered.erase uri := by
  have hrecord : ∀ {record' : List Event}, s'.events = s.events ++ record' → e ∈ record' :=
    fun he' => List.append_cancel_left (he.symm.trans he') ▸ hm
  have hpublication : IsPublication e = false := by
    cases hp : IsPublication e with
    | false => rfl
    | true =>
        rw [workspace?_of_isPublication hp] at hid
        cases hid
  cases h with
  | aside ha => exact absurd (hrecord (ha.events.trans (List.append_nil _).symm)) List.not_mem_nil
  | works | closes | registers => exact absurd (hrecord (List.append_nil _).symm) List.not_mem_nil
  | notes hp =>
      rw [← List.mem_singleton.mp (hrecord rfl)] at hp
      rw [workspace?_of_isPlain hp] at hid
      cases hid
  | opens | receives =>
      rw [List.mem_singleton.mp (hrecord rfl)] at hid
      cases hid
  | turns hw ht =>
      rename_i id' w w' lists record'
      obtain ⟨p, published, hmoved, hpub⟩ := moved_eq s id' w' lists record'
      have hin := mem_record_of_mem hpub hpublication (hrecord (by rw [hmoved]))
      cases (ht.workspace?_eq e hin).symm.trans hid
      exact .inl ⟨w, w', lists, record', hw, ht, hin, rfl⟩
  | removes hr hw =>
      rename_i uri id' w
      obtain ⟨p, published, hmoved, hpub⟩ := moved_eq s id'
        { w.enter .removed with initializations := w.initializations + 1, published := [] }
        (empties w.published) [.removed id']
      have hin := mem_record_of_mem hpub hpublication (hrecord (congrArg events hmoved))
      rw [List.mem_singleton.mp hin] at hid ⊢
      cases hid
      exact .inr ⟨rfl, uri, w, hr, hw, rfl⟩
  | dismisses hr hw => exact absurd (hrecord rfl) List.not_mem_nil

/-- An event about a workspace is on record only if the workspace was there. -/
theorem Change.known_of_mem (h : Change s s') {record : List Event} {e : Event}
    (he : s'.events = s.events ++ record) (hm : e ∈ record) (hid : e.workspace? = some id) :
    ∃ w, s.workspaces[id]? = some w := by
  rcases h.of_mem he hm hid with ⟨w, _, _, _, hw, _⟩ | ⟨_, _, w, _, hw, _⟩ <;> exact ⟨w, hw⟩

end ServerState

end InkServer
