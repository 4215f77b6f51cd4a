import InkServer.Proofs.Workspace.Accounts
import InkServer.Proofs.Workspace.Replacement
import InkServer.Proofs.Workspace.Touches

/-!
# Shutting down

A shutdown takes out the workspaces that are registered when it begins, one after the other, and waits for each mirror
to be deleted. Others remove workspaces and initialize them meanwhile. A workspace that somebody else removes before
the shutdown comes to it ends the shutdown there and then; if there is none, nothing is left in the end.
-/

namespace InkServer

open ServerState ServerAct

variable {l l₁ l₂ : Loop ServerState Operation} {uri : String} {id : WorkspaceId} {m : Mirror}

/-! ## Taking workspaces out -/

/-- Some steps create no tasks. -/
structure CreatesNone (l l' : Loop ServerState Operation) : Prop where
  created : l'.created = l.created
  nextTask : l'.nextTask = l.nextTask

theorem CreatesNone.trans (h : CreatesNone l l₁) (h' : CreatesNone l₁ l₂) : CreatesNone l l₂ :=
  ⟨h'.created.trans h.created, h'.nextTask.trans h.nextTask⟩

/-- Some steps leave certain workspaces registered, remove some, and put some of these removals on record. -/
structure Retires (registered : Dict String WorkspaceId) (retired noted : List WorkspaceId)
    (l l' : Loop ServerState Operation) : Prop extends CreatesNone l l' where
  registered : l'.state.registered = registered
  length : l'.state.workspaces.length = l.state.workspaces.length
  removed : ∀ (id : WorkspaceId) w, l.state.workspaces[id]? = some w → w.state = .removed ∨ id ∈ retired →
    ∃ w', l'.state.workspaces[id]? = some w' ∧ w'.state = .removed
  record : ∃ record, l'.state.events = l.state.events ++ record ∧ ∀ id, .removed id ∈ record ↔ id ∈ noted

/-- Some steps take no workspace out. -/
abbrev Minor (l l' : Loop ServerState Operation) : Prop := Retires l.state.registered [] [] l l'

namespace Retires

variable {registered registered' : Dict String WorkspaceId} {retired retired' noted noted' : List WorkspaceId}

theorem trans (h : Retires registered retired noted l l₁) (h' : Retires registered' retired' noted' l₁ l₂) :
    Retires registered' (retired ++ retired') (noted ++ noted') l l₂ := by
  obtain ⟨record, hrecord, hnoted⟩ := h.record
  obtain ⟨record', hrecord', hnoted'⟩ := h'.record
  refine ⟨h.toCreatesNone.trans h'.toCreatesNone, h'.registered, h'.length.trans h.length, fun id w hw hr => ?_,
    record ++ record', by rw [hrecord', hrecord, List.append_assoc], fun id => ?_⟩
  · rw [List.mem_append, ← or_assoc] at hr
    have hlt : id < l₁.state.workspaces.length := h.length ▸ (List.getElem?_eq_some_iff.mp hw).1
    rcases hr with hr | hr
    · obtain ⟨w₁, hw₁, hremoved⟩ := h.removed id w hw hr
      exact h'.removed id w₁ hw₁ (.inl hremoved)
    · exact h'.removed id _ (List.getElem?_eq_getElem hlt) (.inr hr)
  · rw [List.mem_append, List.mem_append, hnoted, hnoted']

theorem minor (h : Retires registered retired noted l l₁) (h' : Minor l₁ l₂) :
    Retires registered retired noted l l₂ := by
  have hboth := h.trans h'
  rwa [h.registered, List.append_nil, List.append_nil] at hboth

theorem notes (h : Retires registered retired [] l l₁) (id : WorkspaceId) :
    Retires registered retired [id] l ((note (.removed id)).leaves l₁) := by
  obtain ⟨record, he, hnoted⟩ := h.record
  refine ⟨⟨h.created, h.nextTask⟩, h.registered, h.length, h.removed, record ++ [.removed id], ?_, fun id' => ?_⟩
  · show l₁.state.events ++ _ = _
    rw [he, List.append_assoc]
  · rw [List.mem_append, hnoted]
    simp

end Retires

namespace Minor

/-- What concerns neither the workspaces nor the record. -/
theorem aside (hc : l₁.created = l.created) (hn : l₁.nextTask = l.nextTask)
    (hr : l₁.state.registered = l.state.registered) (hw : l₁.state.workspaces = l.state.workspaces)
    (he : l₁.state.events = l.state.events) : Minor l l₁ :=
  ⟨⟨hc, hn⟩, hr, congrArg List.length hw, fun _ w h hr => ⟨w, hw ▸ h, hr.resolve_right List.not_mem_nil⟩, [],
    by rw [he, List.append_nil], fun _ => by simp⟩

theorem refl (l : Loop ServerState Operation) : Minor l l := aside rfl rfl rfl rfl rfl

theorem trans (h : Minor l l₁) (h' : Minor l₁ l₂) : Minor l l₂ := Retires.minor h h'

theorem records {record : List Event} (h : ∀ id, .removed id ∉ record) :
    Minor l { l with state := { l.state with events := l.state.events ++ record } } :=
  ⟨⟨rfl, rfl⟩, rfl, rfl, fun _ w hw hr => ⟨w, hw, hr.resolve_right List.not_mem_nil⟩, record, rfl,
    fun id => iff_of_false (h id) List.not_mem_nil⟩

/-- A change of a workspace that stays removed if it was. -/
theorem update {f : Workspace → Workspace}
    (hf : ∀ w, l.state.workspaces[id]? = some w → w.state = .removed → (f w).state = .removed) :
    Minor l ((updateWorkspace id f).leaves l) := by
  refine ⟨⟨rfl, rfl⟩, rfl, List.length_modify .., fun i w hw hr => ?_, [], (List.append_nil _).symm, fun _ => by simp⟩
  have hremoved := hr.resolve_right List.not_mem_nil
  show ∃ w', (l.state.workspaces.modify id f)[i]? = some w' ∧ _
  rw [List.getElem?_modify, hw]
  split
  · rename_i hi
    exact ⟨f w, rfl, hf w (hi ▸ hw) hremoved⟩
  · exact ⟨w, rfl, hremoved⟩

/-- Initializations take no workspace out. -/
theorem covers (id : WorkspaceId) : Initialization.Covers id Minor where
  refl := refl
  trans := trans
  aside _ _ _ _ := aside rfl rfl rfl rfl rfl
  notes _ e he := records fun _ h => by
    rw [← List.mem_singleton.mp h] at he
    cases he
  changes _ w _ hw hstate := update fun w' hw' hr => absurd hr (Option.some.inj (hw'.symm.trans hw) ▸ hstate)

theorem deleteMirror (id : WorkspaceId) (m : Mirror) : Minor l ((Removal.deleteMirror id m).leaves l) := by
  unfold Removal.deleteMirror
  rw [Act.leaves_bind]
  refine Minor.trans ((covers id).delete m) (update ?_)
  exact fun _ _ hr => hr

theorem clearAll (uris : List String) : Minor l ((Removal.clearAll uris).leaves l) := by
  rw [leaves_clearAll]
  obtain ⟨p, record, he, hp⟩ := publishingAll_eq l.state (empties uris)
  rw [he]
  have hpublished : ∀ id, Event.removed id ∉ record := fun id h => nomatch hp _ h
  exact (records hpublished).trans (aside rfl rfl rfl rfl rfl)

end Minor

/-- A workspace that is registered is taken out. -/
theorem retires_takeOut {f : Workspace → Workspace} (hf : ∀ w, (f w).state = .removed) :
    Retires (l.state.registered.erase uri) [id] [] l
      ((updateWorkspace id f).leaves ((Removal.unregister uri).leaves l)) := by
  refine ⟨⟨rfl, rfl⟩, rfl, List.length_modify .., fun i w hw hr => ?_, [], (List.append_nil _).symm, fun _ => by simp⟩
  show ∃ w', (l.state.workspaces.modify id f)[i]? = some w' ∧ _
  rw [List.getElem?_modify, hw]
  split
  · exact ⟨f w, rfl, hf w⟩
  · rename_i hi
    exact ⟨w, rfl, hr.resolve_right fun h => hi (List.mem_singleton.mp h).symm⟩

namespace Removal

/-- What is left to do once a workspace was taken out. -/
theorem retires_clear {registered : Dict String WorkspaceId} {retired : List WorkspaceId} {w : Workspace}
    (h : Retires registered retired [] l l₁) : Retires registered retired [id] l (Act.leaves (do
      clearAll w.published
      updateWorkspace id fun w => { w with published := [] }
      note (.removed id)
      match w.mirror with
      | some mirror =>
        Act.through "delete" (⟨id, mirror⟩ : Removal) do
          deleteMirror id mirror
          pure (.done true)
      | none => pure (.done true)) l₁) := by
  have hpublished : Minor ((clearAll w.published).leaves l₁) ((updateWorkspace id fun w => { w with published := [] }).leaves
      ((clearAll w.published).leaves l₁)) := .update (by exact fun _ _ hr => hr)
  rw [Act.leaves_bind, Act.leaves_bind, Act.leaves_bind]
  refine (((h.minor (.clearAll _)).minor hpublished).notes id).minor ?_
  split
  · exact (Minor.covers id).through ((Minor.covers id).bind (.deleteMirror _ _) ((Minor.covers id).ends _))
  · exact .refl _

/-- A removal takes out what is registered under the URI. -/
theorem retires_start (hp : ∀ id, l.state.registered.get? uri = some id → id < l.state.workspaces.length) :
    Retires (l.state.registered.erase uri) (l.state.registered.get? uri).toList (l.state.registered.get? uri).toList l
      ((start uri).leaves l) := by
  unfold start
  have hreturns : (unregister uri).returns l = l.state.registered.get? uri := rfl
  rw [Act.leaves_bind, hreturns]
  cases hr : l.state.registered.get? uri with
  | none =>
      rw [leaves_unregister, Dict.erase_of_get?_eq_none hr]
      exact Minor.refl l
  | some id =>
      dsimp only [Option.toList_some]
      have htaken : Retires (l.state.registered.erase uri) [id] [] l ((updateWorkspace id fun w =>
          { w.enter .removed with initializations := w.initializations + 1 }).leaves ((unregister uri).leaves l)) :=
        retires_takeOut fun _ => rfl
      rw [Act.leaves_bind]
      generalize (updateWorkspace id fun w => { w.enter .removed with initializations := w.initializations + 1 }).leaves
        ((unregister uri).leaves l) = l₁ at htaken ⊢
      have hid : id < l₁.state.workspaces.length := htaken.length ▸ hp id hr
      rw [leaves_withWorkspace (List.getElem?_eq_getElem hid)]
      exact retires_clear htaken

theorem minor_resume (state : Removal) (signal : Signal) : Minor l ((resume state signal).leaves l) := by
  unfold resume
  split
  · exact (Minor.covers state.id).bind (.deleteMirror _ _) ((Minor.covers state.id).ends _)
  · exact .refl l

end Removal

/-! ## What goes on beside a shutdown -/

/-- Whether something may be asked for beside a shutdown: a removal, or an initialization of one workspace. -/
def Operation.accompanies : Operation → Bool
  | .remove _ | .initialize_ _ | .initializeLast _ => true
  | _ => false

/-- Whether what waits may go on beside a shutdown. -/
def Waiting.accompanies : Waiting → Bool
  | .initializing _ | .removing _ => true
  | _ => false

def Suspended.accompanies : Suspended Operation Waiting → Bool
  | .created operation => operation.accompanies
  | .waiting state => state.accompanies

/-- What others do beside a shutdown: they take out one registered workspace or none. -/
def Accompanying (l l' : Loop ServerState Operation) : Prop :=
  Minor l l' ∨ ∃ uri, Retires (l.state.registered.erase uri) (l.state.registered.get? uri).toList
    (l.state.registered.get? uri).toList l l'

namespace Waiting

variable {τ α : Type}

theorem accompanies_ending {part : ServerAct (Step τ α)} {wrap : τ → Waiting} {f : α → Result}
    (hw : ∀ state, (wrap state).accompanies) (h : Accompanying l (part.leaves l)) :
    (ending part wrap f).Reaches l (fun state l' => state.accompanies ∧ Accompanying l l')
      fun _ l' => Accompanying l l' := by
  unfold ending Act.andThen
  rw [Act.reaches_afterwards]
  unfold Act.Reaches
  split
  · exact ⟨hw _, h⟩
  · rename_i r _
    cases r <;> exact h

theorem accompanies_initialize (id : WorkspaceId) :
    (ending (Initialization.start id) .initializing .truth).Reaches l
      (fun state l' => state.accompanies ∧ Accompanying l l') fun _ l' => Accompanying l l' :=
  accompanies_ending (fun _ => rfl) (.inl (Minor.covers id).start)

end Waiting

theorem Suspended.accompanies_goesOn {x : Suspended Operation Waiting} (hx : x.accompanies) (signal : Signal)
    (hp : ∀ uri id, l.state.registered.get? uri = some id → id < l.state.workspaces.length) :
    (serverMachine.goesOn signal x).Reaches l (fun state l' => state.accompanies ∧ Accompanying l l')
      fun _ l' => Accompanying l l' := by
  cases x with
  | created operation =>
      show (Waiting.start operation signal).Reaches l _ _
      unfold Waiting.start
      split
      · cases operation with
        | remove uri =>
            exact Waiting.accompanies_ending (fun _ => rfl) (.inr ⟨uri, Removal.retires_start (hp uri)⟩)
        | initialize_ id => exact Waiting.accompanies_initialize id
        | initializeLast uri =>
            show (Waiting.withLast uri _).Reaches l _ _
            unfold Waiting.withLast
            rw [Act.reaches_bind, Act.returns_state, Act.leaves_state]
            split
            · exact Waiting.accompanies_initialize _
            · exact .inl (.refl l)
        | _ => cases hx
      · cases hx
      · exact .inl (.refl l)
  | waiting state =>
      cases state with
      | initializing state =>
          obtain ⟨id, hid⟩ := Initialization.exists_isOf state
          exact Waiting.accompanies_ending (fun _ => rfl) (.inl ((Minor.covers id).resume hid signal))
      | removing state => exact Waiting.accompanies_ending (fun _ => rfl) (.inl (Removal.minor_resume state signal))
      | _ => cases hx

/-! ## How far a shutdown is -/

/-- No workspace is registered under two URIs. -/
theorem ServerState.Placed.registered_once {s : ServerState} {uri' : String} (h : s.Placed)
    (hr : s.registered.get? uri = some id) (hr' : s.registered.get? uri' = some id) : uri = uri' := by
  obtain ⟨w, hw, rfl⟩ := h.keyed uri id hr
  obtain ⟨w', hw', rfl⟩ := h.keyed uri' id hr'
  cases hw.symm.trans hw'
  rfl

/-- A shutdown has come so far that it has taken out all workspaces that were registered when it began, but for the
`rest` and those that others removed; `since` is what was put on record since it began. -/
structure ShutsDown (start : ServerState) (rest : List String) (since : List Event) (s : ServerState) : Prop where
  events : s.events = start.events ++ since
  length : s.workspaces.length = start.workspaces.length
  suffix : rest <:+ start.registered.keys
  kept : ∀ uri id, s.registered.get? uri = some id → start.registered.get? uri = some id
  registered : ∀ uri id, start.registered.get? uri = some id →
    (s.registered.get? uri = some id ↔ uri ∈ rest ∧ .removed id ∉ since)
  ahead : ∀ uri id, start.registered.get? uri = some id → .removed id ∈ since → uri ∈ rest
  asleep : ¬s.HasWoken

namespace ShutsDown

variable {start : ServerState} {rest : List String} {since : List Event} {retired : List WorkspaceId}
  {registered : Dict String WorkspaceId}

/-- When the shutdown begins, all is still to be done. -/
theorem begins (h : ¬start.HasWoken) : ShutsDown start start.registered.keys [] start where
  events := (List.append_nil _).symm
  length := rfl
  suffix := List.suffix_refl _
  kept _ _ hr := hr
  registered _ _ hr := iff_of_true hr ⟨Dict.mem_keys_of_get? hr, List.not_mem_nil⟩
  ahead _ _ _ h := absurd h List.not_mem_nil
  asleep := h

theorem known (h : ShutsDown start rest since l.state) (hs : start.Sound) (hr : l.state.registered.get? uri = some id) :
    id < l.state.workspaces.length := by
  obtain ⟨w, hw, _⟩ := hs.keyed uri id (h.kept uri id hr)
  exact h.length ▸ (List.getElem?_eq_some_iff.mp hw).1

/-- Whoever is taken out is removed, so that nobody wakes. -/
theorem stays_asleep {noted : List WorkspaceId} (h : ¬l.state.HasWoken)
    (hr : Retires registered retired noted l l₁)
    (hout : ∀ uri id, l.state.registered.get? uri = some id → registered.get? uri = some id ∨ id ∈ retired) :
    ¬l₁.state.HasWoken := by
  rintro ⟨id, w, hw, hgone, hstate⟩
  have hid : id < l.state.workspaces.length := hr.length ▸ (List.getElem?_eq_some_iff.mp hw).1
  have hbefore := List.getElem?_eq_getElem hid
  have hremoved : l.state.workspaces[id].state = .removed ∨ id ∈ retired := by
    by_cases hregistered : ∃ uri, l.state.registered.get? uri = some id
    · obtain ⟨uri, hu⟩ := hregistered
      refine .inr ((hout uri id hu).resolve_left fun hstill => hgone.unregistered uri ?_)
      rw [hr.registered]
      exact hstill
    · refine .inl (Classical.byContradiction fun hwoken => h ⟨id, _, hbefore, ⟨hid, fun uri hu => ?_⟩, hwoken⟩)
      exact hregistered ⟨uri, hu⟩
  obtain ⟨w', hw', hstate'⟩ := hr.removed id _ hbefore hremoved
  cases hw.symm.trans hw'
  exact hstate hstate'

theorem stays_or_erased {d : Dict String WorkspaceId} {uri' : String} {i : WorkspaceId} (hr : d.get? uri = some id)
    (hr' : d.get? uri' = some i) : (d.erase uri).get? uri' = some i ∨ i ∈ [id] := by
  rw [Dict.get?_erase]
  split
  · rename_i hu
    exact .inr (List.mem_singleton.mpr (Option.some.inj ((hu ▸ hr').symm.trans hr)))
  · exact .inl hr'

theorem minor (h : ShutsDown start rest since l.state) (hm : Minor l l₁) :
    ∃ since, ShutsDown start rest since l₁.state := by
  obtain ⟨record, he, hrecord⟩ := hm.record
  have hnoted : ∀ id, .removed id ∈ since ++ record ↔ .removed id ∈ since := fun id => by
    simp [List.mem_append, hrecord]
  refine ⟨since ++ record, ?_, hm.length.trans h.length, h.suffix, fun uri id hr => ?_, fun uri id hr => ?_,
    fun uri id hr hn => h.ahead uri id hr ((hnoted id).mp hn), stays_asleep h.asleep hm fun _ _ hr => .inl hr⟩
  · rw [he, h.events, List.append_assoc]
  · rw [hm.registered] at hr
    exact h.kept uri id hr
  · rw [hm.registered, hnoted]
    exact h.registered uri id hr

/-- Somebody else removes a workspace, to which the shutdown has not come yet. -/
theorem removes (h : ShutsDown start rest since l.state) (hs : start.Sound)
    (hr : l.state.registered.get? uri = some id) (ht : Retires (l.state.registered.erase uri) [id] [id] l l₁) :
    ∃ since, ShutsDown start rest since l₁.state := by
  obtain ⟨record, he, hrecord⟩ := ht.record
  have hstart := h.kept uri id hr
  have hnoted : ∀ i, .removed i ∈ since ++ record ↔ .removed i ∈ since ∨ i = id := fun i => by
    simp [List.mem_append, hrecord]
  refine ⟨since ++ record, ?_, ht.length.trans h.length, h.suffix, fun uri' i hr' => ?_, fun uri' i hr' => ?_,
    fun uri' i hr' hn => ?_, stays_asleep h.asleep ht fun _ _ => stays_or_erased hr⟩
  · rw [he, h.events, List.append_assoc]
  · rw [ht.registered] at hr'
    exact h.kept uri' i (get?_of_get?_erase hr').2
  · rw [ht.registered, hnoted, Dict.get?_erase]
    split
    · rename_i hu
      cases (hu ▸ hstart).symm.trans hr'
      exact iff_of_false (Option.some_ne_none _).symm fun hn => hn.2 (.inr rfl)
    · rename_i hu
      have hi : i ≠ id := fun hi => hu (hs.toPlaced.registered_once hstart (hi ▸ hr'))
      rw [h.registered uri' i hr', not_or, and_iff_left hi]
  · rcases (hnoted i).mp hn with hn | rfl
    · exact h.ahead uri' i hr' hn
    · rw [← hs.toPlaced.registered_once hstart hr']
      exact ((h.registered uri i hstart).mp hr).1

/-- The shutdown takes out the next workspace. -/
theorem dismisses (h : ShutsDown start (uri :: rest) since l.state) (hk : start.registered.keys.Nodup)
    (hr : l.state.registered.get? uri = some id) (ht : Retires (l.state.registered.erase uri) [id] [] l l₁) :
    ∃ since, ShutsDown start rest since l₁.state := by
  obtain ⟨record, he, hrecord⟩ := ht.record
  have hstart := h.kept uri id hr
  have hnoted : ∀ id, .removed id ∈ since ++ record ↔ .removed id ∈ since := fun id => by
    simp [List.mem_append, hrecord]
  have hnext : uri ∉ rest := (List.nodup_cons.mp (hk.sublist h.suffix.sublist)).1
  refine ⟨since ++ record, ?_, ht.length.trans h.length, (List.suffix_cons uri rest).trans h.suffix,
    fun uri' i hr' => ?_, fun uri' i hr' => ?_, fun uri' i hr' hn => ?_,
    stays_asleep h.asleep ht fun _ _ => stays_or_erased hr⟩
  · rw [he, h.events, List.append_assoc]
  · rw [ht.registered] at hr'
    exact h.kept uri' i (get?_of_get?_erase hr').2
  · rw [ht.registered, hnoted, Dict.get?_erase]
    split
    · rename_i hu
      exact iff_of_false (Option.some_ne_none _).symm fun hn => hnext (hu ▸ hn.1)
    · rename_i hu
      rw [h.registered uri' i hr', List.mem_cons, or_iff_right (Ne.symm hu)]
  · have hn := (hnoted i).mp hn
    refine (List.mem_cons.mp (h.ahead uri' i hr' hn)).resolve_left fun hu => ?_
    cases (hu ▸ hr').symm.trans hstart
    exact ((h.registered uri id hstart).mp hr).2 hn

/-- What others do changes nothing in how far the shutdown is. -/
theorem accompanied (h : ShutsDown start rest since l.state) (hs : start.Sound) (ha : Accompanying l l₁) :
    ∃ since, ShutsDown start rest since l₁.state := by
  rcases ha with hm | ⟨uri, hr⟩
  · exact h.minor hm
  · cases hu : l.state.registered.get? uri with
    | none =>
        rw [hu, Dict.erase_of_get?_eq_none hu] at hr
        exact h.minor hr
    | some id =>
        rw [hu] at hr
        exact h.removes hs hu hr

/-! ### What the shutdown does -/

/-- What a shutdown comes to: it has taken out everything, or the next workspace is not there any more. -/
inductive Ends (start : ServerState) : Except Failure Unit → ServerState → Prop where
  | done {since : List Event} {s : ServerState} (h : ShutsDown start [] since s) : Ends start (.ok ()) s
  | missing {uri : String} {rest : List String} {since : List Event} {s : ServerState}
      (h : ShutsDown start (uri :: rest) since s) (hr : s.registered.get? uri = none) : Ends start (.error (.key uri)) s

theorem reaches_removeAll (hk : start.registered.keys.Nodup) (h : ShutsDown start rest since l.state) :
    (Shutdown.removeAll rest).Reaches l
      (fun state l' => CreatesNone l l' ∧ ∃ since, ShutsDown start state.rest since l'.state)
      fun r l' => CreatesNone l l' ∧ Ends start r l'.state := by
  induction rest generalizing l since with
  | nil => exact ⟨⟨rfl, rfl⟩, .done h⟩
  | cons uri rest ih =>
      unfold Shutdown.removeAll
      have hreturns : (Removal.unregister uri).returns l = l.state.registered.get? uri := rfl
      rw [Act.reaches_bind, hreturns]
      cases hr : l.state.registered.get? uri with
      | none =>
          rw [Removal.leaves_unregister, Dict.erase_of_get?_eq_none hr]
          exact ⟨⟨rfl, rfl⟩, .missing h hr⟩
      | some id =>
          have htaken : Retires (l.state.registered.erase uri) [id] [] l
              ((updateWorkspace id fun w => w.enter .removed).leaves ((Removal.unregister uri).leaves l)) :=
            retires_takeOut fun _ => rfl
          dsimp only
          rw [Act.reaches_bind]
          generalize (updateWorkspace id fun w => w.enter .removed).leaves ((Removal.unregister uri).leaves l) = l₁
            at htaken ⊢
          obtain ⟨since', h'⟩ := h.dismisses hk hr htaken
          have hgoes : ∀ {l₂}, Minor l₁ l₂ → ∀ {since}, ShutsDown start rest since l₂.state →
              (Shutdown.removeAll rest).Reaches l₂
                (fun state l' => CreatesNone l l' ∧ ∃ since, ShutsDown start state.rest since l'.state)
                fun r l' => CreatesNone l l' ∧ Ends start r l'.state := fun hm _ h₂ =>
            have hq := htaken.toCreatesNone.trans hm.toCreatesNone
            (ih h₂).mono (fun _ _ => .imp_left hq.trans) fun _ _ => .imp_left hq.trans
          rw [Act.reaches_bind]
          split
          · rename_i m _
            rw [Act.reaches_bind]
            split
            · exact ⟨⟨htaken.created, htaken.nextTask⟩, since', h'⟩
            · rw [Act.reaches_bind]
              obtain ⟨since'', h''⟩ := h'.minor (.deleteMirror id m)
              exact hgoes (.deleteMirror id m) h''
          · exact hgoes (.refl l₁) h'

theorem reaches_start (hk : l.state.registered.keys.Nodup) (h : ¬l.state.HasWoken) :
    Shutdown.start.Reaches l
      (fun state l' => CreatesNone l l' ∧ ∃ since, ShutsDown l.state state.rest since l'.state)
      fun r l' => CreatesNone l l' ∧ Ends l.state r l'.state := by
  unfold Shutdown.start
  rw [Act.reaches_bind]
  exact reaches_removeAll hk (.begins h)

/-- A shutdown goes on behind the deletion, or it is told to give up. -/
theorem reaches_resume {state : Shutdown} (hk : start.registered.keys.Nodup)
    (h : ShutsDown start state.rest since l.state) (signal : Signal) :
    (Shutdown.resume state signal).Reaches l
      (fun state l' => CreatesNone l l' ∧ ∃ since, ShutsDown start state.rest since l'.state)
      fun r l' => r = .error .cancelled ∨ CreatesNone l l' ∧ Ends start r l'.state := by
  unfold Shutdown.resume
  split
  · have hdeleted : Minor l ((Removal.deleteMirror state.id state.mirror).leaves l) := .deleteMirror _ _
    obtain ⟨since', h'⟩ := h.minor hdeleted
    rw [Act.reaches_bind]
    have hq := hdeleted.toCreatesNone
    exact (reaches_removeAll hk h').mono (fun _ _ => .imp_left hq.trans) fun _ _ he => .inr (he.imp_left hq.trans)
  · exact .inl rfl

end ShutsDown

/-- What is over stays so. -/
theorem ShutsDown.Ends.accompanied {start : ServerState} {r : Except Failure Unit}
    (h : Ends start r l.state) (hs : start.Sound) (ha : Accompanying l l₁) : Ends start r l₁.state := by
  generalize he : l.state = s at h
  cases h with
  | done h =>
      obtain ⟨_, h'⟩ := (he ▸ h).accompanied hs ha
      exact .done h'
  | missing h hr =>
      rename_i uri rest since
      obtain ⟨_, h'⟩ := (he ▸ h).accompanied hs ha
      refine .missing h' ?_
      subst he
      rcases ha with hm | ⟨uri', ht⟩
      · rw [hm.registered, hr]
      · rw [ht.registered, Dict.get?_erase]
        split
        · rfl
        · exact hr

/-! ## Runs in which the server shuts down -/

namespace Server

variable {start : ServerState} {task : TaskId} {s : Server}

/-- How a shutdown stands among the other tasks: it waits, or it has ended, and only once. -/
inductive Stands (start : ServerState) (task : TaskId) (s : Server) : Prop where
  | waits (state : Shutdown) (since : List Event) (hx : s.task? task = some (.waiting (.shuttingDown state)))
      (hn : ∀ r, (task, r) ∉ s.ended) (h : ShutsDown start state.rest since s.state)
  | ended {r : Except Failure Unit} (hx : ∀ x, (task, x) ∉ s.tasks)
      (hr : ∀ r', (task, r') ∈ s.ended ↔ r' = r.map fun _ => .nothing) (h : ShutsDown.Ends start r s.state)

/-- A server in which a shutdown is under way or over, and others remove and initialize workspaces. -/
structure IsClosing (start : ServerState) (task : TaskId) (s : Server) : Prop where
  created : s.loop.created = []
  below : task < s.loop.nextTask
  beside : ∀ t x, (t, x) ∈ s.tasks → t ≠ task → x.accompanies
  stands : Stands start task s

/-- What may happen beside a shutdown: tasks take their turns and are let through, and others ask for removals and
initializations. -/
def Accompanies : Session.Move External → Prop
  | .turn | .passes _ _ | .closes _ | .opens _ => True
  | .cancels _ => False
  | .outside (.asks operation) => operation.accompanies
  | .outside _ => False

instance : DecidablePred Accompanies
  | .outside (.asks operation) => inferInstanceAs (Decidable operation.accompanies)
  | .turn | .passes _ _ | .closes _ | .opens _ => .isTrue trivial
  | .cancels _ => .isFalse not_false
  | .outside (.notification _ _) | .outside (.request _ _) | .outside (.reply _ _) | .outside (.registers _)
  | .outside (.closes _) | .outside .invalidates | .outside .expires | .outside (.adjusts _)
  | .outside (.foreign _) => .isFalse not_false

/-- What is registered is there. -/
theorem IsClosing.known (h : IsClosing start task s) (hs : start.Sound) (uri : String) (id : WorkspaceId)
    (hr : s.state.registered.get? uri = some id) : id < s.state.workspaces.length := by
  cases h.stands with
  | waits _ _ _ _ hsd => exact hsd.known (l := s.loop) hs hr
  | ended _ _ he =>
      cases he with
      | done hsd | missing hsd => exact hsd.known (l := s.loop) hs hr

/-- A task other than the shutdown went on. -/
theorem IsClosing.wentOn_other (h : IsClosing start task s) (hs : start.Sound) {t : TaskId} (ht : t ≠ task)
    {step : Step Waiting Result} {l : Loop ServerState Operation} {ready : List Wake}
    (hstep : ∀ state, step = .waits state → state.accompanies)
    (ha : Accompanying { s.loop with ready, current := t } l) : IsClosing start task (s.wentOn t step l) := by
  have hquiet : CreatesNone { s.loop with ready, current := t } l := by
    rcases ha with hm | ⟨_, hr⟩
    · exact hm.toCreatesNone
    · exact hr.toCreatesNone
  have hcreated : l.created = [] := hquiet.created.trans h.created
  have hstate := Session.wentOn_state s t step l
  refine ⟨by cases step <;> rfl, ?_, fun t' x hx hne => ?_, ?_⟩
  · rw [Session.wentOn_nextTask, hquiet.nextTask]
    exact h.below
  · rcases Session.mem_wentOn.mp hx with hx | ⟨c, hc, _⟩ | ⟨state, hwaits, he⟩
    · exact h.beside t' x (Session.mem_without.mp hx).1 hne
    · rw [hcreated] at hc
      cases hc
    · cases he
      exact hstep state hwaits
  · cases h.stands with
    | waits _ _ hx hn hsd =>
        obtain ⟨since, hsd'⟩ := ShutsDown.accompanied (l := { s.loop with ready, current := t }) hsd hs ha
        refine .waits _ since (Session.task?_wentOn_of_ne hx ht.symm step l) (fun r hr => ?_) (hstate ▸ hsd')
        rcases Session.mem_ended_wentOn.mp hr with hr | ⟨_, _, he⟩
        · exact hn r hr
        · exact ht (congrArg Prod.fst he).symm
    | ended hx hr hends =>
        refine .ended (fun x hmem => ?_) (fun r' => ?_) (hstate ▸ hends.accompanied (l := { s.loop with ready, current := t }) hs ha)
        · rcases Session.mem_wentOn.mp hmem with hmem | ⟨c, hc, _⟩ | ⟨_, _, he⟩
          · exact hx x (Session.mem_without.mp hmem).1
          · rw [hcreated] at hc
            cases hc
          · exact ht (congrArg Prod.fst he).symm
        · rw [← hr r', Session.mem_ended_wentOn]
          exact or_iff_left fun ⟨_, _, he⟩ => ht (congrArg Prod.fst he).symm

/-- The shutdown went on, unless it was told to give up. -/
theorem isClosing_shutdown {ready : List Wake} {part : ServerAct (Step Shutdown Unit)} (hc : s.loop.created = [])
    (hb : task < s.loop.nextTask) (ho : ∀ t x, (t, x) ∈ s.tasks → t ≠ task → x.accompanies)
    (hn : ∀ r, (task, r) ∉ s.ended)
    (h : part.Reaches { s.loop with ready, current := task }
      (fun state l' => CreatesNone { s.loop with ready, current := task } l' ∧
        ∃ since, ShutsDown start state.rest since l'.state)
      fun r l' => r = .error .cancelled ∨
        CreatesNone { s.loop with ready, current := task } l' ∧ ShutsDown.Ends start r l'.state) :
    (Waiting.ending part .shuttingDown fun _ => .nothing).Reaches { s.loop with ready, current := task }
      (fun state l => Abrupt (s.wentOn task (.waits state) l) ∨ IsClosing start task (s.wentOn task (.waits state) l))
      fun r l => Abrupt (s.wentOn task (.ends r) l) ∨ IsClosing start task (s.wentOn task (.ends r) l) := by
  have hothers : ∀ {step : Step Waiting Result} {l : Loop ServerState Operation}, l.created = [] →
      ∀ t x, (t, x) ∈ (s.wentOn task step l).tasks → t ≠ task → x.accompanies := by
    intro step l hl t x hx hne
    rcases Session.mem_wentOn.mp hx with hx | ⟨c, hmem, _⟩ | ⟨_, _, he⟩
    · exact ho t x (Session.mem_without.mp hx).1 hne
    · rw [hl] at hmem
      cases hmem
    · exact absurd (congrArg Prod.fst he) hne
  unfold Waiting.ending Act.andThen
  rw [Act.reaches_afterwards]
  refine h.mono (fun state l ⟨hq, since, hsd⟩ => .inr ?_) fun r l he => ?_
  · have hcreated : l.created = [] := hq.created.trans hc
    refine ⟨rfl, ?_, hothers hcreated, .waits state since ?_ (fun r hr => ?_) hsd⟩
    · rw [Session.wentOn_nextTask, hq.nextTask]
      exact hb
    · exact Session.task?_wentOn_waits s _ fun c hmem => by rw [hcreated] at hmem; cases hmem
    · rcases Session.mem_ended_wentOn.mp hr with hr | ⟨_, he, _⟩
      · exact hn r hr
      · cases he
  · have hends : ∀ r' : Except Failure Result, r' = r.map (fun _ => .nothing) →
        Abrupt (s.wentOn task (.ends r') l) ∨ IsClosing start task (s.wentOn task (.ends r') l) := fun r' hr' => by
      rcases he with hcancelled | ⟨hq, he⟩
      · subst hcancelled hr'
        exact .inl ⟨_, Session.mem_ended_wentOn.mpr (.inr ⟨_, rfl, rfl⟩), _, rfl, rfl⟩
      · have hcreated : l.created = [] := hq.created.trans hc
        refine .inr ⟨rfl, ?_, hothers hcreated, .ended (r := r) (fun x hx => ?_) (fun r'' => ?_) he⟩
        · rw [Session.wentOn_nextTask, hq.nextTask]
          exact hb
        · rcases Session.mem_wentOn.mp hx with hx | ⟨c, hmem, _⟩ | ⟨_, he, _⟩
          · exact (Session.mem_without.mp hx).2 rfl
          · rw [hcreated] at hmem
            cases hmem
          · cases he
        · rw [Session.mem_ended_wentOn, or_iff_right (hn r''), ← hr']
          constructor
          · rintro ⟨_, he, hpair⟩
            cases he
            exact congrArg Prod.snd hpair
          · rintro rfl
            exact ⟨_, rfl, rfl⟩
    cases r with
    | ok a => exact hends _ rfl
    | error f => exact hends _ rfl

/-- Somebody asks for something else. -/
theorem IsClosing.asked (h : IsClosing start task s) {operation : Operation} (ho : operation.accompanies) :
    IsClosing start task (Session.adopt { s with loop := (Act.create operation).leaves s.loop }) := by
  have htasks : (Session.adopt { s with loop := (Act.create operation).leaves s.loop } : Server).tasks =
      s.tasks ++ [(s.loop.nextTask, .created operation)] := by
    show s.tasks ++ List.map _ (s.loop.created ++ [_]) = _
    rw [h.created]
    rfl
  have hne : s.loop.nextTask ≠ task := (Nat.ne_of_lt h.below).symm
  refine ⟨rfl, Nat.lt_succ_of_lt h.below, fun t x hx ht => ?_, ?_⟩
  · rw [htasks] at hx
    rcases List.mem_append.mp hx with hx | hx
    · exact h.beside t x hx ht
    · cases List.mem_singleton.mp hx
      exact ho
  · cases h.stands with
    | waits _ _ hx hn hsd =>
        refine .waits _ _ ?_ hn hsd
        obtain ⟨e, he, hstate⟩ := Option.map_eq_some_iff.mp hx
        unfold Session.task?
        rw [htasks, List.find?_append, he, Option.some_or, Option.map_some, hstate]
    | ended hx hr he =>
        refine .ended (fun x hmem => ?_) hr he
        rw [htasks] at hmem
        rcases List.mem_append.mp hmem with hmem | hmem
        · exact hx x hmem
        · exact hne (congrArg Prod.fst (List.mem_singleton.mp hmem)).symm

/-- A move beside a shutdown, or one of the shutdown, brings it on or is the end of a task in the middle of
something. -/
theorem IsClosing.advance (h : IsClosing start task s) (hs : start.Sound) (hk : start.registered.keys.Nodup)
    {move : Session.Move External} (hm : Accompanies move) :
    Abrupt (s.advance serverMachine External.act move) ∨
      IsClosing start task (s.advance serverMachine External.act move) := by
  have hloop : ∀ ready closed atGates, IsClosing start task { s with loop := { s.loop with ready, closed, atGates } } :=
    fun _ _ _ => ⟨h.created, h.below, h.beside, by
      cases h.stands with
      | waits _ _ hx hn hsd => exact .waits _ _ hx hn hsd
      | ended hx hr he => exact .ended hx hr he⟩
  have hadopts : ∀ ready closed atGates,
      IsClosing start task (Session.adopt { s with loop := { s.loop with ready, closed, atGates } }) :=
    fun ready closed atGates => by
      rw [Session.adopt_of_created_eq_nil (s := { s with loop := { s.loop with ready, closed, atGates } }) h.created]
      exact hloop ready closed atGates
  cases move with
  | cancels => cases hm
  | turn =>
      refine Session.turn_keeps (p := fun s' => Abrupt s' ∨ IsClosing start task s') (.inr h)
        (fun w rest n _ => .inr (hloop _ _ _)) (fun w rest _ _ => .inr (hloop _ _ _)) fun w rest x _ hx => ?_
      refine Session.run_of_reaches (p := fun s' => Abrupt s' ∨ IsClosing start task s') hx ?_
      have hrest := hloop rest s.loop.closed s.loop.atGates
      by_cases ht : w.task = task
      · subst ht
        cases h.stands with
        | ended hnone _ _ => exact absurd (Session.mem_of_task? hx) (hnone x)
        | waits _ _ hwaits hn hsd =>
            cases hx.symm.trans hwaits
            exact isClosing_shutdown hrest.created hrest.below hrest.beside hn
              (ShutsDown.reaches_resume (l := { s.loop with ready := rest, current := w.task }) hk hsd w.signal)
      · have hgoes := Suspended.accompanies_goesOn (l := { s.loop with ready := rest, current := w.task })
          (h.beside _ x (Session.mem_of_task? hx) ht) w.signal (h.known hs)
        refine hgoes.mono (fun state l ⟨hstate, ha⟩ => .inr ?_) fun r l ha => .inr ?_
        · exact hrest.wentOn_other hs ht (fun _ he => by cases he; exact hstate) ha
        · exact hrest.wentOn_other hs ht (fun _ he => by cases he) ha
  | passes t signal =>
      refine .inr ?_
      show IsClosing start task (Session.adopt { s with loop := (Act.pass t signal).leaves s.loop })
      rw [Act.leaves_pass]
      split
      · exact hadopts _ _ _
      · exact hadopts s.loop.ready s.loop.closed s.loop.atGates
  | closes gate => exact .inr (hadopts _ _ _)
  | opens gate => exact .inr (hadopts _ _ _)
  | outside e =>
      cases e with
      | asks operation =>
          refine .inr ?_
          show IsClosing start task
            (Session.adopt { s with loop := (External.act (.asks operation)).leaves s.loop })
          have hserved : operation.isServed := by cases operation <;> first | rfl | cases hm
          have hact : (External.act (.asks operation)).leaves s.loop = (Act.create operation).leaves s.loop := by
            show (if operation.isServed then discard (Act.create operation) else pure () : ServerAct Unit).leaves s.loop = _
            rw [if_pos hserved]
            rfl
          rw [hact]
          exact h.asked hm
      | _ => cases hm

/-- However the others come in between, a shutdown stays under way until it is over. -/
theorem IsClosing.after (h : IsClosing start task s) (hs : start.Sound) (hk : start.registered.keys.Nodup)
    {moves : List (Session.Move External)} (hm : ∀ move ∈ moves, Accompanies move) :
    Abrupt (s.after serverMachine External.act moves) ∨
      IsClosing start task (s.after serverMachine External.act moves) := by
  induction moves generalizing s with
  | nil => exact .inr h
  | cons move rest ih =>
      rw [Session.after_cons]
      rcases h.advance hs hk (hm move List.mem_cons_self) with habrupt | h'
      · exact .inl (habrupt.of_subset (Session.ended_subset_after _ rest))
      · exact ih h' fun move hmem => hm move (List.mem_cons_of_mem _ hmem)

/-- No URI is registered twice. -/
theorem nodup_registered {allowed : Foreign → Prop} {s s' : ServerState} (h : Steps allowed s s') (hs : s.Sound)
    (hk : s.registered.keys.Nodup) : s'.registered.keys.Nodup := by
  refine (h.keeps hs (p := fun t => t.registered.keys.Nodup) hk (fun s s' _ hc hk => ?_) fun _ _ _ _ hk => hk).2
  cases hc with
  | aside ha => exact ha.registered ▸ hk
  | notes | works | opens | receives | closes => exact hk
  | registers => exact Dict.nodup_keys_insert hk _ _
  | turns => rwa [moved_registered]
  | removes | dismisses =>
      rw [Dict.keys_erase]
      exact hk.filter _

/-- A run of the registry at whose end the server shuts down. When the shutdown begins, nothing but removals and
initializations is under way, and nothing else is asked for after that; in the end no task is left. -/
structure IsShutDown (s : ServerState) (before after : List (Session.Move External)) (task : TaskId) : Prop where
  numbers : s.disk.scratches = 0
  ofRegistry : ∀ move ∈ before, IsOfRegistry move
  next : ∃ rest, (run s before).loop.ready = ⟨task, .go, 0⟩ :: rest
  begins : (run s before).task? task = some (.created .shutdown)
  lasting : ∀ r, (task, r) ∉ (run s before).ended
  beside : ∀ t x, (t, x) ∈ (run s before).tasks → t ≠ task → x.accompanies
  asleep : ¬(run s before).state.HasWoken
  accompanied : ∀ move ∈ after, Accompanies move
  smooth : ¬Abrupt (run s (before ++ .turn :: after))
  done : (run s (before ++ .turn :: after)).tasks = []

variable {s : ServerState} {before after : List (Session.Move External)}

/-- When all is over, the shutdown is. -/
theorem IsShutDown.ends (h : IsShutDown s before after task) (hs : IsFresh s) :
    ∃ r, (∀ r', (task, r') ∈ (run s (before ++ .turn :: after)).ended ↔ r' = r.map fun _ => .nothing) ∧
      ShutsDown.Ends (run s before).state r (run s (before ++ .turn :: after)).state := by
  have hsteps : Steps (fun _ => True) s (run s before).state := steps_run hs fun _ _ => allows_all
  have hsound : (run s before).state.Sound := hsteps.sound hs.sound
  have hk : (run s before).state.registered.keys.Nodup :=
    nodup_registered hsteps hs.sound (by rw [hs.registered]; exact List.nodup_nil)
  have haccounted : Accounted (fun held s => s.Books held.flatten) (run s before) :=
    (accounted_ofState keeping_books (.inr (hs.custody h.numbers))).after h.ofRegistry fun f _ => tolerates_books f
  obtain ⟨rest, hready⟩ := h.next
  have hbelow := haccounted.enlisted.below _ (Session.mem_of_task? h.begins)
  have hfirst : Abrupt ((run s before).advance serverMachine External.act .turn) ∨
      IsClosing (run s before).state task ((run s before).advance serverMachine External.act .turn) := by
    rw [Session.advance_turn hready rfl]
    refine Session.run_of_reaches
      (p := fun s' => Abrupt s' ∨ IsClosing (run s before).state task s') h.begins ?_
    exact isClosing_shutdown (s := { run s before with loop := { (run s before).loop with ready := rest } })
      haccounted.created hbelow h.beside h.lasting ((ShutsDown.reaches_start
        (l := { (run s before).loop with ready := rest, current := task }) hk h.asleep).mono (fun _ _ h => h) fun _ _ => .inr)
  have hrun : run s (before ++ .turn :: after) =
      ((run s before).advance serverMachine External.act .turn).after serverMachine External.act after :=
    Session.after_append _ before (.turn :: after)
  have hclosing : IsClosing (run s before).state task (run s (before ++ .turn :: after)) := by
    have hsmooth := h.smooth
    rw [hrun] at hsmooth ⊢
    rcases hfirst with habrupt | hfirst
    · exact absurd (habrupt.of_subset (Session.ended_subset_after _ after)) hsmooth
    · exact (hfirst.after hsound hk h.accompanied).resolve_left hsmooth
  cases hclosing.stands with
  | waits _ _ hx => 
      have hmem := Session.mem_of_task? hx
      rw [h.done] at hmem
      cases hmem
  | ended _ hr he => exact ⟨_, hr, he⟩

/-- What may happen beside a shutdown is for the registry. -/
theorem isOfRegistry_of_accompanies {move : Session.Move External} (h : Accompanies move) : IsOfRegistry move := by
  cases move with
  | outside e =>
      cases e with
      | asks operation => cases operation <;> first | rfl | cases h
      | _ => cases h
  | _ => trivial

/-- When all is over and nothing has woken, no mirror is in anybody's charge. -/
theorem IsShutDown.isSettled (h : IsShutDown s before after task)
    (hasleep : ¬(run s (before ++ .turn :: after)).state.HasWoken) : IsSettled s (before ++ .turn :: after) where
  numbers := h.numbers
  ofRegistry move hmove := by
    rcases List.mem_append.mp hmove with hmove | hmove
    · exact h.ofRegistry move hmove
    · rcases List.mem_cons.mp hmove with rfl | hmove
      · trivial
      · exact isOfRegistry_of_accompanies (h.accompanied move hmove)
  smooth := h.smooth
  asleep := hasleep
  done := by rw [h.done]; rfl

/-- Nothing is left of the workspaces that were registered: none is registered any more, all are removed, and every
mirror that was ever made is deleted. -/
structure IsCleared (start s : ServerState) : Prop where
  unregistered : ∀ uri, s.registered.get? uri = none
  removed : ∀ uri id, start.registered.get? uri = some id →
    ∃ w, s.workspaces[id]? = some w ∧ w.state = .removed ∧ w.mirror = none
  deleted : ∀ m : Mirror, m.IsMade s.policy s.disk → .deleted m.path ∈ s.disk.history

/-- A shutdown stopped at the first workspace that somebody else had removed. Those behind it stay registered, but for
those that somebody else removed. -/
structure StoppedAt (start : ServerState) (uri : String) (since : List Event) (s : ServerState) : Prop where
  removed : ∃ id, start.registered.get? uri = some id ∧ .removed id ∈ since
  kept : ∃ first rest, start.registered.keys = first ++ uri :: rest ∧
    (∀ uri' ∈ first, ∀ id, start.registered.get? uri' = some id → .removed id ∉ since) ∧
    ∀ uri' id, start.registered.get? uri' = some id →
      (s.registered.get? uri' = some id ↔ uri' ∈ uri :: rest ∧ .removed id ∉ since)

/-- Once a shutdown has taken out everything, nothing is left. -/
theorem IsShutDown.isCleared (h : IsShutDown s before after task) (hs : IsFresh s) {since : List Event}
    (hd : ShutsDown (run s before).state [] since (run s (before ++ .turn :: after)).state) :
    IsCleared (run s before).state (run s (before ++ .turn :: after)).state := by
  have hsettled := h.isSettled hd.asleep
  have hcustody := hsettled.custody hs
  have hsteps : Steps (fun _ => True) s (run s before).state := steps_run hs fun _ _ => allows_all
  have hnone : ∀ uri, (run s (before ++ .turn :: after)).state.registered.get? uri = none := fun uri =>
    Option.eq_none_iff_forall_not_mem.mpr fun id hr =>
      absurd ((hd.registered uri id (hd.kept uri id hr)).mp hr).1 List.not_mem_nil
  have hfree : ∀ id m, ¬(run s (before ++ .turn :: after)).state.Has id m := fun id m hm => by
    rcases hcustody.registered id m hm with ⟨uri, hr⟩ | ⟨_, hcharge⟩
    · rw [hnone] at hr
      cases hr
    · exact List.not_mem_nil hcharge
  refine ⟨hnone, fun uri id hr => ?_, fun m hm => (hsettled.kept hs hm).resolve_left fun ⟨id, hid⟩ => hfree id m hid⟩
  obtain ⟨w, hw, _⟩ := (hsteps.sound hs.sound).keyed uri id hr
  have hid : id < (run s (before ++ .turn :: after)).state.workspaces.length :=
    hd.length ▸ (List.getElem?_eq_some_iff.mp hw).1
  have hthere := List.getElem?_eq_getElem hid
  refine ⟨_, hthere, Classical.byContradiction fun hstate => ?_, ?_⟩
  · refine hd.asleep ⟨id, _, hthere, ⟨hid, fun uri' hr' => ?_⟩, hstate⟩
    rw [hnone] at hr'
    cases hr'
  · exact Option.eq_none_iff_forall_not_mem.mpr fun m hm => hfree id m ⟨_, hthere, hm⟩

/-- A shutdown that failed has stopped at a workspace that somebody else had removed. -/
theorem stoppedAt_of_shutsDown {start s : ServerState} {uri : String} {rest : List String} {since : List Event}
    (h : ShutsDown start (uri :: rest) since s) (hk : start.registered.keys.Nodup)
    (hr : s.registered.get? uri = none) : StoppedAt start uri since s := by
  obtain ⟨first, hkeys⟩ := h.suffix
  have hmem : uri ∈ start.registered.keys := hkeys ▸ List.mem_append_right _ List.mem_cons_self
  obtain ⟨⟨_, id⟩, hentry, rfl⟩ := List.mem_map.mp hmem
  have hid := Dict.get?_of_mem hk hentry
  refine ⟨⟨id, hid, Classical.byContradiction fun hn => ?_⟩, first, rest, hkeys.symm, fun uri' hu id' hid' hn => ?_,
    h.registered⟩
  · rw [(h.registered _ id hid).mpr ⟨List.mem_cons_self, hn⟩] at hr
    cases hr
  · rw [← hkeys] at hk
    exact (List.nodup_append.mp hk).2.2 uri' hu uri' (h.ahead uri' id' hid' hn) rfl

/-- However a shutdown, removals and initializations come in between each other, the shutdown ends well exactly if
nobody else removes one of the workspaces before the shutdown comes to it. Then nothing is left of them, not even of
those whose mirrors were being made. Otherwise the shutdown fails, and it has stopped where it failed. -/
theorem shutdown_finishes_iff_nothing_was_removed (hs : IsFresh s) (h : IsShutDown s before after task) :
    ∃ since, (run s (before ++ .turn :: after)).state.events = (run s before).state.events ++ since ∧
      ((task, .ok .nothing) ∈ (run s (before ++ .turn :: after)).ended ↔
        ∀ uri id, (run s before).state.registered.get? uri = some id → .removed id ∉ since) ∧
      ((task, .ok .nothing) ∈ (run s (before ++ .turn :: after)).ended →
        IsCleared (run s before).state (run s (before ++ .turn :: after)).state) ∧
      ((task, .ok .nothing) ∉ (run s (before ++ .turn :: after)).ended →
        ∃ uri, (task, .error (.key uri)) ∈ (run s (before ++ .turn :: after)).ended ∧
          StoppedAt (run s before).state uri since (run s (before ++ .turn :: after)).state) := by
  have hsteps : Steps (fun _ => True) s (run s before).state := steps_run hs fun _ _ => allows_all
  have hk : (run s before).state.registered.keys.Nodup :=
    nodup_registered hsteps hs.sound (by rw [hs.registered]; exact List.nodup_nil)
  obtain ⟨r, hr, he⟩ := h.ends hs
  generalize hstate : (run s (before ++ .turn :: after)).state = t at he
  cases he with
  | done hd =>
      rename_i since
      subst hstate
      have hok := (hr (.ok .nothing)).mpr rfl
      refine ⟨since, hd.events, iff_of_true hok fun uri id hu hn => ?_, fun _ => h.isCleared hs hd, fun hn => absurd hok hn⟩
      exact List.not_mem_nil (hd.ahead uri id hu hn)
  | missing hd hnone =>
      rename_i uri rest since
      have hstopped := stoppedAt_of_shutsDown hd hk hnone
      have hfailed : (task, .ok .nothing) ∉ (run s (before ++ .turn :: after)).ended := fun hok => by
        cases (hr _).mp hok
      obtain ⟨id, hid, hn⟩ := hstopped.removed
      exact ⟨since, hd.events, iff_of_false hfailed fun hall => hall uri id hid hn, fun hok => absurd hok hfailed,
        fun _ => ⟨uri, (hr _).mpr rfl, hstopped⟩⟩

/-! ### Two shutdowns -/

/-- Whether a shutdown is the next task to run, and runs for the first time. -/
def asksNext (s : Server) (task : TaskId) : Bool :=
  match s.loop.ready, s.task? task with
  | ⟨t, .go, 0⟩ :: _, some (.created .shutdown) => t = task
  | _, _ => false

theorem ready_of_asksNext {s : Server} (h : s.asksNext task) :
    (∃ rest, s.loop.ready = ⟨task, .go, 0⟩ :: rest) ∧ s.task? task = some (.created .shutdown) := by
  unfold asksNext at h
  split at h
  · next hready hcreated =>
      obtain rfl := of_decide_eq_true h
      exact ⟨⟨_, hready⟩, hcreated⟩
  · cases h

/-- What has to be looked at to see that a server was shut down. -/
theorem isShutDown_of_check (uris : List String) (hd : s.disk.scratches = 0)
    (hb : (∀ move ∈ before, IsOfRegistry move) ∧ (run s before).asksNext task ∧
      ((run s before).ended.all fun t => t.1 ≠ task) ∧
      ((run s before).tasks.all fun t => t.1 = task || t.2.accompanies) ∧
      ∀ id < (run s before).state.workspaces.length, ∃ uri ∈ uris, (run s before).state.registered.get? uri = some id)
    (ha : (∀ move ∈ after, Accompanies move) ∧ ¬Abrupt (run s (before ++ .turn :: after)) ∧
      (run s (before ++ .turn :: after)).tasks.length = 0) : IsShutDown s before after task := by
  obtain ⟨hregistry, hnext, hlasting, hbeside, hregistered⟩ := hb
  obtain ⟨haccompanied, hsmooth, hdone⟩ := ha
  obtain ⟨hready, hcreated⟩ := ready_of_asksNext hnext
  refine ⟨hd, hregistry, hready, hcreated, fun r hr => ?_, fun t x hx hne => ?_, not_hasWoken_of_registered fun id hid => ?_,
    haccompanied, hsmooth, List.length_eq_zero_iff.mp hdone⟩
  · exact of_decide_eq_true (List.all_eq_true.mp hlasting _ hr) rfl
  · exact (Bool.or_eq_true_iff.mp (List.all_eq_true.mp hbeside _ hx)).resolve_left fun he => hne (of_decide_eq_true he)
  · obtain ⟨uri, _, hu⟩ := hregistered id hid
    exact ⟨uri, hu⟩

/-- Whether a task came back with nothing, or else failed for want of a certain key. -/
def cameTo (s : Server) (task : TaskId) (key? : Option String) : Bool :=
  s.ended.any fun t => match t.2, key? with
    | .ok .nothing, none => t.1 = task
    | .error (.key name), some key => t.1 = task && name = key
    | _, _ => false

theorem mem_ended_of_cameTo {s : Server} (key? : Option String) (h : s.cameTo task key?) :
    (task, match key? with | none => .ok .nothing | some key => .error (.key key)) ∈ s.ended := by
  obtain ⟨⟨t, r⟩, hmem, ht⟩ := List.any_eq_true.mp h
  dsimp only at ht
  split at ht
  · obtain rfl := of_decide_eq_true ht
    exact hmem
  · obtain ⟨hi, hkey⟩ := Bool.and_eq_true_iff.mp ht
    obtain rfl := of_decide_eq_true hi
    obtain rfl := of_decide_eq_true hkey
    exact hmem
  · cases ht

/-- A server on a machine with a story in each of three folders. -/
def threeFolders : ServerState where
  disk := { files := ⟨⟨[(["p"], .directory), (["p", "a.ink"], .file ByteArray.empty), (["q"], .directory),
    (["q", "b.ink"], .file ByteArray.empty), (["r"], .directory), (["r", "c.ink"], .file ByteArray.empty),
    (["m"], .directory)]⟩⟩ }
  policy := { extensions := [".ink"], tempRoot := .ofText "/m" }

/-- A mirror is being made once more when the server is asked to shut down. -/
def closingAmidCreation : List (Session.Move External) :=
  openingFolder ++ [.closes "create", .outside (.asks (.initialize_ 0)), .turn, .outside (.asks .shutdown)]

/-- The mirror that was being made is deleted as well. -/
theorem shutdown_amid_creation_leaves_nothing :
    IsCleared (run (sample []) closingAmidCreation).state
        (run (sample []) (closingAmidCreation ++ .turn :: [.passes 1 .go, .turn])).state ∧
      .deleted (sampleMirror 2).path ∈
        (run (sample []) (closingAmidCreation ++ .turn :: [.passes 1 .go, .turn])).state.disk.history := by
  have h : IsShutDown (sample []) closingAmidCreation [.passes 1 .go, .turn] 2 := by
    exact isShutDown_of_check ["file:///p"] rfl (by decide +kernel) (by decide +kernel)
  have hended : (2, .ok .nothing) ∈ (run (sample []) (closingAmidCreation ++ .turn :: [.passes 1 .go, .turn])).ended :=
    mem_ended_of_cameTo none (by decide +kernel)
  obtain ⟨since, _, _, hcleared, _⟩ := shutdown_finishes_iff_nothing_was_removed (isFresh_sample []) h
  have hleft := hcleared hended
  exact ⟨hleft, hleft.deleted _ (isMade_sampleMirror (by decide) (by decide +kernel))⟩

/-- Three folders are opened, and the server is asked to shut down while no mirror can be deleted at once. -/
def closingThree : List (Session.Move External) :=
  [.outside (.asks (.add ⟨"file:///p", ""⟩)), .turn, .outside (.asks (.add ⟨"file:///q", ""⟩)), .turn,
    .outside (.asks (.add ⟨"file:///r", ""⟩)), .turn, .closes "delete", .outside (.asks .shutdown)]

/-- The second folder is removed while the first mirror is being deleted. -/
def removingSecond : List (Session.Move External) :=
  [.outside (.asks (.remove "file:///q")), .turn, .passes 3 .go, .turn, .passes 4 .go, .turn]

/-- A shutdown does not finish when a folder is removed before it comes to it: it fails, and the folder behind stays
registered and ready, with its mirror. -/
theorem removal_amid_shutdown_leaves_folders_behind :
    IsShutDown threeFolders closingThree removingSecond 3 ∧
      (3, .error (.key "file:///q")) ∈ (run threeFolders (closingThree ++ .turn :: removingSecond)).ended ∧
      (run threeFolders (closingThree ++ .turn :: removingSecond)).state.registered.get? "file:///r" = some 2 ∧
      (run threeFolders (closingThree ++ .turn :: removingSecond)).state.workspaces.map
        (fun w => (w.state, w.mirror)) = [(.removed, none), (.removed, none), (.ready, some (sampleMirror 3))] ∧
      .deleted (sampleMirror 3).path ∉
        (run threeFolders (closingThree ++ .turn :: removingSecond)).state.disk.history := by
  have h : IsShutDown threeFolders closingThree removingSecond 3 := by
    exact isShutDown_of_check ["file:///p", "file:///q", "file:///r"] rfl (by decide +kernel) (by decide +kernel)
  have hended : (3, .error (.key "file:///q")) ∈ (run threeFolders (closingThree ++ .turn :: removingSecond)).ended :=
    mem_ended_of_cameTo (some "file:///q") (by decide +kernel)
  refine ⟨h, hended, by decide +kernel, by decide +kernel, fun hdeleted => ?_⟩
  exact absurd (wasDeleted_iff.mpr hdeleted) (by decide +kernel)

end Server

end InkServer
