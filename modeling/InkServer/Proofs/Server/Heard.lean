import InkServer.Proofs.Server.Told

/-!
# What the client hears

What is kept of the diagnostics that were published last is what the client was told last. So a list of
diagnostics that is not sent again has been heard already, and after a report was delivered the client has
heard exactly what the report says.
-/

namespace InkServer

/-- What becomes of a list of diagnostics: there is nobody to send it, it is known already, or it is sent and
kept. -/
theorem Publisher.publish_cases (p : Publisher) (documents : Documents) (uri : String) (ds : List Diagnostic) :
    (p.isConnected = false ∧ p.publish documents uri ds = (none, p)) ∨
    (p.last.get? uri = some (p.versionOf documents uri, ds) ∧ p.publish documents uri ds = (none, p)) ∨
    p.publish documents uri ds = (some ⟨uri, p.versionOf documents uri, ds⟩, { p with
      last := if ds.isEmpty then p.last.erase uri else p.last.insert uri (p.versionOf documents uri, ds) }) := by
  unfold publish
  rw [← versionOf]
  generalize p.versionOf documents uri = version
  dsimp only
  split
  · rename_i hc
    exact .inl ⟨by simpa using hc, rfl⟩
  · split
    · rename_i hknown
      rw [Bool.and_eq_true, decide_eq_true_eq] at hknown
      exact .inr (.inl ⟨hknown.2, rfl⟩)
    · exact .inr (.inr rfl)

namespace ServerState

/-- The diagnostics of a document that the client was told last. -/
def heard (s : ServerState) (uri : String) : Option (List Diagnostic) :=
  s.events.reverse.findSome? (·.told? uri)

/-- What is kept of the diagnostics that were published last is what the client was told. -/
def Agreed (s : ServerState) : Prop :=
  ∀ p, s.publisher = some p → ∀ uri version ds, p.last.get? uri = some (version, ds) → s.heard uri = some ds

variable {s s' : ServerState} {uri u : String} {ds : List Diagnostic} {record : List Event}
  {lists : List (String × List Diagnostic)}

theorem map_lastTold (teller : Option WorkspaceId) (events : List Event) :
    (lastTold uri teller events).map Prod.snd = events.findSome? (·.told? uri) := by
  induction events generalizing teller with
  | nil => rfl
  | cons e earlier ih =>
      rw [lastTold, List.findSome?_cons]
      cases e.told? uri with
      | some ds => rfl
      | none => exact ih _

/-- What was told last was heard, whoever told it. -/
theorem map_told (s : ServerState) (uri : String) : (s.told uri).map Prod.snd = s.heard uri := map_lastTold _ _

theorem heard_of_events_eq (he : s'.events = s.events ++ record) :
    s'.heard uri = (record.reverse.findSome? (·.told? uri)).or (s.heard uri) := by
  rw [heard, he, List.reverse_append, List.findSome?_append]
  rfl

/-- Where nothing is published nothing else is heard. -/
theorem heard_of_silent (he : s'.events = s.events ++ record) (hr : ∀ e ∈ record, IsPublication e = false) :
    s'.heard uri = s.heard uri := by
  have hnone : record.reverse.findSome? (·.told? uri) = none :=
    List.findSome?_eq_none_iff.mpr fun e hm => Event.told?_of_isPublication (hr e (List.mem_reverse.mp hm))
  rw [heard_of_events_eq he, hnone, Option.none_or]

/-- Where nothing is published nobody tells anything else. -/
theorem Accounted.told_of_silent (h : s.Accounted) (he : s'.events = s.events ++ record)
    (hr : ∀ e ∈ record, IsPublication e = false) : s'.told uri = s.told uri := by
  rw [told, he, List.reverse_append]
  obtain ⟨teller, ht⟩ := lastTold_append_of_none uri none record.reverse s.events.reverse
    fun e hm => Event.told?_of_isPublication (hr e (List.mem_reverse.mp hm))
  rw [ht, h.settled]

theorem Agreed.silent (h : s.Agreed) (hp : s'.publisher = s.publisher) (he : s'.events = s.events ++ record)
    (hr : ∀ e ∈ record, IsPublication e = false) : s'.Agreed := by
  intro p hp' uri version ds hl
  rw [heard_of_silent he hr]
  exact h p (hp ▸ hp') uri version ds hl

/-! ## Publishing -/

/-- What becomes of a list of diagnostics that is handed over: it is handed on, it is lost because nobody is
there to send it, it is known already, or it is sent and kept. -/
theorem publishing_cases (s : ServerState) (uri : String) (ds : List Diagnostic) :
    (s.publisher = none ∧ s.publishing uri ds = { s with events := s.events ++ [.handed uri ds] }) ∨
    (s.isHeard = false ∧ s.publishing uri ds = s) ∨
    ∃ p version, s.publisher = some p ∧
      ((p.last.get? uri = some (version, ds) ∧ s.publishing uri ds = s) ∨
        s.publishing uri ds = { s with
          publisher := some { p with
            last := if ds.isEmpty then p.last.erase uri else p.last.insert uri (version, ds) }
          events := s.events ++ [.published ⟨uri, version, ds⟩] }) := by
  cases hp : s.publisher with
  | none =>
      refine .inl ⟨rfl, ?_⟩
      rw [publishing, hp]
  | some p =>
      have hpublishing : s.publishing uri ds = { s with
          publisher := some (p.publish s.documents uri ds).2
          events := s.events ++ ((p.publish s.documents uri ds).1.map Event.published).toList } := by
        rw [publishing, hp]
      have hsame : ({ s with publisher := some p, events := s.events ++ [] } : ServerState) = s := by
        rw [← hp, List.append_nil]
      rw [hpublishing]
      rcases p.publish_cases s.documents uri ds with ⟨hc, he⟩ | ⟨hl, he⟩ | he
      · rw [he]
        refine .inr (.inl ⟨?_, hsame⟩)
        rw [isHeard, hp]
        exact hc
      · rw [he]
        exact .inr (.inr ⟨p, _, rfl, .inl ⟨hl, hsame⟩⟩)
      · rw [he]
        exact .inr (.inr ⟨p, p.versionOf s.documents uri, rfl, .inr rfl⟩)

theorem Agreed.publishing (h : s.Agreed) (uri : String) (ds : List Diagnostic) :
    (s.publishing uri ds).Agreed := by
  rcases publishing_cases s uri ds with ⟨hp, he⟩ | ⟨_, he⟩ | ⟨p, version, hp, ⟨_, he⟩ | he⟩
  · rw [he]
    intro p hp'
    rw [hp] at hp'
    cases hp'
  · rw [he]
    exact h
  · rw [he]
    exact h
  · rw [he]
    rintro _ ⟨⟩ u version' ds' hl
    dsimp only at hl
    rw [heard_of_events_eq rfl, List.reverse_singleton, List.findSome?_singleton, Event.told?]
    dsimp only
    by_cases hu : uri = u
    · subst hu
      rw [if_pos rfl, Option.some_or]
      split at hl
      · rw [Dict.get?_erase_self] at hl
        cases hl
      · rw [Dict.get?_insert_self] at hl
        cases hl
        rfl
    · rw [if_neg hu, Option.none_or]
      refine h p hp u version' ds' ?_
      split at hl
      · rwa [Dict.get?_erase_of_ne _ hu] at hl
      · rwa [Dict.get?_insert_of_ne _ _ hu] at hl

/-- What is handed over is heard, if anybody hears, and nothing else. -/
theorem heard_publishing (h : s.Agreed) (hh : s.isHeard) (uri : String) (ds : List Diagnostic) (u : String) :
    (s.publishing uri ds).heard u = if uri = u then some ds else s.heard u := by
  have hone : ∀ e : Event, (∀ u, e.told? u = if uri = u then some ds else none) →
      ({ s with events := s.events ++ [e] } : ServerState).heard u = if uri = u then some ds else s.heard u := by
    intro e he
    rw [heard_of_events_eq rfl, List.reverse_singleton, List.findSome?_singleton, he]
    split <;> simp
  rcases publishing_cases s uri ds with ⟨_, he⟩ | ⟨hn, _⟩ | ⟨p, version, hp, ⟨hl, he⟩ | he⟩
  · rw [he]
    exact hone _ fun u => rfl
  · rw [hn] at hh
    cases hh
  · rw [he]
    split
    · rename_i hu
      exact hu ▸ h p hp uri version ds hl
    · rfl
  · rw [he]
    exact hone _ fun u => rfl

theorem Agreed.publishingAll (h : s.Agreed) (lists : List (String × List Diagnostic)) :
    (s.publishingAll lists).Agreed := by
  induction lists generalizing s with
  | nil => exact h
  | cons l rest ih => exact ih (h.publishing l.1 l.2)

theorem heard_publishingAll_of_not_mem (h : s.Agreed) (hh : s.isHeard) (hu : ∀ ds, (u, ds) ∉ lists) :
    (s.publishingAll lists).heard u = s.heard u := by
  induction lists generalizing s with
  | nil => rfl
  | cons l rest ih =>
      have hne : l.1 ≠ u := fun he => hu l.2 (he ▸ List.mem_cons_self)
      refine (ih (h.publishing l.1 l.2) (by rwa [isHeard_publishing]) fun ds hm =>
        hu ds (List.mem_cons_of_mem _ hm)).trans ?_
      rw [heard_publishing h hh, if_neg hne]

/-- Of a document that comes with only one list of diagnostics that list is heard. -/
theorem heard_publishingAll (h : s.Agreed) (hh : s.isHeard) (hm : (u, ds) ∈ lists)
    (hu : ∀ ds', (u, ds') ∈ lists → ds' = ds) : (s.publishingAll lists).heard u = some ds := by
  induction lists generalizing s with
  | nil => cases hm
  | cons l rest ih =>
      have hagreed := h.publishing l.1 l.2
      have hheard : (s.publishing l.1 l.2).isHeard := by rwa [isHeard_publishing]
      by_cases hr : (u, ds) ∈ rest
      · exact ih hagreed hheard hr fun ds' hm' => hu ds' (List.mem_cons_of_mem _ hm')
      · have hnone : ∀ ds', (u, ds') ∉ rest := fun ds' hm' =>
          hr (hu ds' (List.mem_cons_of_mem _ hm') ▸ hm')
        refine (heard_publishingAll_of_not_mem hagreed hheard hnone).trans ?_
        rcases List.mem_cons.mp hm with hl | hm
        · rw [heard_publishing h hh, ← hl, if_pos rfl]
        · exact absurd hm hr

theorem Agreed.moved (h : s.Agreed) (id : WorkspaceId) (w : Workspace) (lists : List (String × List Diagnostic))
    (hr : ∀ e ∈ record, IsPublication e = false) : (s.moved id w lists record).Agreed :=
  (h.publishingAll lists).silent rfl (moved_events s id w lists record) hr

/-! ## At all times -/

theorem Agreed.change (h : s.Agreed) (hc : Change s s') : s'.Agreed := by
  have hnil : ∀ e ∈ ([] : List Event), IsPublication e = false := fun _ hm => absurd hm List.not_mem_nil
  have hone : ∀ e : Event, IsPublication e = false → ∀ e' ∈ [e], IsPublication e' = false :=
    fun e he e' hm => List.mem_singleton.mp hm ▸ he
  cases hc with
  | aside ha => exact h.silent ha.publisher (ha.events.trans (List.append_nil _).symm) hnil
  | works | closes | registers => exact h.silent rfl (List.append_nil _).symm hnil
  | @notes e hp =>
      refine h.silent rfl rfl (hone e ?_)
      cases e <;> first | rfl | cases hp
  | opens | receives => exact h.silent rfl rfl (hone _ rfl)
  | turns hw ht =>
      refine h.moved _ _ _ fun e hm => ?_
      cases he : IsPublication e with
      | false => rfl
      | true =>
          have hid := ht.workspace?_eq e hm
          rw [Workspace.workspace?_of_isPublication he] at hid
          cases hid
  | @removes uri id w =>
      exact h.moved id { w.enter .removed with initializations := w.initializations + 1, published := [] }
        (empties w.published) (hone (.removed id) rfl)
  | @dismisses uri id w => exact h.moved id (w.enter .removed) [] hnil

theorem Steps.agreed {allowed : Foreign → Prop} (h : Steps allowed s s') (hs : s.Agreed) : s'.Agreed := by
  induction h with
  | refl => exact hs
  | tail _ h ih =>
      cases h with
      | own h => exact ih.change h
      | foreign => exact ih

/-- Whether anybody hears never changes. -/
theorem Change.isHeard (h : Change s s') : s'.isHeard = s.isHeard := by
  cases h with
  | aside ha => rw [ServerState.isHeard, ha.publisher, ServerState.isHeard]
  | turns => exact isHeard_publishingAll s _
  | removes => exact isHeard_publishingAll s _
  | dismisses => exact isHeard_publishingAll s []
  | _ => rfl

/-! ## What a report tells -/

/-- The client has heard exactly some diagnostics of a workspace. -/
structure Tells (s : ServerState) (id : WorkspaceId) (diagnostics : List AddressedDiagnostic) : Prop where
  only : ∀ uri ds, s.told uri = some (some id, ds) → ds = findingsFor uri diagnostics
  all : ∀ uri, findingsFor uri diagnostics ≠ [] → s.heard uri = some (findingsFor uri diagnostics)

theorem Tells.silent {id : WorkspaceId} {diagnostics : List AddressedDiagnostic} (h : s.Tells id diagnostics)
    (hacc : s.Accounted) (he : s'.events = s.events ++ record) (hr : ∀ e ∈ record, IsPublication e = false) :
    s'.Tells id diagnostics := by
  refine ⟨fun uri ds ht => h.only uri ds ?_, fun uri hne => ?_⟩
  · rwa [hacc.told_of_silent he hr] at ht
  · rw [heard_of_silent he hr]
    exact h.all uri hne

theorem nodup_keys_groupByUri (diagnostics : List AddressedDiagnostic) : (groupByUri diagnostics).keys.Nodup := by
  suffices h : ∀ groups : Dict String (List Diagnostic), groups.keys.Nodup →
      (diagnostics.foldl addToGroup groups).keys.Nodup from h {} List.nodup_nil
  induction diagnostics with
  | nil => exact fun _ h => h
  | cons d rest ih => exact fun groups h => ih _ (Dict.nodup_keys_insert h _ _)

/-- The group of a document is what the diagnostics say about it. -/
theorem get?_groupByUri (diagnostics : List AddressedDiagnostic) (uri : String) :
    ((groupByUri diagnostics).get? uri).getD [] = findingsFor uri diagnostics := by
  unfold groupByUri
  rw [get?_foldl_addToGroup]
  rfl

/-- What takes the place of earlier diagnostics says of each of its documents what is found there. -/
theorem mem_replacements {w : Workspace} {diagnostics : List AddressedDiagnostic}
    (h : (uri, ds) ∈ ServerState.replacements w diagnostics) : ds = findingsFor uri diagnostics := by
  rw [← get?_groupByUri]
  rcases List.mem_append.mp h with h | h
  · obtain ⟨hm, rfl⟩ := mem_empties.mp h
    have hnone := (List.mem_filter.mp hm).2
    rw [Bool.not_eq_true', Dict.contains, Option.isSome_eq_false_iff, Option.isNone_iff_eq_none] at hnone
    rw [hnone]
    rfl
  · rw [Dict.get?_of_mem (nodup_keys_groupByUri diagnostics) h]
    rfl

/-- When diagnostics have taken the place of earlier ones the client has heard them. -/
theorem tells_moved (hacc : s.Accounted) (hagreed : s.Agreed) (hheard : s.isHeard) {id : WorkspaceId} {w : Workspace}
    {e : Event} {diagnostics : List AddressedDiagnostic} (hw : s.workspaces[id]? = some w)
    (he : e.workspace? = some id) (hn : IsPublication e = false) :
    (s.moved id { w with published := (groupByUri diagnostics).keys } (ServerState.replacements w diagnostics)
      [e]).Tells id diagnostics := by
  have hsilent : ∀ e' ∈ [e], IsPublication e' = false := fun e' hm => List.mem_singleton.mp hm ▸ hn
  have hafter : (s.moved id { w with published := (groupByUri diagnostics).keys }
      (ServerState.replacements w diagnostics) [e]).Accounted := hacc.replacements hw he hn
  have hall : ∀ uri ds, (groupByUri diagnostics).get? uri = some ds →
      (s.moved id { w with published := (groupByUri diagnostics).keys } (ServerState.replacements w diagnostics)
        [e]).heard uri = some (findingsFor uri diagnostics) := by
    intro uri ds hget
    rw [heard_of_silent (moved_events s id _ _ [e]) hsilent]
    have hfound := get?_groupByUri diagnostics uri
    rw [hget, Option.getD_some] at hfound
    refine heard_publishingAll hagreed hheard ?_ fun ds' hm => mem_replacements hm
    exact List.mem_append_right _ (hfound ▸ Dict.mem_of_lookup_eq_some hget)
  refine ⟨fun uri ds ht => ?_, fun uri hne => ?_⟩
  · cases hget : (groupByUri diagnostics).get? uri with
    | some items =>
        have hheard' := hall uri items hget
        rw [← map_told, ht] at hheard'
        exact Option.some.inj hheard'
    | none =>
        have hnone := get?_groupByUri diagnostics uri
        rw [hget, Option.getD_none] at hnone
        rw [← hnone]
        refine Decidable.byContradiction fun hds => ?_
        obtain ⟨w', hw', hu⟩ := hafter.listed uri id ds ht hds
        rw [moved_workspaces, List.getElem?_set_self (List.getElem?_eq_some_iff.mp hw).1] at hw'
        cases hw'
        obtain ⟨entry, hentry, rfl⟩ := List.mem_map.mp hu
        have hsome := Dict.get?_of_mem (nodup_keys_groupByUri diagnostics) hentry
        rw [hget] at hsome
        cases hsome
  · cases hget : (groupByUri diagnostics).get? uri with
    | some items => exact hall uri items hget
    | none =>
        have hnone := get?_groupByUri diagnostics uri
        rw [hget, Option.getD_none] at hnone
        exact absurd hnone.symm hne

end ServerState

end InkServer
