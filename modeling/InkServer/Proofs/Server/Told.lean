import InkServer.Proofs.Server.Runs
import InkServer.Proofs.Server.Workspaces

/-!
# What the client was told last

Publications stand in the record before what is kept of the turn that made them, so that the last one about
a document can be put down to a workspace. What a workspace told the client last and did not take back is
about documents that it has on its list.
-/

namespace InkServer

/-- The diagnostics of a document that an event tells the client of. -/
def Event.told? (uri : String) : Event → Option (List Diagnostic)
  | .published p => if p.uri = uri then some p.diagnostics else none
  | .handed u diagnostics => if u = uri then some diagnostics else none
  | _ => none

/-- The last diagnostics of a document in a record that is read backwards, and who gave them: the workspace
that comes next in the record. -/
def lastTold (uri : String) (teller : Option WorkspaceId) :
    List Event → Option (Option WorkspaceId × List Diagnostic)
  | [] => none
  | e :: earlier =>
    match e.told? uri with
    | some diagnostics => some (teller, diagnostics)
    | none => lastTold uri (e.workspace?.or teller) earlier

namespace ServerState

/-- The diagnostics that the client was told last of a document, and by the turn of which workspace. -/
def told (s : ServerState) (uri : String) : Option (Option WorkspaceId × List Diagnostic) :=
  lastTold uri none s.events.reverse

/-- Whether what is published reaches anybody. -/
def isHeard (s : ServerState) : Bool := s.publisher.all (·.isConnected)

end ServerState

/-! ## Reading a record -/

section

variable {uri : String} {teller : Option WorkspaceId} {record earlier : List Event}

theorem Event.told?_of_isPublication {e : Event} (h : ServerState.IsPublication e = false) :
    e.told? uri = none := by
  cases e <;> first | rfl | cases h

/-- A record without publications only says who may have told what comes before. -/
theorem lastTold_append_of_none (uri : String) (teller : Option WorkspaceId) (record earlier : List Event)
    (h : ∀ e ∈ record, e.told? uri = none) :
    ∃ teller', lastTold uri teller (record ++ earlier) = lastTold uri teller' earlier := by
  induction record generalizing teller with
  | nil => exact ⟨teller, rfl⟩
  | cons e rest ih =>
      obtain ⟨teller', h'⟩ := ih (e.workspace?.or teller) fun e he => h e (List.mem_cons_of_mem _ he)
      refine ⟨teller', ?_⟩
      rw [List.cons_append, lastTold, h e List.mem_cons_self]
      exact h'

/-- Publications are all by the same workspace, whichever that is. -/
theorem lastTold_append_of_isPublication (h : ∀ e ∈ record, ServerState.IsPublication e) :
    lastTold uri teller (record ++ earlier) =
      ((record.findSome? (·.told? uri)).map fun ds => (teller, ds)).or (lastTold uri teller earlier) := by
  induction record with
  | nil => rfl
  | cons e rest ih =>
      rw [List.cons_append, lastTold, List.findSome?_cons]
      cases he : e.told? uri with
      | some ds => rfl
      | none =>
          rw [Workspace.workspace?_of_isPublication (h e List.mem_cons_self)]
          exact ih fun e he => h e (List.mem_cons_of_mem _ he)

end

/-! ## What publishing tells -/

namespace Publisher

variable {p : Publisher} {documents : Documents} {uri : String} {diagnostics : List Diagnostic}

/-- The version that goes with the diagnostics of a document: that of the document if it is seen to be open. -/
def versionOf (p : Publisher) (documents : Documents) (uri : String) : Option Int :=
  if p.seesDocuments then (documents.get? uri).map (·.version) else none

/-- Whatever is sent was asked for, and somebody is connected to send it. -/
theorem publish_eq_some {q : Publication} (h : (p.publish documents uri diagnostics).1 = some q) :
    p.isConnected ∧ q = ⟨uri, p.versionOf documents uri, diagnostics⟩ := by
  unfold publish at h
  rw [← versionOf] at h
  generalize p.versionOf documents uri = version at h ⊢
  dsimp only at h
  split at h
  · cases h
  · rename_i hc
    split at h
    · cases h
    · cases h
      exact ⟨by simpa using hc, rfl⟩

/-- That a document has no diagnostics is always sent if anybody is connected. -/
theorem publish_nil (hc : p.isConnected) :
    (p.publish documents uri []).1 = some ⟨uri, p.versionOf documents uri, []⟩ := by
  unfold publish
  rw [if_neg (by simpa using hc)]
  rfl

theorem isConnected_publish : (p.publish documents uri diagnostics).2.isConnected = p.isConnected := by
  unfold publish
  rw [← versionOf]
  generalize p.versionOf documents uri = version
  dsimp only
  split
  · rfl
  · split <;> rfl

end Publisher

namespace ServerState

variable {s s' : ServerState} {uri : String} {lists : List (String × List Diagnostic)}

@[simp] theorem isHeard_publishing (s : ServerState) (uri : String) (ds : List Diagnostic) :
    (s.publishing uri ds).isHeard = s.isHeard := by
  unfold publishing
  split
  · rfl
  · rename_i p hp
    unfold isHeard
    rw [hp]
    exact Publisher.isConnected_publish

@[simp] theorem isHeard_publishingAll (s : ServerState) (lists : List (String × List Diagnostic)) :
    (s.publishingAll lists).isHeard = s.isHeard := by
  induction lists generalizing s with
  | nil => rfl
  | cons l rest ih => exact (ih _).trans (isHeard_publishing s l.1 l.2)

/-- What handing over one list tells: nothing but that list, and an empty one for sure if anybody hears. -/
theorem publishing_tells (s : ServerState) (uri : String) (ds : List Diagnostic) :
    ∃ record, (s.publishing uri ds).events = s.events ++ record ∧
      (∀ e ∈ record, IsPublication e ∧ s.isHeard ∧ ∀ u d, e.told? u = some d → u = uri ∧ d = ds) ∧
      (s.isHeard → ds = [] → ∃ e ∈ record, e.told? uri = some []) := by
  unfold publishing isHeard
  split
  · rename_i hp
    refine ⟨[.handed uri ds], rfl, fun e he => ?_, fun _ h => ?_⟩
    · rw [List.mem_singleton.mp he, hp]
      refine ⟨rfl, rfl, fun u d h => ?_⟩
      simp only [Event.told?] at h
      split at h
      · rename_i hu
        exact ⟨hu.symm, (Option.some.inj h).symm⟩
      · cases h
    · exact ⟨_, List.mem_singleton_self _, by rw [Event.told?, if_pos rfl, h]⟩
  · rename_i p hp
    refine ⟨((p.publish s.documents uri ds).1.map Event.published).toList, rfl, fun e he => ?_, fun hc h => ?_⟩
    · obtain ⟨q, hq, rfl⟩ := Option.map_eq_some_iff.mp (Option.mem_toList.mp he)
      obtain ⟨hc, rfl⟩ := Publisher.publish_eq_some hq
      rw [hp]
      refine ⟨rfl, hc, fun u d h => ?_⟩
      simp only [Event.told?] at h
      split at h
      · rename_i hu
        exact ⟨hu.symm, (Option.some.inj h).symm⟩
      · cases h
    · rw [hp] at hc
      subst h
      rw [Publisher.publish_nil hc]
      exact ⟨_, List.mem_singleton_self _, by rw [Event.told?, if_pos rfl]⟩

/-- What handing over lists tells: nothing but those lists, and the empty ones for sure if anybody hears. -/
theorem publishingAll_tells (s : ServerState) (lists : List (String × List Diagnostic)) :
    ∃ record, (s.publishingAll lists).events = s.events ++ record ∧
      (∀ e ∈ record, IsPublication e ∧ s.isHeard ∧ ∀ u d, e.told? u = some d → (u, d) ∈ lists) ∧
      (s.isHeard → ∀ u, (u, []) ∈ lists → ∃ e ∈ record, e.told? u = some []) := by
  induction lists generalizing s with
  | nil =>
      exact ⟨[], (List.append_nil _).symm, fun _ h => absurd h List.not_mem_nil,
        fun _ _ h => absurd h List.not_mem_nil⟩
  | cons l rest ih =>
      obtain ⟨r, he, hr, hn⟩ := publishing_tells s l.1 l.2
      obtain ⟨r', he', hr', hn'⟩ := ih (s.publishing l.1 l.2)
      rw [isHeard_publishing] at hr' hn'
      refine ⟨r ++ r', ?_, fun e hm => ?_, fun hc u hu => ?_⟩
      · show ((s.publishing l.1 l.2).publishingAll rest).events = _
        rw [he', he, List.append_assoc]
      · rcases List.mem_append.mp hm with hm | hm
        · obtain ⟨hp, hc, ht⟩ := hr e hm
          refine ⟨hp, hc, fun u d h => ?_⟩
          obtain ⟨rfl, rfl⟩ := ht u d h
          exact List.mem_cons_self
        · obtain ⟨hp, hc, ht⟩ := hr' e hm
          exact ⟨hp, hc, fun u d h => List.mem_cons_of_mem _ (ht u d h)⟩
      · rcases List.mem_cons.mp hu with rfl | hu
        · obtain ⟨e, hm, h⟩ := hn hc rfl
          exact ⟨e, List.mem_append_left _ hm, h⟩
        · obtain ⟨e, hm, h⟩ := hn' hc u hu
          exact ⟨e, List.mem_append_right _ hm, h⟩

theorem mem_empties {uris : List String} {ds : List Diagnostic} :
    (uri, ds) ∈ empties uris ↔ uri ∈ uris ∧ ds = [] := by
  unfold empties Removal.sorted
  rw [List.mem_map]
  constructor
  · rintro ⟨u, hu, h⟩
    cases h
    exact ⟨Text.mem_inOrder.mp hu, rfl⟩
  · rintro ⟨hu, rfl⟩
    exact ⟨uri, Text.mem_inOrder.mpr hu, rfl⟩

/-! ## Whose the diagnostics are -/

/-- What the client was told last is accounted for: where there are diagnostics, the workspace that told of
them has the document on its list. -/
structure Accounted (s : ServerState) : Prop where
  /-- Nothing was told without saying by whom. -/
  settled : ∀ uri teller, lastTold uri teller s.events.reverse = s.told uri
  listed : ∀ uri id ds, s.told uri = some (some id, ds) → ds ≠ [] →
    ∃ w, s.workspaces[id]? = some w ∧ uri ∈ w.published
  unheard : s.isHeard = false → ∀ e ∈ s.events, IsPublication e = false

/-- A step that tells nothing, and in which workspaces keep their lists. -/
theorem Accounted.silent (h : s.Accounted) {record : List Event} (he : s'.events = s.events ++ record)
    (hp : s'.publisher = s.publisher) (hr : ∀ e ∈ record, IsPublication e = false)
    (hw : ∀ (id : WorkspaceId) (w : Workspace), s.workspaces[id]? = some w →
      ∃ w' : Workspace, s'.workspaces[id]? = some w' ∧ w'.published = w.published) :
    s'.Accounted := by
  have htold : ∀ uri teller, lastTold uri teller s'.events.reverse = s.told uri := fun uri teller => by
    rw [he, List.reverse_append]
    obtain ⟨teller', ht⟩ := lastTold_append_of_none uri teller record.reverse s.events.reverse
      fun e hm => Event.told?_of_isPublication (hr e (List.mem_reverse.mp hm))
    rw [ht, h.settled]
  refine ⟨fun uri teller => (htold uri teller).trans (htold uri none).symm, fun uri id ds ht hds => ?_,
    fun hh e hm => ?_⟩
  · obtain ⟨w, hid, hu⟩ := h.listed uri id ds ((htold uri none).symm.trans ht) hds
    obtain ⟨w', hid', hpub⟩ := hw id w hid
    exact ⟨w', hid', hpub ▸ hu⟩
  · rw [he] at hm
    rcases List.mem_append.mp hm with hm | hm
    · exact h.unheard (by rwa [isHeard, hp] at hh) e hm
    · exact hr e hm

/-- Whoever was told something heard it. -/
theorem Accounted.isHeard_of_told (h : s.Accounted) {telling : Option WorkspaceId × List Diagnostic}
    (ht : s.told uri = some telling) : s.isHeard = true := by
  cases hh : s.isHeard with
  | true => rfl
  | false =>
      obtain ⟨teller, hn⟩ := lastTold_append_of_none uri none s.events.reverse []
        fun e hm => Event.told?_of_isPublication (h.unheard hh e (List.mem_reverse.mp hm))
      rw [List.append_nil] at hn
      rw [told, hn] at ht
      cases ht

/-- A turn in which a workspace tells of the documents on its new list, and takes back what it told of the
others. -/
theorem Accounted.moved (h : s.Accounted) {id : WorkspaceId} {w : Workspace} (w' : Workspace)
    (lists : List (String × List Diagnostic)) (e : Event)
    (hw : s.workspaces[id]? = some w) (he : e.workspace? = some id) (hn : IsPublication e = false)
    (htells : ∀ u d, (u, d) ∈ lists → u ∈ w'.published ∨ d = [])
    (htakes : ∀ u ∈ w.published, u ∈ w'.published ∨ (u, []) ∈ lists) :
    (s.moved id w' lists [e]).Accounted := by
  obtain ⟨publications, hevents, hpub, hempty⟩ := publishingAll_tells s lists
  have hlt := (List.getElem?_eq_some_iff.mp hw).1
  have htold : ∀ uri teller, lastTold uri teller (s.moved id w' lists [e]).events.reverse =
      ((publications.reverse.findSome? (·.told? uri)).map fun ds => (some id, ds)).or (s.told uri) := by
    intro uri teller
    rw [moved_events, hevents, List.reverse_append, List.reverse_append]
    show lastTold uri teller (e :: (publications.reverse ++ s.events.reverse)) = _
    rw [lastTold, Event.told?_of_isPublication hn, he]
    dsimp only
    rw [Option.some_or, lastTold_append_of_isPublication fun e hm => (hpub e (List.mem_reverse.mp hm)).1, h.settled]
  refine ⟨fun uri teller => (htold uri teller).trans (htold uri none).symm, fun uri id' ds ht hds => ?_,
    fun hh e' hm => ?_⟩
  · rw [told, htold uri none] at ht
    rw [moved_workspaces]
    cases hf : publications.reverse.findSome? (·.told? uri) with
    | some d =>
        rw [hf] at ht
        cases ht
        obtain ⟨e', hm, htold'⟩ := List.exists_of_findSome?_eq_some hf
        have hl := (hpub e' (List.mem_reverse.mp hm)).2.2 uri ds htold'
        exact ⟨w', List.getElem?_set_self hlt, (htells uri ds hl).resolve_right hds⟩
    | none =>
        rw [hf] at ht
        obtain ⟨w₀, hw₀, hu⟩ := h.listed uri id' ds ht hds
        by_cases hid : id = id'
        · subst hid
          rw [hw] at hw₀
          cases hw₀
          refine ⟨w', List.getElem?_set_self hlt, ?_⟩
          rcases htakes uri hu with hu' | hu'
          · exact hu'
          · obtain ⟨e', hm, htold'⟩ := hempty (h.isHeard_of_told ht) uri hu'
            rw [List.findSome?_eq_none_iff.mp hf e' (List.mem_reverse.mpr hm)] at htold'
            cases htold'
        · exact ⟨w₀, by rw [List.getElem?_set_ne hid, hw₀], hu⟩
  · have hh' : s.isHeard = false := (isHeard_publishingAll s lists).symm.trans hh
    rw [moved_events, hevents] at hm
    rcases List.mem_append.mp hm with hm | hm
    · rcases List.mem_append.mp hm with hm | hm
      · exact h.unheard hh' e' hm
      · rw [(hpub e' hm).2.1] at hh'
        cases hh'
    · rw [List.mem_singleton.mp hm]
      exact hn

/-- A workspace that replaces what was published for it keeps account of it. -/
theorem Accounted.replacements (h : s.Accounted) {id : WorkspaceId} {w : Workspace} {e : Event}
    {diagnostics : List AddressedDiagnostic} (hw : s.workspaces[id]? = some w)
    (he : e.workspace? = some id) (hn : IsPublication e = false) :
    (s.moved id { w with published := (groupByUri diagnostics).keys } (ServerState.replacements w diagnostics)
      [e]).Accounted := by
  refine h.moved _ _ _ hw he hn (fun u d hl => ?_) fun u hu => ?_
  · rcases List.mem_append.mp hl with hl | hl
    · exact .inr (mem_empties.mp hl).2
    · exact .inl (List.mem_map.mpr ⟨_, hl, rfl⟩)
  · by_cases hk : (groupByUri diagnostics).contains u
    · obtain ⟨v, hv⟩ := Option.isSome_iff_exists.mp hk
      exact .inl (Dict.mem_keys_of_get? hv)
    · refine .inr (List.mem_append_left _ (mem_empties.mpr ⟨List.mem_filter.mpr ⟨hu, ?_⟩, rfl⟩))
      simpa using hk

theorem Accounted.change (h : s.Accounted) (hc : Change s s') : s'.Accounted := by
  have hkeep : ∀ (id : WorkspaceId) (w : Workspace), s.workspaces[id]? = some w →
      ∃ w' : Workspace, s.workspaces[id]? = some w' ∧ w'.published = w.published := fun _ w hw => ⟨w, hw, rfl⟩
  have hset : ∀ {id : WorkspaceId} {w w' : Workspace}, s.workspaces[id]? = some w → w'.published = w.published →
      ∀ (id' : WorkspaceId) (w₀ : Workspace), s.workspaces[id']? = some w₀ →
        ∃ w₁ : Workspace, (s.workspaces.set id w')[id']? = some w₁ ∧ w₁.published = w₀.published := by
    intro id w w' hw hp id' w₀ hw₀
    by_cases hid : id = id'
    · subst hid
      rw [hw] at hw₀
      cases hw₀
      exact ⟨w', List.getElem?_set_self (List.getElem?_eq_some_iff.mp hw).1, hp⟩
    · exact ⟨w₀, by rw [List.getElem?_set_ne hid, hw₀], rfl⟩
  cases hc with
  | aside hs =>
      exact h.silent (by rw [hs.events, List.append_nil] : s'.events = s.events ++ []) hs.publisher
        (fun _ h => absurd h List.not_mem_nil) (by rw [hs.workspaces]; exact hkeep)
  | works | closes =>
      exact h.silent (List.append_nil _).symm rfl (fun _ h => absurd h List.not_mem_nil) hkeep
  | @notes e hp =>
      refine h.silent rfl rfl (fun e' hm => ?_) hkeep
      rw [List.mem_singleton.mp hm]
      cases e <;> first | rfl | cases hp
  | opens | receives =>
      refine h.silent rfl rfl (fun e' hm => ?_) hkeep
      rw [List.mem_singleton.mp hm]
      rfl
  | registers =>
      refine h.silent (List.append_nil _).symm rfl (fun _ h => absurd h List.not_mem_nil) fun id w hw => ?_
      exact ⟨w, by rw [List.getElem?_append_left (List.getElem?_eq_some_iff.mp hw).1, hw], rfl⟩
  | turns hw ht =>
      cases ht with
      | delivers => exact h.replacements hw rfl rfl
      | _ =>
          exact h.silent rfl rfl (by simp [IsPublication]) (hset hw rfl)
  | removes hr hw =>
      rename_i uri id w
      have hm := h.moved { w.enter .removed with initializations := w.initializations + 1, published := [] }
        (empties w.published) (.removed id) hw rfl rfl
        (fun u d hl => .inr (mem_empties.mp hl).2) fun u hu => .inr (mem_empties.mpr ⟨hu, rfl⟩)
      exact ⟨hm.settled, hm.listed, hm.unheard⟩
  | dismisses hr hw =>
      exact h.silent rfl rfl (by simp) (hset hw rfl)

/-- What the client was told is accounted for at all times. -/
theorem Steps.accounted {allowed : Foreign → Prop} (h : Steps allowed s s') (hs : s.Accounted) :
    s'.Accounted := by
  induction h with
  | refl => exact hs
  | tail _ h ih =>
      cases h with
      | own h => exact ih.change h
      | foreign => exact ⟨ih.settled, ih.listed, ih.unheard⟩

end ServerState

/-- Nothing was told by a server that nobody has used. -/
theorem Server.IsFresh.accounted {s : ServerState} (h : IsFresh s) : s.Accounted := by
  refine ⟨fun uri teller => ?_, fun uri id ds ht => ?_, fun _ e hm => ?_⟩
  · rw [ServerState.told, h.events]
    rfl
  · rw [ServerState.told, h.events] at ht
    cases ht
  · rw [h.events] at hm
    cases hm

end InkServer
