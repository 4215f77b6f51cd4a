import InkServer.Proofs.Server.Told

/-!
# Versions of documents

The version that goes with published diagnostics is that of the document at this moment, and a document has
a version that the client gave with one of its texts. So whatever version is published was on record
before.
-/

namespace InkServer

/-- The document that came with an event. -/
def Event.document? : Event → Option OpenDocument
  | .opened _ document | .received _ document => some document
  | _ => none

/-- Whether an event brought a version of a document. -/
def Event.Brings (e : Event) (uri : String) (version : Int) : Prop :=
  ∃ document, e.document? = some document ∧ document.uri = uri ∧ document.version = version

namespace ServerState

variable {s s' : ServerState}

/-- A publication gives no other version than the document has. -/
def Dated (documents : Documents) (e : Event) : Prop :=
  ∀ p, e = .published p → ∀ version, p.version = some version →
    ∃ t, documents.get? p.uri = some t ∧ t.version = version

theorem dated_of_not_publication {documents : Documents} {e : Event} (h : IsPublication e = false) :
    Dated documents e := by
  rintro p rfl
  cases h

theorem publishing_dated (s : ServerState) (uri : String) (ds : List Diagnostic) :
    (s.publishing uri ds).documents = s.documents ∧
      ∃ record, (s.publishing uri ds).events = s.events ++ record ∧ ∀ e ∈ record, Dated s.documents e := by
  unfold publishing
  split
  · refine ⟨rfl, _, rfl, fun e he => ?_⟩
    rw [List.mem_singleton.mp he]
    exact fun _ h => by cases h
  · rename_i p _
    refine ⟨rfl, _, rfl, fun e he q hq version hv => ?_⟩
    obtain ⟨q', hq', rfl⟩ := Option.map_eq_some_iff.mp (Option.mem_toList.mp he)
    cases hq
    obtain ⟨_, rfl⟩ := Publisher.publish_eq_some hq'
    simp only [Publisher.versionOf] at hv
    split at hv
    · exact Option.map_eq_some_iff.mp hv
    · cases hv

theorem publishingAll_dated (s : ServerState) (lists : List (String × List Diagnostic)) :
    (s.publishingAll lists).documents = s.documents ∧
      ∃ record, (s.publishingAll lists).events = s.events ++ record ∧ ∀ e ∈ record, Dated s.documents e := by
  induction lists generalizing s with
  | nil => exact ⟨rfl, [], (List.append_nil _).symm, fun _ h => absurd h List.not_mem_nil⟩
  | cons l rest ih =>
      obtain ⟨hd, r, he, hr⟩ := publishing_dated s l.1 l.2
      obtain ⟨hd', r', he', hr'⟩ := ih (s.publishing l.1 l.2)
      rw [hd] at hr'
      refine ⟨hd'.trans hd, r ++ r', ?_, fun e hm => (List.mem_append.mp hm).elim (hr e) (hr' e)⟩
      show ((s.publishing l.1 l.2).publishingAll rest).events = _
      rw [he', he, List.append_assoc]

/-- Versions are on record before they are used: those that open documents have, and those that went with
diagnostics. -/
structure Versioned (s : ServerState) : Prop where
  tracked : ∀ uri t, s.documents.get? uri = some t → ∃ e ∈ s.events, e.Brings uri t.version
  published : ∀ before p after version, s.events = before ++ .published p :: after →
    p.version = some version → ∃ e ∈ before, e.Brings p.uri version

/-- A step after which documents have versions that they had before or that it put on record. -/
theorem Versioned.grow (h : s.Versioned) {record : List Event} (he : s'.events = s.events ++ record)
    (ht : ∀ uri t', s'.documents.get? uri = some t' →
      (∃ t, s.documents.get? uri = some t ∧ t.version = t'.version) ∨ ∃ e ∈ record, e.Brings uri t'.version)
    (hp : ∀ e ∈ record, Dated s.documents e) : s'.Versioned := by
  refine ⟨fun uri t' ht' => ?_, fun before p after version hevents hv => ?_⟩
  · rw [he]
    rcases ht uri t' ht' with ⟨t, hget, hversion⟩ | ⟨e, hm, hb⟩
    · obtain ⟨e, hm, hb⟩ := h.tracked uri t hget
      exact ⟨e, List.mem_append_left _ hm, hversion ▸ hb⟩
    · exact ⟨e, List.mem_append_right _ hm, hb⟩
  · rcases append_eq_append_cons (he.symm.trans hevents) with ⟨old, hold, _⟩ | ⟨first, rfl, hrecord⟩
    · exact h.published before p old version hold hv
    · have hm : .published p ∈ record := hrecord ▸ List.mem_append_right _ List.mem_cons_self
      obtain ⟨t, hget, rfl⟩ := hp _ hm p rfl version hv
      obtain ⟨e, hm, hb⟩ := h.tracked p.uri t hget
      exact ⟨e, List.mem_append_left _ hm, hb⟩

/-- A step that leaves the documents alone. -/
theorem Versioned.of_documents_eq (h : s.Versioned) {record : List Event} (he : s'.events = s.events ++ record)
    (hd : s'.documents = s.documents) (hp : ∀ e ∈ record, Dated s.documents e) : s'.Versioned :=
  h.grow he (fun _ t' ht' => .inl ⟨t', hd ▸ ht', rfl⟩) hp

/-- A step in which a document is tracked under a version that comes with it, or keeps its own. -/
theorem Versioned.tracks (h : s.Versioned) {e : Event} {document : OpenDocument} {t : TrackedDocument}
    (he : e.document? = some document)
    (hv : t.version = document.version ∨
      ∃ t₀, s.documents.get? document.uri = some t₀ ∧ t₀.version = t.version) :
    ({ s with documents := ⟨s.documents.tracked.insert document.uri t⟩, events := s.events ++ [e] } :
      ServerState).Versioned := by
  refine h.grow rfl (fun uri t' ht' => ?_) fun e' hm => ?_
  · simp only [Documents.get?, Dict.get?_insert] at ht'
    split at ht'
    · rename_i huri
      cases ht'
      rcases hv with hv | ⟨t₀, hget, hv⟩
      · exact .inr ⟨e, List.mem_singleton_self _, document, he, huri, hv.symm⟩
      · exact .inl ⟨t₀, huri ▸ hget, hv⟩
    · exact .inl ⟨t', ht', rfl⟩
  · rw [List.mem_singleton.mp hm]
    refine dated_of_not_publication ?_
    cases e <;> first | rfl | cases he

theorem open_eq_ok {documents documents' : Documents} {document : OpenDocument} {t : TrackedDocument}
    (h : documents.open_ document = .ok (t, documents')) :
    documents' = ⟨documents.tracked.insert document.uri t⟩ ∧ t.version = document.version := by
  unfold Documents.open_ at h
  cases hp : Uri.toPath document.uri with
  | error e => rw [hp] at h; cases h
  | ok path => rw [hp] at h; cases h; exact ⟨rfl, rfl⟩

theorem Versioned.change (h : s.Versioned) (hc : Change s s') : s'.Versioned := by
  have hsilent : ∀ e ∈ ([] : List Event), Dated s.documents e := fun _ h => absurd h List.not_mem_nil
  have hmoved : ∀ id w lists record, (∀ e ∈ record, IsPublication e = false) →
      (s.moved id w lists record).Versioned := by
    intro id w lists record hr
    obtain ⟨_, published, he, hp⟩ := publishingAll_dated s lists
    have hevents : (s.moved id w lists record).events = s.events ++ (published ++ record) := by
      rw [moved_events, he, List.append_assoc]
    refine h.of_documents_eq hevents (moved_documents ..) fun e hm => ?_
    exact (List.mem_append.mp hm).elim (hp e) fun hm => dated_of_not_publication (hr e hm)
  cases hc with
  | aside ha => exact h.of_documents_eq (by rw [ha.events, List.append_nil]) ha.documents hsilent
  | @notes e hp =>
      refine h.of_documents_eq rfl rfl fun e' hm => ?_
      rw [List.mem_singleton.mp hm]
      refine dated_of_not_publication ?_
      cases e <;> first | rfl | cases hp
  | works | registers => exact h.of_documents_eq (List.append_nil _).symm rfl hsilent
  | closes uri =>
      refine h.grow (List.append_nil _).symm (fun uri' t' ht' => .inl ⟨t', ?_, rfl⟩) hsilent
      simp only [Documents.get?, Documents.close, Dict.get?_erase] at ht'
      split at ht'
      · cases ht'
      · exact ht'
  | opens task hopen =>
      obtain ⟨rfl, hv⟩ := open_eq_ok hopen
      exact h.tracks rfl (.inl hv)
  | receives task hchange =>
      unfold Documents.change at hchange
      split at hchange
      · obtain ⟨rfl, hv⟩ := open_eq_ok hchange
        exact h.tracks rfl (.inl hv)
      · rename_i t₀ hget
        cases hchange
        refine h.tracks rfl ?_
        -- The version is the greater of the two.
        rcases Int.le_total t₀.version _ with hle | hle
        · exact .inl (Int.max_eq_right hle)
        · exact .inr ⟨t₀, hget, (Int.max_eq_left hle).symm⟩
  | turns _ ht =>
      refine hmoved _ _ _ _ ?_
      cases ht <;> simp [IsPublication]
  | @removes uri id w _ _ =>
      have hm := hmoved id
        { w.enter .removed with initializations := w.initializations + 1, published := [] }
        (empties w.published) [.removed id] (by simp [IsPublication])
      exact ⟨hm.tracked, hm.published⟩
  | @dismisses uri id w _ _ =>
      have hm := hmoved id (w.enter .removed) [] [] (by simp)
      exact ⟨hm.tracked, hm.published⟩

/-- Versions are on record before they are used, at all times. -/
theorem Steps.versioned {allowed : Foreign → Prop} (h : Steps allowed s s') (hs : s.Versioned) :
    s'.Versioned := by
  induction h with
  | refl => exact hs
  | tail _ h ih =>
      cases h with
      | own h => exact ih.change h
      | foreign => exact ⟨ih.tracked, ih.published⟩

end ServerState

theorem Server.IsFresh.versioned {s : ServerState} (h : IsFresh s) : s.Versioned := by
  refine ⟨fun uri t ht => ?_, fun before p after version he => ?_⟩
  · rw [h.documents] at ht
    cases ht
  · rw [h.events] at he
    exact absurd (congrArg List.length he) (by simp)

end InkServer
