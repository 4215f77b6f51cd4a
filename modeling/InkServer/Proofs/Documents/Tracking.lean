import InkServer.Documents

/-!
# What is known of the open documents

However documents were opened, changed and closed, each is kept under its own URI and with the path which
that URI names. So the URI that is found for the path of an open document leads back to the path.
-/

namespace InkServer

namespace Dict

variable {κ α : Type} [DecidableEq κ]

theorem mem_entries_insert {d : Dict κ α} {k : κ} {v : α} {e : κ × α} (h : e ∈ (d.insert k v).entries) :
    e = (k, v) ∨ e ∈ d.entries := by
  obtain ⟨es⟩ := d
  change e ∈ put k v es at h
  show e = (k, v) ∨ e ∈ es
  induction es with
  | nil => exact .inl (List.mem_singleton.mp h)
  | cons e' es ih =>
      rw [put] at h
      split at h
      · rename_i hk
        rcases List.mem_cons.mp h with rfl | h
        · exact .inl (by rw [hk])
        · exact .inr (List.mem_cons_of_mem e' h)
      · rcases List.mem_cons.mp h with rfl | h
        · exact .inr List.mem_cons_self
        · exact (ih h).imp_right (List.mem_cons_of_mem e')

end Dict

namespace Documents

/-- The documents that are open after some were opened, changed and closed. -/
inductive Arises : Documents → Prop
  | none : Arises {}
  | opened {d d' : Documents} {document : OpenDocument} {t : TrackedDocument} (h : Arises d)
      (ho : d.open_ document = .ok (t, d')) : Arises d'
  | changed {d d' : Documents} {document : OpenDocument} {t : TrackedDocument} (h : Arises d)
      (hc : d.change document = .ok (t, d')) : Arises d'
  | closed {d : Documents} (h : Arises d) (uri : String) : Arises (d.close uri)

/-- Every document is kept under its own URI, with the path that the URI names. -/
def Known (d : Documents) : Prop := ∀ e ∈ d.tracked.entries, e.2.uri = e.1 ∧ Uri.toPath e.1 = .ok e.2.path

variable {d d' : Documents} {document : OpenDocument} {t : TrackedDocument}

theorem Known.insert (h : d.Known) {uri : String} (hu : t.uri = uri) (hp : Uri.toPath uri = .ok t.path) :
    Known ⟨d.tracked.insert uri t⟩ := by
  intro e he
  rcases Dict.mem_entries_insert he with rfl | he
  · exact ⟨hu, hp⟩
  · exact h e he

theorem Known.opened (h : d.Known) (ho : d.open_ document = .ok (t, d')) : d'.Known := by
  unfold open_ at ho
  cases hp : Uri.toPath document.uri with
  | error e =>
      rw [hp] at ho
      cases ho
  | ok path =>
      rw [hp] at ho
      cases ho
      exact h.insert rfl hp

theorem Known.changed (h : d.Known) (hc : d.change document = .ok (t, d')) : d'.Known := by
  unfold change at hc
  cases hget : d.get? document.uri with
  | none =>
      rw [hget] at hc
      exact h.opened hc
  | some known =>
      rw [hget] at hc
      cases hc
      obtain ⟨hu, hp⟩ := h _ (Dict.mem_of_lookup_eq_some hget)
      exact h.insert hu hp

theorem Known.closed (h : d.Known) (uri : String) : (d.close uri).Known :=
  fun e he => h e (List.mem_filter.mp he).1

theorem Arises.known (h : Arises d) : d.Known := by
  induction h with
  | none => exact fun e he => absurd he List.not_mem_nil
  | opened _ ho ih => exact ih.opened ho
  | changed _ hc ih => exact ih.changed hc
  | closed _ uri ih => exact ih.closed uri

/-- A document that is open at a path gives the path its URI. -/
theorem Known.uriForPath_of_open (h : d.Known) {path : Path} (ho : ∃ t ∈ d.tracked.values, t.path = path) :
    ∃ t ∈ d.tracked.values, t.path = path ∧ d.uriForPath path = .ok t.uri ∧ Uri.toPath t.uri = .ok path := by
  obtain ⟨t, ht, hpath⟩ := ho
  cases hfind : d.tracked.values.find? fun t => t.path = path with
  | none => exact absurd hpath (by simpa using List.find?_eq_none.mp hfind t ht)
  | some found =>
      have hmem := List.mem_of_find?_eq_some hfind
      have hfound : found.path = path := by simpa using List.find?_some hfind
      obtain ⟨e, he, rfl⟩ := List.mem_map.mp hmem
      obtain ⟨hu, hp⟩ := h e he
      refine ⟨e.2, hmem, hfound, ?_, ?_⟩
      · rw [uriForPath, hfind]
      · rw [hu, hp, hfound]

/-- A path at which no document is open has its usual URI. -/
theorem uriForPath_of_not_open {path : Path} (h : ¬∃ t ∈ d.tracked.values, t.path = path) :
    d.uriForPath path = Uri.ofPath path := by
  have hfind : d.tracked.values.find? (fun t => t.path = path) = none := by
    rw [List.find?_eq_none]
    intro t ht hpath
    exact h ⟨t, ht, by simpa using hpath⟩
  rw [uriForPath, hfind]

end Documents

end InkServer
