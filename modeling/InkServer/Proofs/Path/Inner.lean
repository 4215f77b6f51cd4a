import InkServer.Mirror

/-!
# Paths that lead inwards

A path relative to a root leads strictly into it: it is not empty and never leads up. What is written to a
mirror goes to such paths below the directory of the mirror.
-/

namespace InkServer

namespace Path

/-- A relative path that leads to something below and never up. -/
structure IsInner (p : Path) : Prop where
  start : p.start = .relative
  ne_nil : p.segments ≠ []
  noUp : ".." ∉ p.segments

theorem not_mem_foldl_resolveStep {segments seen : List String} (h : ".." ∉ seen) :
    ".." ∉ segments.foldl resolveStep seen := by
  induction segments generalizing seen with
  | nil => exact h
  | cons s rest ih =>
      apply ih
      unfold resolveStep
      split
      · exact fun hm => h (List.mem_of_mem_drop hm)
      · rename_i hs
        rw [List.mem_cons, not_or]
        exact ⟨Ne.symm hs, h⟩

theorem not_mem_resolve (segments : List String) : ".." ∉ resolve segments := by
  rw [resolve, List.mem_reverse]
  exact not_mem_foldl_resolveStep List.not_mem_nil

theorem eq_of_segments {p q : Path} (hstart : p.start = q.start) (h : p.segments = q.segments) : p = q := by
  cases p
  cases q
  cases hstart
  cases h
  rfl

/-- What a path is relative to a root leads into the root. -/
theorem isInner_of_relativeTo? {p root relative : Path} (h : p.relativeTo? root = some relative) :
    relative.IsInner := by
  unfold relativeTo? at h
  simp only at h
  split at h
  · split at h
    · cases h
    · cases h
    · rename_i s rest hb
      cases h
      refine ⟨rfl, List.cons_ne_nil _ _, fun hm => ?_⟩
      have hq := behind?_eq_some_iff.mp hb
      apply not_mem_resolve p.absolute.segments
      show ".." ∈ p.normalized.segments
      rw [hq]
      exact List.mem_append_right _ hm
  · cases h

end Path

/-- The documents that are written over a mirror lie inside. -/
theorem Mirror.isInner_of_mem_overlays {policy : MirrorPolicy} {root : Path}
    {documents : List (Path × ByteArray)} {d : Path × ByteArray}
    (h : d ∈ Mirror.overlays policy root documents) : d.1.IsInner := by
  unfold overlays at h
  obtain ⟨⟨path, content⟩, _, hd⟩ := List.mem_filterMap.mp h
  simp only at hd
  split at hd
  · rename_i relative hr
    split at hd
    · cases hd
      exact Path.isInner_of_relativeTo? hr
    · cases hd
  · cases hd

end InkServer
