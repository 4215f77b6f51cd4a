import InkServer.Proofs.Path.Inner

/-!
# What lies below a path

A path that leads inwards, seen from a root, lies strictly inside that root, and is what is found again when
it is taken relative to the root.
-/

namespace InkServer.Path

/-! ## Normal forms -/

theorem foldl_resolveStep_of_noUp {names : List String} (h : ".." ∉ names) (seen : List String) :
    names.foldl resolveStep seen = names.reverse ++ seen := by
  induction names generalizing seen with
  | nil => rfl
  | cons s rest ih =>
      obtain ⟨hs, hrest⟩ := not_or.mp (mt List.mem_cons.mpr h)
      rw [List.foldl_cons, ih hrest, resolveStep, if_neg (Ne.symm hs), List.reverse_cons, List.append_assoc]
      rfl

/-- Names that do not lead up are kept behind what is in front of them. -/
theorem resolve_append {names : List String} (h : ".." ∉ names) (front : List String) :
    resolve (front ++ names) = resolve front ++ names := by
  rw [resolve, resolve, List.foldl_append, foldl_resolveStep_of_noUp h, List.reverse_append,
    List.reverse_reverse]

theorem segments_absolute (p : Path) : p.absolute.segments = p.segments := by
  unfold absolute
  split <;> rfl

theorem segments_normalized (p : Path) : p.normalized.segments = resolve p.segments :=
  congrArg resolve p.segments_absolute

theorem start_normalized (p : Path) : p.normalized.start = p.absolute.start := rfl

theorem segments_join {p q : Path} (h : q.start = .relative) : (p / q).segments = p.segments ++ q.segments := by
  show (p.join q).segments = _
  rw [join, if_neg (by simp [isAbsolute, h])]

theorem start_join {p q : Path} (h : q.start = .relative) : (p / q).start = p.start := by
  show (p.join q).start = _
  rw [join, if_neg (by simp [isAbsolute, h])]

/-! ## Relative to a root -/

/-- A path lies inside a root exactly if the normal form of the root begins its own. -/
theorem relativeTo?_eq_some_iff {p root relative : Path} :
    p.relativeTo? root = some relative ↔ p.normalized.start = root.normalized.start ∧
      p.normalized.segments = root.normalized.segments ++ relative.segments ∧ relative.start = .relative ∧
        relative.segments ≠ [] := by
  unfold relativeTo?
  simp only
  constructor
  · intro h
    split at h
    · rename_i hstart
      split at h
      · cases h
      · cases h
      · rename_i s rest hb
        cases h
        exact ⟨hstart, behind?_eq_some_iff.mp hb, rfl, List.cons_ne_nil s rest⟩
    · cases h
  · rintro ⟨hstart, hsegments, hrelative, hne⟩
    obtain ⟨start, segments, valid⟩ := relative
    cases hrelative
    have hbehind := behind?_eq_some_iff.mpr hsegments
    rw [if_pos hstart]
    split
    · rename_i hb
      rw [hb] at hbehind
      cases hbehind
    · rename_i hb
      rw [hb] at hbehind
      exact absurd (Option.some.inj hbehind).symm hne
    · rename_i s rest hb
      rw [hb] at hbehind
      cases hbehind
      rfl

/-- What leads inwards is found again behind any path it was put behind. -/
theorem relativeTo?_join {relative : Path} (h : relative.IsInner) (root : Path) :
    (root / relative).relativeTo? root = some relative := by
  rw [relativeTo?_eq_some_iff]
  refine ⟨?_, ?_, h.start, h.ne_nil⟩
  · rw [start_normalized, start_normalized]
    unfold absolute isAbsolute
    rw [start_join h.start]
    split
    · exact start_join h.start
    · rfl
  · rw [segments_normalized, segments_normalized, segments_join h.start, resolve_append h.noUp]

theorem isInside_iff {p root : Path} : p.isInside root = true ↔ ∃ relative, p.relativeTo? root = some relative := by
  rw [isInside, Option.isSome_iff_exists]

end InkServer.Path
