import InkServer.Path

/-!
# Lexical normal form

Resolving `..` without looking at the file system, and expressing a path relative to a root. A path lies
inside a root only if what is left of it after normalization extends the root; `relativeTo?` therefore
never yields `..`, which is what keeps writes inside a mirror.
-/

namespace InkServer.Path

/-- Adds one segment to the resolved segments, which are given last segment first. At the root `..`
stays there. -/
def resolveStep (seen : List String) (s : String) : List String :=
  if s = ".." then seen.drop 1 else s :: seen

/-- The segments of an absolute path with every `..` resolved. -/
def resolve (segments : List String) : List String := (segments.foldl resolveStep []).reverse

theorem mem_of_mem_foldl_resolveStep {segments seen : List String} {s : String}
    (h : s ∈ segments.foldl resolveStep seen) : s ∈ segments ∨ s ∈ seen := by
  induction segments generalizing seen with
  | nil => exact .inr h
  | cons a rest ih =>
    rcases ih h with h | h
    · exact .inl (List.mem_cons_of_mem _ h)
    · unfold resolveStep at h
      split at h
      · exact .inr (List.mem_of_mem_drop h)
      · rcases List.mem_cons.mp h with rfl | h
        · exact .inl List.mem_cons_self
        · exact .inr h

theorem mem_of_mem_resolve {segments : List String} {s : String} (h : s ∈ resolve segments) :
    s ∈ segments := by
  rcases mem_of_mem_foldl_resolveStep (List.mem_reverse.mp h) with h | h
  · exact h
  · simp at h

/-- The absolute path without `..` that a path stands for lexically. -/
def normalized (p : Path) : Path :=
  let q := p.absolute
  ⟨q.start, resolve q.segments, fun s h => q.valid s (mem_of_mem_resolve h)⟩

/-- The rest of a list behind a given beginning. -/
def behind? : List String → List String → Option (List String)
  | [], ys => some ys
  | _ :: _, [] => none
  | x :: xs, y :: ys => if x = y then behind? xs ys else none

theorem behind?_eq_some_iff {xs ys rest : List String} :
    behind? xs ys = some rest ↔ ys = xs ++ rest := by
  induction xs generalizing ys with
  | nil => simp [behind?, eq_comm]
  | cons x xs ih =>
    cases ys with
    | nil => simp [behind?]
    | cons y ys =>
      by_cases h : x = y
      · simp [behind?, h, ih]
      · simp [behind?, h, Ne.symm h]

/-- `p` relative to `root` if it lies strictly inside, after both are normalized. -/
def relativeTo? (p root : Path) : Option Path :=
  let q := p.normalized
  let r := root.normalized
  if q.start = r.start then
    match h : behind? r.segments q.segments with
    | none => none
    | some [] => none
    | some (s :: rest) =>
      some ⟨.relative, s :: rest, fun t ht => q.valid t (by
        rw [behind?_eq_some_iff.mp h]
        exact List.mem_append_right _ ht)⟩
  else none

/-- Whether `p` lies strictly inside `root`. -/
def isInside (p root : Path) : Bool := (p.relativeTo? root).isSome

end InkServer.Path
