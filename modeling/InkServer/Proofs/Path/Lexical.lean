import InkServer.Proofs.Path.Below
import Mathlib.Logic.Relation

/-!
# Lexical normal forms

What a path means, as far as its text alone tells, is said here by the ways in which its names may be made fewer.
However they are applied, what is left in the end is the same, and a path is found below a root exactly if what is
left of the root begins what is left of the path.
-/

namespace InkServer.Path

/-! ## Making the names fewer -/

/-- One way to have fewer names in a path that begins at a root: nothing and a dot lead nowhere, a name and what
leads up behind it cancel each other, and nothing is above the root. -/
inductive Shortens : List String → List String → Prop where
  | nothing (front rest : List String) : Shortens (front ++ "" :: rest) (front ++ rest)
  | dot (front rest : List String) : Shortens (front ++ "." :: rest) (front ++ rest)
  | up {name : String} (h : name ≠ "" ∧ name ≠ "." ∧ name ≠ "..") (front rest : List String) :
      Shortens (front ++ name :: ".." :: rest) (front ++ rest)
  | top (rest : List String) : Shortens (".." :: rest) rest

/-- The names between the slashes of a text. -/
def namesOf (text : String) : List String := (Text.pieces '/' text.toList).map String.ofList

/-- The root that a text begins at when the working directory is the root: two slashes, but not three, are a root
of their own. -/
def rootOf (text : String) : PathStart :=
  if ['/', '/'] <+: text.toList ∧ ¬['/', '/', '/'] <+: text.toList then .doubleRoot else .root

/-- What is left of a text whose names cannot be made fewer any more. -/
structure HasNormalForm (text : String) (start : PathStart) (names : List String) : Prop where
  start_eq : rootOf text = start
  shortens : Relation.ReflTransGen Shortens (namesOf text) names
  plain : ∀ name ∈ names, name ≠ "" ∧ name ≠ "." ∧ name ≠ ".."

/-! ## What is left in the end -/

/-- The names that lead somewhere. -/
def leading (names : List String) : List String := names.filter fun name => name ≠ "" ∧ name ≠ "."

@[simp] theorem leading_append (front rest : List String) : leading (front ++ rest) = leading front ++ leading rest :=
  List.filter_append front rest

@[simp] theorem leading_nothing (rest : List String) : leading ("" :: rest) = leading rest := rfl

@[simp] theorem leading_dot (rest : List String) : leading ("." :: rest) = leading rest := rfl

@[simp] theorem leading_up (rest : List String) : leading (".." :: rest) = ".." :: leading rest := rfl

theorem leading_cons {name : String} (h : name ≠ "" ∧ name ≠ ".") (rest : List String) :
    leading (name :: rest) = name :: leading rest := List.filter_cons_of_pos (decide_eq_true h)

theorem leading_eq_self {names : List String} (h : ∀ name ∈ names, name ≠ "" ∧ name ≠ "." ∧ name ≠ "..") :
    leading names = names :=
  List.filter_eq_self.mpr fun name hm => decide_eq_true ⟨(h name hm).1, (h name hm).2.1⟩

/-- No way of making the names fewer changes where they lead. -/
theorem Shortens.resolve_leading_eq {names fewer : List String} (h : Shortens names fewer) :
    resolve (leading names) = resolve (leading fewer) := by
  cases h with
  | nothing front rest => rw [leading_append, leading_nothing, leading_append]
  | dot front rest => rw [leading_append, leading_dot, leading_append]
  | @up name h front rest =>
      rw [leading_append, leading_cons ⟨h.1, h.2.1⟩, leading_up, leading_append]
      unfold resolve
      have hback (seen : List String) : resolveStep (resolveStep seen name) ".." = seen := by
        rw [resolveStep, if_pos rfl, resolveStep, if_neg h.2.2, List.drop_one, List.tail_cons]
      rw [List.foldl_append, List.foldl_append, List.foldl_cons, List.foldl_cons, hback]
  | top rest => rfl

theorem resolve_leading_eq_of_shortens {names fewer : List String}
    (h : Relation.ReflTransGen Shortens names fewer) : resolve (leading names) = resolve (leading fewer) := by
  induction h with
  | refl => rfl
  | tail _ h ih => exact ih.trans h.resolve_leading_eq

/-- Where only plain names are left they are where they lead. -/
theorem resolve_leading_of_plain {names : List String}
    (h : ∀ name ∈ names, name ≠ "" ∧ name ≠ "." ∧ name ≠ "..") : resolve (leading names) = names := by
  rw [leading_eq_self h]
  exact resolve_append (fun hm => (h _ hm).2.2 rfl) []

/-- The names that are seen, which are given last name first, stay until something leads up from them. -/
theorem shortens_foldl_resolveStep (names : List String) {seen : List String}
    (h : ∀ name ∈ seen, name ≠ "" ∧ name ≠ "." ∧ name ≠ "..") :
    Relation.ReflTransGen Shortens (seen.reverse ++ names) ((leading names).foldl resolveStep seen).reverse := by
  induction names generalizing seen with
  | nil =>
      rw [List.append_nil]
      exact .refl
  | cons name rest ih =>
      by_cases hnothing : name = ""
      · subst hnothing
        exact .head (.nothing _ rest) (ih h)
      by_cases hdot : name = "."
      · subst hdot
        exact .head (.dot _ rest) (ih h)
      by_cases hup : name = ".."
      · subst hup
        cases seen with
        | nil => exact .head (.top rest) (ih h)
        | cons last seen =>
            have hcancel := Shortens.up (h last List.mem_cons_self) seen.reverse rest
            rw [List.reverse_cons, List.append_assoc]
            exact .head hcancel (ih fun name hm => h name (List.mem_cons_of_mem _ hm))
      · have hseen := @ih (name :: seen) fun other hm => by
          rcases List.mem_cons.mp hm with rfl | hm
          · exact ⟨hnothing, hdot, hup⟩
          · exact h other hm
        rw [List.reverse_cons, List.append_assoc, List.singleton_append] at hseen
        rw [leading_cons ⟨hnothing, hdot⟩, List.foldl_cons, resolveStep, if_neg hup]
        exact hseen

/-! ## Normal forms of texts -/

theorem segments_ofText (text : String) : (ofText text).segments = leading (namesOf text) := by
  refine List.filter_congr fun name hm => ?_
  obtain ⟨piece, hpiece, rfl⟩ := List.mem_map.mp hm
  have hslash : '/' ∉ (String.ofList piece).toList := by
    rw [String.toList_ofList]
    exact Text.sep_not_mem_of_mem_pieces hpiece
  simp only [IsSegment, hslash, not_false_eq_true, and_true]

theorem startOf_eq_doubleRoot_iff (cs : List Char) :
    startOf cs = .doubleRoot ↔ ['/', '/'] <+: cs ∧ ¬['/', '/', '/'] <+: cs := by
  match cs with
  | [] => simp [startOf]
  | [c] => by_cases h : c = '/' <;> simp [startOf, h]
  | [c, d] => by_cases h : c = '/' <;> by_cases h' : d = '/' <;> simp [startOf, h, h', Ne.symm]
  | c :: d :: e :: rest =>
      by_cases h : c = '/' <;> by_cases h' : d = '/' <;> by_cases h'' : e = '/' <;>
        simp [startOf, h, h', h'', List.prefix_cons_iff, Ne.symm]

theorem start_absolute (p : Path) : p.absolute.start = if p.start = .doubleRoot then .doubleRoot else .root := by
  unfold absolute isAbsolute
  cases h : p.start <;> simp [h]

theorem start_normalized_ofText (text : String) : (ofText text).normalized.start = rootOf text := by
  rw [start_normalized, start_absolute, rootOf]
  exact ite_congr (propext (startOf_eq_doubleRoot_iff text.toList)) (fun _ => rfl) fun _ => rfl

/-- The normal form of a text is what the path of the text is normalized to. -/
theorem hasNormalForm_iff {text : String} {start : PathStart} {names : List String} :
    HasNormalForm text start names ↔
      start = (ofText text).normalized.start ∧ names = (ofText text).normalized.segments := by
  rw [start_normalized_ofText, segments_normalized, segments_ofText]
  constructor
  · rintro ⟨hstart, hshortens, hplain⟩
    exact ⟨hstart.symm, (resolve_leading_of_plain hplain).symm.trans
      (resolve_leading_eq_of_shortens hshortens).symm⟩
  · rintro ⟨rfl, rfl⟩
    refine ⟨rfl, shortens_foldl_resolveStep (namesOf text) (List.forall_mem_nil _), fun name hm => ?_⟩
    have hvalid : IsSegment name := (ofText text).valid name (by
      rw [segments_ofText]
      exact mem_of_mem_resolve hm)
    exact ⟨hvalid.1, hvalid.2.1, fun hup => not_mem_resolve _ (hup ▸ hm)⟩

/-! ## Relative to a root -/

/-- A path is found below a root exactly if both begin at the same root and what is left of the names of the root
properly begins what is left of the names of the path. What is found is the rest of them, and put behind the root
it is found again. -/
theorem relativeTo?_is_sound_and_complete (path root : String) :
    ((∃ relative, (ofText path).relativeTo? (ofText root) = some relative) ↔
      ∃ start names front, HasNormalForm path start names ∧ HasNormalForm root start front ∧
        front <+: names ∧ front ≠ names) ∧
    ∀ relative, (ofText path).relativeTo? (ofText root) = some relative →
      (∃ start front, HasNormalForm root start front ∧ HasNormalForm path start (front ++ relative.segments)) ∧
      relative.segments ≠ [] ∧ relative.isAbsolute = false ∧
      "." ∉ relative.segments ∧ ".." ∉ relative.segments ∧
      (ofText root / relative).relativeTo? (ofText root) = some relative := by
  constructor
  · constructor
    · rintro ⟨relative, hrelative⟩
      obtain ⟨hstart, hsegments, -, hne⟩ := relativeTo?_eq_some_iff.mp hrelative
      refine ⟨_, _, _, hasNormalForm_iff.mpr ⟨rfl, rfl⟩, hasNormalForm_iff.mpr ⟨hstart, rfl⟩, ?_, ?_⟩
      · exact ⟨relative.segments, hsegments.symm⟩
      · intro heq
        rw [heq] at hsegments
        exact hne (List.append_right_eq_self.mp hsegments.symm)
    · rintro ⟨start, names, front, hpath, hroot, ⟨rest, hrest⟩, hne⟩
      obtain ⟨hstart, rfl⟩ := hasNormalForm_iff.mp hpath
      obtain ⟨hstart', rfl⟩ := hasNormalForm_iff.mp hroot
      have hvalid : ∀ name ∈ rest, IsSegment name := fun name hm =>
        (ofText path).normalized.valid name (hrest ▸ List.mem_append_right _ hm)
      refine ⟨⟨.relative, rest, hvalid⟩, relativeTo?_eq_some_iff.mpr ⟨hstart ▸ hstart', hrest.symm, rfl, ?_⟩⟩
      rintro (rfl : rest = [])
      exact hne (by rw [← hrest, List.append_nil])
  · intro relative hrelative
    obtain ⟨hstart, hsegments, -, hne⟩ := relativeTo?_eq_some_iff.mp hrelative
    have hinner := isInner_of_relativeTo? hrelative
    refine ⟨⟨_, _, hasNormalForm_iff.mpr ⟨rfl, rfl⟩, hasNormalForm_iff.mpr ⟨hstart.symm, hsegments.symm⟩⟩,
      hne, ?_, fun hdot => (relative.valid _ hdot).2.1 rfl, hinner.noUp, relativeTo?_join hinner _⟩
    rw [isAbsolute, hinner.start]
    rfl

example : (ofText "/p/./a//../main.ink").relativeTo? (ofText "//../p") = none ∧
    (ofText "p/./a//../main.ink").relativeTo? (ofText "/../p") = some (ofText "main.ink") := by decide +kernel

end InkServer.Path
