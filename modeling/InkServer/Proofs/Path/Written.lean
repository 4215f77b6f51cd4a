import InkServer.Path
import Mathlib

/-!
# Paths and their texts

A path is read back from its text: the pieces between the slashes of the text are the segments, since no
segment has a slash, is empty or is a dot.
-/

namespace InkServer

namespace Text

theorem pieces_of_not_mem {sep : Char} {cs : List Char} (h : sep ∉ cs) : pieces sep cs = [cs] := by
  induction cs with
  | nil => rfl
  | cons c cs ih =>
      obtain ⟨hc, hcs⟩ := not_or.mp (mt List.mem_cons.mpr h)
      rw [pieces, if_neg (Ne.symm hc), ih hcs]

theorem pieces_append_cons {sep : Char} {cs : List Char} (h : sep ∉ cs) (rest : List Char) :
    pieces sep (cs ++ sep :: rest) = cs :: pieces sep rest := by
  induction cs with
  | nil => rw [List.nil_append, pieces, if_pos rfl]
  | cons c cs ih =>
      obtain ⟨hc, hcs⟩ := not_or.mp (mt List.mem_cons.mpr h)
      rw [List.cons_append, pieces, if_neg (Ne.symm hc), ih hcs]

/-- Cutting what was joined gives the pieces back. -/
theorem pieces_intercalate {sep : Char} {ps : List (List Char)} (hne : ps ≠ [])
    (h : ∀ p ∈ ps, sep ∉ p) : pieces sep ([sep].intercalate ps) = ps := by
  induction ps with
  | nil => exact absurd rfl hne
  | cons p ps ih =>
      have hp : sep ∉ p := h p List.mem_cons_self
      cases ps with
      | nil => simpa using pieces_of_not_mem hp
      | cons q ps =>
          have hrest := ih (List.cons_ne_nil q ps) fun p' hp' => h p' (List.mem_cons_of_mem p hp')
          rw [List.intercalate_cons_cons, List.append_assoc, List.singleton_append, pieces_append_cons hp, hrest]

end Text

namespace Path

/-- The segments of a path with slashes between them. -/
def joined (p : Path) : List Char := ['/'].intercalate (p.segments.map String.toList)

/-- What is written between slashes is read as the segments. -/
theorem filter_pieces_joined (p : Path) :
    ((Text.pieces '/' p.joined).map String.ofList).filter (fun s => decide (IsSegment s)) = p.segments := by
  cases hs : p.segments with
  | nil =>
      have hnil : p.joined = [] := by simp [joined, hs]
      rw [hnil]
      decide
  | cons s rest =>
      have hslash : ∀ cs ∈ p.segments.map String.toList, '/' ∉ cs := by
        intro cs hcs
        obtain ⟨t, ht, rfl⟩ := List.mem_map.mp hcs
        exact (p.valid t ht).2.2
      have hpieces : Text.pieces '/' p.joined = p.segments.map String.toList := by
        apply Text.pieces_intercalate _ hslash
        simp [hs]
      rw [hpieces, ← hs]
      simpa using p.valid

theorem text_of_doubleRoot {p : Path} (h : p.start = .doubleRoot) : p.text.toList = '/' :: '/' :: p.joined := by
  rw [text, h, if_neg (by simp), String.toList_append, String.toList_intercalate]
  rfl

/-- There is a slash between segments, and none within. -/
theorem slash_mem_joined_iff (p : Path) : '/' ∈ p.joined ↔ 1 < p.segments.length := by
  unfold joined
  match hs : p.segments with
  | [] => simp
  | [s] =>
      have hvalid : IsSegment s := p.valid s (hs ▸ List.mem_singleton_self s)
      simpa using hvalid.2.2
  | s :: t :: rest => simp

theorem joined_ne_slash_cons (p : Path) (rest : List Char) : p.joined ≠ '/' :: rest := by
  unfold joined
  match hs : p.segments with
  | [] => simp
  | s :: others =>
      have hvalid : IsSegment s := p.valid s (hs ▸ List.mem_cons_self)
      obtain ⟨c, cs, hc⟩ := List.exists_cons_of_ne_nil fun h : s.toList = [] => hvalid.1 (String.toList_eq_nil_iff.mp h)
      have hslash : c ≠ '/' := fun h => hvalid.2.2 (by rw [hc, h]; exact List.mem_cons_self)
      cases others with
      | nil => simp [hc, hslash]
      | cons t others => simp [hc, hslash]

theorem text_ne_slashes {p : Path} (h : p.start ≠ .doubleRoot) (rest : List Char) :
    p.text.toList ≠ '/' :: '/' :: rest := by
  unfold text
  split
  · simp
  · rw [String.toList_append, String.toList_intercalate]
    cases hstart : p.start with
    | relative => exact p.joined_ne_slash_cons _
    | root => exact fun hroot => p.joined_ne_slash_cons rest (List.cons.inj hroot).2
    | doubleRoot => exact absurd hstart h

theorem startOf_joined (start : PathStart) (p : Path) :
    startOf ((startText start).toList ++ p.joined) = start := by
  have hslash := p.joined_ne_slash_cons
  generalize p.joined = cs at hslash
  cases cs with
  | nil => cases start <;> rfl
  | cons c cs =>
      have hc : c ≠ '/' := fun h => hslash cs (h ▸ rfl)
      cases start <;> simp [startText, startOf, hc]

/-- A path is read from its start and its segments. -/
theorem ofText_joined (start : PathStart) (p : Path) :
    ofText (String.ofList ((startText start).toList ++ p.joined)) = ⟨start, p.segments, p.valid⟩ := by
  have hempty : decide (IsSegment (String.ofList [])) = false := by decide
  have hsegments : ((Text.pieces '/' ((startText start).toList ++ p.joined)).map String.ofList).filter
      (fun s => decide (IsSegment s)) = p.segments := by
    cases start <;> simp [startText, Text.pieces, hempty, filter_pieces_joined]
  unfold ofText ofSegments
  simp only [String.toList_ofList, startOf_joined, hsegments]

theorem toList_text {p : Path} (h : p.start = .relative → p.segments ≠ []) :
    p.text.toList = (startText p.start).toList ++ p.joined := by
  rw [text, if_neg fun hp => h hp.1 hp.2, String.toList_append, String.toList_intercalate]
  rfl

/-- A path is read back from its text. -/
theorem ofText_text (p : Path) : ofText p.text = p := by
  by_cases h : p.start = .relative ∧ p.segments = []
  · obtain ⟨start, segments, valid⟩ := p
    obtain ⟨rfl, rfl⟩ := h
    exact (by decide : ofText "." = here)
  · rw [← String.ofList_toList (s := p.text), toList_text fun hstart hsegments => h ⟨hstart, hsegments⟩,
      ofText_joined]

theorem text_ne_empty {p : Path} (h : p.segments ≠ []) : p.text ≠ "" := by
  intro hempty
  have hread := p.ofText_text
  rw [hempty] at hread
  apply h
  rw [← hread]
  decide

end Path

end InkServer
