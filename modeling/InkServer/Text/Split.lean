/-!
# Taking texts apart

Cutting a text at a separator and behind a given beginning. Joining the pieces with the separator gives
the text back.
-/

namespace InkServer.Text

/-- What follows `start` in a text that begins with it. -/
def after? : List Char → List Char → Option (List Char)
  | [], cs => some cs
  | _ :: _, [] => none
  | a :: start, c :: cs => if a = c then after? start cs else none

/-- The pieces between the occurrences of `sep`; at least one. -/
def pieces (sep : Char) : List Char → List (List Char)
  | [] => [[]]
  | c :: cs =>
    if c = sep then [] :: pieces sep cs
    else
      match pieces sep cs with
      | [] => [[c]]
      | piece :: rest => (c :: piece) :: rest

theorem after?_eq_some_iff {start cs rest : List Char} :
    after? start cs = some rest ↔ cs = start ++ rest := by
  induction start generalizing cs with
  | nil => simp [after?, eq_comm]
  | cons a start ih =>
    cases cs with
    | nil => simp [after?]
    | cons c cs =>
      by_cases h : a = c
      · simp [after?, h, ih]
      · simp [after?, h, Ne.symm h]

theorem pieces_ne_nil (sep : Char) (cs : List Char) : pieces sep cs ≠ [] := by
  cases cs with
  | nil => simp [pieces]
  | cons c cs =>
    rw [pieces]
    split
    · simp
    · split <;> simp

/-- No piece holds the separator. -/
theorem sep_not_mem_of_mem_pieces {sep : Char} {cs piece : List Char} (h : piece ∈ pieces sep cs) :
    sep ∉ piece := by
  induction cs generalizing piece with
  | nil => simp_all [pieces]
  | cons c cs ih =>
    rw [pieces] at h
    split at h
    · rcases List.mem_cons.mp h with rfl | h
      · simp
      · exact ih h
    · rename_i hc
      split at h
      · simp at h
        subst h
        simpa using Ne.symm hc
      · rename_i first rest he
        rcases List.mem_cons.mp h with rfl | h
        · have : sep ∉ first := ih (by simp [he])
          simp [this, Ne.symm hc]
        · exact ih (by simp [he, h])

/-- Joining the pieces with the separator gives the text back. -/
theorem intercalate_pieces (sep : Char) (cs : List Char) :
    List.intercalate [sep] (pieces sep cs) = cs := by
  induction cs with
  | nil => simp [pieces, List.intercalate]
  | cons c cs ih =>
    rw [pieces]
    split
    · rename_i hc
      subst hc
      cases he : pieces c cs with
      | nil => exact absurd he (pieces_ne_nil c cs)
      | cons first rest =>
        rw [he] at ih
        simpa [List.intercalate, List.intersperse] using ih
    · cases he : pieces sep cs with
      | nil => exact absurd he (pieces_ne_nil sep cs)
      | cons first rest =>
        rw [he] at ih
        cases rest with
        | nil => simpa [List.intercalate, List.intersperse] using ih
        | cons second rest => simpa [List.intercalate, List.intersperse] using ih

end InkServer.Text
