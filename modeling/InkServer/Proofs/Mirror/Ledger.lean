import InkServer.Proofs.Mirror.Creation
import InkServer.State
import Mathlib.Data.Set.Function

/-!
# The calls of a mirror

Texts of documents and created files are brought into a mirror by calls that take turns. What a call wrote
and what it put into the index are not always the same: a call that fails on its way records nothing of what
it wrote. And what a text was to be is not always written, since one that the index knows already is passed
over.
-/

namespace InkServer.Mirror

/-- A call that has ended. -/
structure Call where
  result : Except Failure Result
  /-- The file and the text that it was to bring into the mirror, if it was called with a text. -/
  asked : Option (Path × ByteArray)
  /-- What it wrote, in this order. -/
  wrote : List (Path × ByteArray)

namespace Call

def succeeded (c : Call) : Bool := c.result.isOk

/-- Whether a call wrote a file. -/
def touched (relative : Path) (c : Call) : Bool := c.wrote.any fun w => w.1 = relative

/-- What a call put into the index. -/
def recorded (c : Call) : List (Path × ByteArray) := if c.succeeded then c.wrote else []

/-- The files that a call was about, each with what it was to hold: a text that was brought into the mirror,
whether it was written or known already, and otherwise whatever was written. -/
def concerned (c : Call) : List (Path × ByteArray) :=
  match c.asked with
  | some a => if c.succeeded then [a] else c.wrote
  | none => c.wrote

/-- How a call fits what the index had on record: a text that was brought into the mirror was written, or the
index had the fingerprint of what was written last. -/
def Fits (onRecord : List (Path × ByteArray)) (c : Call) : Prop :=
  ∀ a, c.asked = some a → c.succeeded →
    c.wrote = [a] ∨ c.wrote = [] ∧
      ∃ content, latest a.1 onRecord = some content ∧ Digest.sha256 content = Digest.sha256 a.2

end Call

/-- What was written to a mirror that held some contents at first. -/
def written (first : List (Path × ByteArray)) (calls : List Call) : List (Path × ByteArray) :=
  first ++ calls.flatMap Call.wrote

/-- What was put into the index of such a mirror. -/
def onRecord (first : List (Path × ByteArray)) (calls : List Call) : List (Path × ByteArray) :=
  first ++ calls.flatMap Call.recorded

/-- What the files of such a mirror were to hold. -/
def wanted (first : List (Path × ByteArray)) (calls : List Call) : List (Path × ByteArray) :=
  first ++ calls.flatMap Call.concerned

/-- Calls each of which fits what was on record when it ended. -/
inductive Fitting (first : List (Path × ByteArray)) : List Call → Prop where
  | nil : Fitting first []
  | snoc {calls : List Call} {c : Call} (h : Fitting first calls) (hc : c.Fits (onRecord first calls)) :
      Fitting first (calls ++ [c])

/-- The contents that calls had to do with. -/
def involved (first : List (Path × ByteArray)) (calls : List Call) : Set ByteArray :=
  { content | ∃ relative, (relative, content) ∈ written first calls ∨ (relative, content) ∈ wanted first calls }

/-- The last call that wrote a file. -/
def lastWriter? (relative : Path) (calls : List Call) : Option Call := calls.reverse.find? (Call.touched relative)

variable {first : List (Path × ByteArray)} {calls : List Call} {c : Call} {relative : Path} {content : ByteArray}

section snoc

variable (first : List (Path × ByteArray)) (calls : List Call) (c : Call)

theorem written_snoc : written first (calls ++ [c]) = written first calls ++ c.wrote := by
  simp [written]

theorem onRecord_snoc : onRecord first (calls ++ [c]) = onRecord first calls ++ c.recorded := by
  simp [onRecord]

theorem wanted_snoc : wanted first (calls ++ [c]) = wanted first calls ++ c.concerned := by
  simp [wanted]

theorem lastWriter?_snoc (relative : Path) :
    lastWriter? relative (calls ++ [c]) = if c.touched relative then some c else lastWriter? relative calls := by
  unfold lastWriter?
  rw [List.reverse_append, List.reverse_singleton, List.singleton_append, List.find?_cons]
  cases c.touched relative <;> rfl

end snoc

theorem mem_of_lastWriter? (h : lastWriter? relative calls = some c) : c ∈ calls ∧ c.touched relative :=
  ⟨List.mem_reverse.mp (List.mem_of_find?_eq_some h), List.find?_some h⟩

theorem Fitting.last (h : Fitting first (calls ++ [c])) : c.Fits (onRecord first calls) := by
  generalize hall : calls ++ [c] = all at h
  cases h with
  | nil => simp at hall
  | snoc h hc =>
      obtain ⟨rfl, rfl⟩ := List.append_singleton_inj.mp hall
      exact hc

theorem Call.latest_wrote_of_not_touched (h : c.touched relative = false) : latest relative c.wrote = none := by
  rw [latest_eq_none_iff]
  intro hm
  obtain ⟨w, hw, he⟩ := List.mem_map.mp hm
  have ht : c.touched relative := List.any_eq_true.mpr ⟨w, hw, decide_eq_true he⟩
  rw [h] at ht
  cases ht

theorem Call.latest_recorded_of_not_touched (h : c.touched relative = false) :
    latest relative c.recorded = none := by
  unfold recorded
  split
  · exact latest_wrote_of_not_touched h
  · rfl

theorem Call.recorded_eq (h : c.succeeded) : c.recorded = c.wrote := if_pos h

theorem Call.concerned_eq {a : Path × ByteArray} (ha : c.asked = some a) (h : c.succeeded) : c.concerned = [a] := by
  unfold concerned
  rw [ha]
  exact if_pos h

theorem onRecord_subset_written : onRecord first calls ⊆ written first calls := by
  intro w hw
  rcases List.mem_append.mp hw with hw | hw
  · exact List.mem_append_left _ hw
  · obtain ⟨c, hc, hm⟩ := List.mem_flatMap.mp hw
    refine List.mem_append_right _ (List.mem_flatMap.mpr ⟨c, hc, ?_⟩)
    unfold Call.recorded at hm
    split at hm
    · exact hm
    · cases hm

/-- A file of which the last call that wrote it told the index holds what the index has on record. -/
theorem latest_written_eq (h : ∀ c, lastWriter? relative calls = some c → c.succeeded) :
    latest relative (written first calls) = latest relative (onRecord first calls) := by
  induction calls using List.reverseRecOn with
  | nil => rfl
  | append_singleton calls c ih =>
      rw [lastWriter?_snoc] at h
      rw [written_snoc, onRecord_snoc, latest_append, latest_append]
      cases ht : c.touched relative with
      | true =>
          rw [ht] at h
          have hsome : (latest relative c.wrote).isSome := by
            rw [Option.isSome_iff_ne_none, Ne, latest_eq_none_iff, not_not]
            obtain ⟨w, hw, he⟩ := List.any_eq_true.mp ht
            exact List.mem_map.mpr ⟨w, hw, of_decide_eq_true he⟩
          rw [Call.recorded_eq (h c rfl), Option.or_of_isSome hsome, Option.or_of_isSome hsome]
      | false =>
          rw [ht] at h
          rw [Call.latest_wrote_of_not_touched ht, Call.latest_recorded_of_not_touched ht]
          exact ih h

/-- A text that was brought into the mirror is what the index has on record for its file. -/
theorem Call.Fits.latest_onRecord (hc : c.Fits (onRecord first calls)) (ha : c.asked = some (relative, content))
    (hs : c.succeeded) (hinj : Set.InjOn Digest.sha256 (involved first (calls ++ [c]))) :
    latest relative (onRecord first (calls ++ [c])) = some content := by
  rw [onRecord_snoc, latest_append, recorded_eq hs]
  rcases hc _ ha hs with hwrote | ⟨hwrote, known, hknown, hsame⟩
  · rw [hwrote, latest_singleton, if_pos rfl]
    rfl
  · have hwritten : (relative, known) ∈ written first (calls ++ [c]) := by
      rw [written_snoc]
      exact List.mem_append_left _ (onRecord_subset_written (mem_of_latest hknown))
    have hwanted : (relative, content) ∈ wanted first (calls ++ [c]) := by
      rw [wanted_snoc, concerned_eq ha hs]
      exact List.mem_append_right _ (List.mem_singleton_self _)
    have he : known = content := hinj ⟨relative, .inl hwritten⟩ ⟨relative, .inr hwanted⟩ hsame
    rw [hwrote, latest_nil, Option.none_or, hknown, he]

theorem involved_subset : involved first calls ⊆ involved first (calls ++ [c]) := by
  rintro content ⟨relative, h | h⟩
  · exact ⟨relative, .inl (by rw [written_snoc]; exact List.mem_append_left _ h)⟩
  · exact ⟨relative, .inr (by rw [wanted_snoc]; exact List.mem_append_left _ h)⟩

/-- As long as every call that wrote a file told the index, the index has on record what the file was to
hold. -/
theorem Fitting.latest_wanted_eq (hf : Fitting first calls)
    (hinj : Set.InjOn Digest.sha256 (involved first calls))
    (h : ∀ c ∈ calls, c.touched relative → c.succeeded) :
    latest relative (wanted first calls) = latest relative (onRecord first calls) := by
  induction hf with
  | nil => rfl
  | @snoc calls c hf hc ih =>
      have ih := ih (hinj.mono involved_subset) fun c' hm => h c' (List.mem_append_left _ hm)
      have hown := h c (List.mem_append_right _ (List.mem_singleton_self c))
      have hwrote : latest relative c.wrote = latest relative c.recorded := by
        cases ht : c.touched relative with
        | true => rw [Call.recorded_eq (hown ht)]
        | false => rw [Call.latest_wrote_of_not_touched ht, Call.latest_recorded_of_not_touched ht]
      rw [wanted_snoc, latest_append]
      unfold Call.concerned
      split
      · rename_i a ha
        split
        · rename_i hs
          rw [latest_singleton]
          split
          · rename_i he
            have hlatest : latest a.1 (onRecord first (calls ++ [c])) = some a.2 :=
              hc.latest_onRecord ha hs hinj
            exact he ▸ hlatest.symm
          · rename_i hne
            -- The call is about another file, which it may have written or not.
            have hnone : latest relative c.recorded = none := by
              rw [Call.recorded_eq hs]
              rcases hc a ha hs with hw | ⟨hw, _⟩
              · rw [hw, latest_singleton, if_neg hne]
              · rw [hw, latest_nil]
            rw [onRecord_snoc, latest_append, hnone, ih]
        · rw [onRecord_snoc, latest_append, hwrote, ih]
      · rw [onRecord_snoc, latest_append, hwrote, ih]

end InkServer.Mirror
