import InkServer.Proofs.Mirror.Contents
import InkServer.Proofs.Path.Written

/-!
# The places of mirrors

All mirrors stand side by side in one directory, each under a name of its own, and what is compiled stands
beside them. The way to that directory leads past whatever stands in the mirrors, so that nothing that is
done in one of them changes where the others are.
-/

namespace InkServer

/-! ## Paths of mirrors -/

namespace Path

/-- A segment is read as a relative path of itself. -/
theorem ofText_of_isSegment {s : String} (h : IsSegment s) :
    (ofText s).start = .relative ∧ (ofText s).segments = [s] := by
  obtain ⟨hne, hdot, hslash⟩ := h
  constructor
  · show startOf s.toList = .relative
    cases hs : s.toList with
    | nil => rfl
    | cons c cs =>
        have hc : c ≠ '/' := fun he => hslash (by rw [hs, he]; exact List.mem_cons_self)
        unfold startOf
        split <;> simp_all
  · show ((Text.pieces '/' s.toList).map String.ofList).filter (fun s => decide (IsSegment s)) = [s]
    rw [Text.pieces_of_not_mem hslash, List.map_singleton, String.ofList_toList, List.filter_eq_self]
    exact fun t ht => List.mem_singleton.mp ht ▸ decide_eq_true ⟨hne, hdot, hslash⟩

theorem segments_child {name : String} (h : IsSegment name) (p : Path) :
    (p.child name).segments = p.segments ++ [name] := by
  obtain ⟨hstart, hsegments⟩ := ofText_of_isSegment h
  show (p.join (ofText name)).segments = _
  unfold join
  rw [if_neg (by simp [isAbsolute, hstart])]
  exact congrArg (p.segments ++ ·) hsegments

end Path

namespace Mirror

theorem slash_not_mem_repr (number : Nat) : '/' ∉ number.repr.toList := by
  rw [Nat.repr, String.toList_ofList]
  intro h
  exact absurd (Nat.isDigit_of_mem_toDigits (by decide) (by decide) h) (by decide)

theorem toList_scratchName (number : Nat) :
    (scratchName number).toList = "inkls-".toList ++ number.repr.toList := String.toList_append ..

/-- Mirrors with different numbers have different names. -/
theorem scratchName_injective : Function.Injective scratchName := by
  intro number number' h
  have hlist := congrArg String.toList h
  rw [toList_scratchName, toList_scratchName, Nat.toList_repr, Nat.toList_repr] at hlist
  have hdigits := congrArg (Nat.ofDigitChars 10 · 0) (List.append_cancel_left hlist)
  simpa only [Nat.ofDigitChars_toDigits (b := 10) (by decide) (by decide)] using hdigits

/-- A name that begins with an `i` and has no slash is a segment. -/
theorem isSegment_of_toList {s : String} (cs : List Char) (hs : s.toList = 'i' :: cs) (hc : '/' ∉ cs) :
    IsSegment s := by
  refine ⟨?_, ?_, ?_⟩
  · rintro rfl
    exact nomatch hs
  · rintro rfl
    exact absurd (List.cons.inj hs).1 (by decide)
  · rw [hs, List.mem_cons, not_or]
    exact ⟨by decide, hc⟩

theorem isSegment_scratchName (number : Nat) : IsSegment (scratchName number) := by
  refine isSegment_of_toList ("nkls-".toList ++ number.repr.toList) (toList_scratchName number) ?_
  rw [List.mem_append, not_or]
  exact ⟨by decide, slash_not_mem_repr number⟩

/-- The name of what is compiled from a mirror. -/
def outputName (number : Nat) : String := scratchName number ++ ".json"

theorem isSegment_outputName (number : Nat) : IsSegment (outputName number) := by
  have hlist : (outputName number).toList = 'i' :: ("nkls-".toList ++ number.repr.toList ++ ".json".toList) := by
    unfold outputName
    rw [String.toList_append, toList_scratchName]
    rfl
  refine isSegment_of_toList _ hlist ?_
  rw [List.mem_append, List.mem_append, not_or, not_or]
  exact ⟨⟨by decide, slash_not_mem_repr number⟩, by decide⟩

theorem scratchName_ne_up (number : Nat) : scratchName number ≠ ".." := by
  intro h
  have hlist := congrArg String.toList h
  rw [toList_scratchName] at hlist
  exact absurd (List.cons.inj hlist).1 (by decide)

variable {policy : MirrorPolicy} {number : Nat} {m : Mirror}

theorem segments_scratch (policy : MirrorPolicy) (number : Nat) :
    (policy.tempRoot.child (scratchName number)).segments = policy.tempRoot.segments ++ [scratchName number] :=
  Path.segments_child (isSegment_scratchName number) _

theorem child_scratchName_injective (policy : MirrorPolicy) :
    Function.Injective fun number => policy.tempRoot.child (scratchName number) := by
  intro number number' h
  have hsegments := congrArg Path.segments h
  simp only [segments_scratch] at hsegments
  exact scratchName_injective (List.cons.inj (List.append_cancel_left hsegments)).1

/-- A mirror that was made meanwhile was none before. -/
theorem IsMadeSince.not_isMade {d d' : Disk} (h : m.IsMadeSince policy d d') :
    ¬m.IsMade policy d := by
  rintro ⟨k, _, hk, he⟩
  obtain ⟨k', hk', _, he'⟩ := h
  cases child_scratchName_injective policy (he.symm.trans he')
  exact Nat.not_lt_of_le hk hk'

theorem segments_outputPath (hm : m.path = policy.tempRoot.child (scratchName number)) :
    m.outputPath.segments = policy.tempRoot.segments ++ [outputName number] := by
  have hsegments : m.path.segments = policy.tempRoot.segments ++ [scratchName number] :=
    hm ▸ segments_scratch policy number
  have hname : m.path.name = scratchName number := by
    unfold Path.name
    rw [hsegments, List.getLastD_concat]
  unfold outputPath Path.withName
  rw [hname]
  refine (Path.segments_child (isSegment_outputName number) _).trans ?_
  show m.path.segments.dropLast ++ _ = _
  rw [hsegments, List.dropLast_concat]

end Mirror

end InkServer
