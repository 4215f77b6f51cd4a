import InkServer.Text.Case

/-!
# Marks and letter case

Lower-casing leaves marks alone: what stands before the letters among the code points stays what it is and where it
is, and nothing else becomes such a mark.
-/

namespace InkServer.Text

/-- A mark, such as a dot or a slash, stands before the letters among the code points. -/
def IsMark (m : Char) : Prop := 0 < m.toNat ∧ m.toNat < 0x41

theorem isMark_dot : IsMark '.' := ⟨by decide, by decide⟩

theorem isMark_slash : IsMark '/' := ⟨by decide, by decide⟩

variable {m : Char}

theorem lowerRuns_above : ∀ run ∈ lowerRuns, 0x41 ≤ run.first ∧ 0x41 ≤ run.image := by
  decide +kernel

theorem ofNat_ne_mark (hm : IsMark m) {n : Nat} (hn : 0x41 ≤ n) : Char.ofNat n ≠ m := by
  rintro rfl
  obtain ⟨hpos, hlt⟩ := hm
  by_cases hv : n.isValidChar
  · have hself : Char.ofNat n = Char.ofNatAux n hv := dif_pos hv
    rw [hself] at hlt
    exact Nat.not_lt.mpr hn hlt
  · have hnull : Char.ofNat n = '\x00' := dif_neg hv
    rw [hnull] at hpos
    exact absurd hpos (by decide)

theorem lowerChar_eq_mark_iff (hm : IsMark m) (c : Char) : lowerChar c = m ↔ c = m := by
  unfold lowerChar
  dsimp only
  split
  · rename_i run hrun
    obtain ⟨hfirst, himage⟩ := lowerRuns_above run (List.mem_of_find?_eq_some hrun)
    have hge := List.find?_some hrun
    simp only [Bool.and_eq_true, decide_eq_true_eq] at hge
    apply iff_of_false (ofNat_ne_mark hm (Nat.le_add_right_of_le himage))
    rintro rfl
    have hlt := hm.2
    omega
  · rfl

/-- The lower case of a character in a text: a mark is a mark, and no mark is what anything else becomes. -/
theorem lowerFrom_cons (hm : IsMark m) (before : List Char) (c : Char) (rest : List Char) :
    ∃ image, lowerFrom before (c :: rest) = image ++ lowerFrom (c :: before) rest ∧ image ≠ [] ∧
      (c = m → image = [m]) ∧ (c ≠ m → m ∉ image) := by
  have hlt := hm.2
  have hother : ∀ {x : Char}, 0x41 ≤ x.toNat → m ≠ x := by
    rintro x hx rfl
    omega
  refine ⟨_, rfl, ?_⟩
  split
  · rename_i hc
    have hne : c ≠ m := hc ▸ (hother (by decide)).symm
    refine ⟨by simp, fun h => absurd h hne, fun _ => ?_⟩
    split
    · simpa using hother (by decide)
    · simpa using hother (by decide)
  · split
    · rename_i hc
      have hne : c ≠ m := hc ▸ (hother (by decide)).symm
      refine ⟨by simp, fun h => absurd h hne, fun _ => ?_⟩
      simpa using ⟨hother (x := 'i') (by decide), hother (x := '\u0307') (by decide)⟩
    · refine ⟨by simp, fun h => ?_, fun h => ?_⟩
      · rw [(lowerChar_eq_mark_iff hm c).mpr h]
      · simpa using fun he => h ((lowerChar_eq_mark_iff hm c).mp (Eq.symm he))

theorem count_lowerFrom (hm : IsMark m) (before cs : List Char) : (lowerFrom before cs).count m = cs.count m := by
  induction cs generalizing before with
  | nil => rfl
  | cons c rest ih =>
      obtain ⟨image, himage, -, hsame, hnot⟩ := lowerFrom_cons hm before c rest
      rw [himage, List.count_append, ih]
      by_cases hc : c = m
      · rw [hsame hc, hc, List.count_cons_self, List.count_cons_self]
        simp [Nat.add_comm]
      · rw [List.count_eq_zero_of_not_mem (hnot hc), List.count_cons_of_ne hc, Nat.zero_add]

theorem length_le_lowerFrom (before cs : List Char) : cs.length ≤ (lowerFrom before cs).length := by
  induction cs generalizing before with
  | nil => exact Nat.le_refl _
  | cons c rest ih =>
      obtain ⟨image, himage, hne, -⟩ := lowerFrom_cons isMark_dot before c rest
      have hpos := List.length_pos_iff.mpr hne
      have hrest := ih (c :: before)
      rw [himage, List.length_append, List.length_cons]
      omega

theorem head?_lowerFrom (hm : IsMark m) (before cs : List Char) :
    (lowerFrom before cs).head? = some m ↔ cs.head? = some m := by
  cases cs with
  | nil => exact Iff.rfl
  | cons c rest =>
      obtain ⟨image, himage, hne, hsame, hnot⟩ := lowerFrom_cons hm before c rest
      obtain ⟨x, image, rfl⟩ := List.exists_cons_of_ne_nil hne
      rw [himage, List.cons_append, List.head?_cons, List.head?_cons, Option.some_inj, Option.some_inj]
      constructor
      · intro hx
        exact Decidable.byContradiction fun hc => hnot hc (hx ▸ List.mem_cons_self)
      · intro hc
        exact (List.cons_eq_cons.mp (hsame hc)).1

/-! ## Texts that differ in letter case -/

section

variable {s t : String} (hm : IsMark m) (h : lower s = lower t)

include h

theorem lowerFrom_eq_of_lower_eq : lowerFrom [] s.toList = lowerFrom [] t.toList := by
  have h := congrArg String.toList h
  unfold lower at h
  rwa [String.toList_ofList, String.toList_ofList] at h

include hm

theorem count_eq_of_lower_eq : s.toList.count m = t.toList.count m := by
  rw [← count_lowerFrom hm [], lowerFrom_eq_of_lower_eq h, count_lowerFrom hm]

theorem head?_eq_of_lower_eq : s.toList.head? = some m ↔ t.toList.head? = some m := by
  rw [← head?_lowerFrom hm [], lowerFrom_eq_of_lower_eq h, head?_lowerFrom hm]

end

end InkServer.Text
