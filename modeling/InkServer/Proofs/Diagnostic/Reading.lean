import InkServer.Diagnostic.Findings
import InkServer.Proofs.Path.Written
import InkServer.Proofs.Work
import Mathlib

/-!
# What can be read in a line

A line in the form of a finding need not have a meaning: the word in front may be written with a letter
that has no plain capital, a number may have too many digits, and a path may have no URI. For each of the
three this module says when it has one, in terms of what is written.
-/

namespace InkServer

namespace Report

/-! ## Severity words -/

/-- Some characters spell a word, letter case aside. -/
def Spells (word : String) (written : List Char) : Prop :=
  List.Forall₂ (fun letter c => isLetter letter c = true) (word.toList.map Char.toLower) written

theorem afterWord?_eq_some {word cs rest : List Char} (h : afterWord? word cs = some rest) :
    ∃ written, cs = written ++ rest ∧ List.Forall₂ (fun letter c => isLetter letter c = true) word written := by
  induction word generalizing cs with
  | nil =>
      cases h
      exact ⟨[], rfl, .nil⟩
  | cons letter word ih =>
      cases cs with
      | nil => cases h
      | cons c cs =>
          rw [afterWord?] at h
          split at h
          · rename_i hc
            obtain ⟨written, rfl, hw⟩ := ih h
            exact ⟨c :: written, rfl, .cons hc hw⟩
          · cases h

theorem readSeverity?_eq_some {cs written rest : List Char} (h : readSeverity? cs = some (written, rest)) :
    ∃ known ∈ severities, Spells known.1 written := by
  unfold readSeverity? at h
  obtain ⟨known, hmem, hk⟩ := List.exists_of_findSome?_eq_some h
  obtain ⟨rest', hafter, hpair⟩ := Option.map_eq_some_iff.mp hk
  obtain ⟨front, rfl, hw⟩ := afterWord?_eq_some hafter
  cases hpair
  refine ⟨known, hmem, ?_⟩
  have hlength : (front ++ rest).length - rest.length = front.length := by simp
  rw [hlength, List.take_left]
  exact hw

/-- A letter of a word that is spelled without the dotted capital I is written as one of its own cases, or
as the dotless I. -/
theorem upper_of_isLetter {letter c : Char} (h : isLetter letter c = true) (hc : c ≠ 'İ') (hl : letter ≠ 'ı') :
    (if c = 'ı' then 'I' else c.toUpper) = letter.toUpper := by
  unfold isLetter at h
  by_cases hdotless : c = 'ı'
  · subst hdotless
    have hletter : letter = 'i' := by
      rcases Bool.or_eq_true_iff.mp h with h | h
      · exact absurd (of_decide_eq_true h).symm hl
      · exact of_decide_eq_true (Bool.and_eq_true_iff.mp h).1
    subst hletter
    rfl
  · have hlower : c.toLower = letter := by simpa [hdotless, hc] using h
    rw [if_neg hdotless, ← hlower, Char.toUpper_toLower_eq_toUpper]

theorem map_upper_of_forall₂ {word written : List Char}
    (h : List.Forall₂ (fun letter c => isLetter letter c = true) word written) (hplain : 'İ' ∉ written)
    (hword : 'ı' ∉ word) :
    written.map (fun c => if c = 'ı' then 'I' else c.toUpper) = word.map Char.toUpper := by
  induction h with
  | nil => rfl
  | cons hc _ ih =>
      rw [List.mem_cons, not_or] at hplain hword
      rw [List.map_cons, List.map_cons, ih hplain.2 hword.2,
        upper_of_isLetter hc (Ne.symm hplain.1) (Ne.symm hword.1)]

theorem upperSeverity_of_spells {known : String × Severity} {written : List Char} (hk : known ∈ severities)
    (h : Spells known.1 written) (hplain : 'İ' ∉ written) : upperSeverity written = known.1 := by
  have hknown : ∀ k ∈ severities, 'ı' ∉ k.1.toList.map Char.toLower ∧
      String.ofList ((k.1.toList.map Char.toLower).map Char.toUpper) = k.1 := by decide
  rw [upperSeverity, map_upper_of_forall₂ h hplain (hknown known hk).1, (hknown known hk).2]

/-- A severity is known by the word that is spelled, unless the dotted capital I is in it. -/
theorem readSeverity_of_spells {known : String × Severity} {written : List Char} (hk : known ∈ severities)
    (h : Spells known.1 written) (hplain : 'İ' ∉ written) : readSeverity written = .ok known.2 := by
  have honce : ∀ k ∈ severities, ∀ k' ∈ severities, k'.1 = k.1 → k' = k := by decide
  unfold readSeverity
  rw [upperSeverity_of_spells hk h hplain]
  split
  · rename_i hfind
    have hword := List.find?_some hfind
    rw [← honce known hk _ (List.mem_of_find?_eq_some hfind) (of_decide_eq_true hword)]
  · rename_i hfind
    exact absurd (decide_eq_true rfl) (List.find?_eq_none.mp hfind known hk)

/-- The dotted capital I is its own capital, and no known word has it. -/
theorem readSeverity_of_dotted {written : List Char} (h : 'İ' ∈ written) :
    readSeverity written = .error (.unknownSeverity (upperSeverity written)) := by
  have hmem : 'İ' ∈ (upperSeverity written).toList := by
    rw [upperSeverity, String.toList_ofList]
    exact List.mem_map.mpr ⟨'İ', h, rfl⟩
  have hknown : ∀ k ∈ severities, 'İ' ∉ k.1.toList := by decide
  unfold readSeverity
  split
  · rename_i hfind
    have hword := List.find?_some hfind
    exact absurd (of_decide_eq_true hword ▸ hmem) (hknown _ (List.mem_of_find?_eq_some hfind))
  · rfl

theorem readSeverity_eq_ok_iff {written : List Char} {severity : Severity}
    (h : ∃ known ∈ severities, Spells known.1 written) :
    readSeverity written = .ok severity ↔
      'İ' ∉ written ∧ ∃ known ∈ severities, Spells known.1 written ∧ some severity = some known.2 := by
  by_cases hplain : 'İ' ∈ written
  · rw [readSeverity_of_dotted hplain]
    exact iff_of_false (fun h => by cases h) fun h => h.1 hplain
  · rw [and_iff_right hplain]
    constructor
    · obtain ⟨known, hk, hspells⟩ := h
      rw [readSeverity_of_spells hk hspells hplain]
      exact fun h => ⟨known, hk, hspells, congrArg some (Except.ok.inj h).symm⟩
    · rintro ⟨known, hk, hspells, hseverity⟩
      rw [readSeverity_of_spells hk hspells hplain, Option.some.inj hseverity]

/-! ## Numbers -/

theorem digitsValue?_isSome {digits : List Char} (h : ∀ c ∈ digits, Text.isDigit c = true) (seen : Nat) :
    ∃ n, Text.digitsValue? seen digits = some n := by
  induction digits generalizing seen with
  | nil => exact ⟨seen, rfl⟩
  | cons c rest ih =>
      obtain ⟨d, hd⟩ := Option.isSome_iff_exists.mp (h c List.mem_cons_self)
      rw [Text.digitsValue?, hd]
      exact ih (fun c' hc' => h c' (List.mem_cons_of_mem _ hc')) _

/-- A number can be read unless it has too many digits. -/
theorem readNumber_eq_ok_iff {digits : List Char} {n : Nat} (h : ∃ m, Text.digitsValue? 0 digits = some m) :
    readNumber digits = .ok n ↔ digits.length ≤ maxDigits ∧ Text.digitsValue? 0 digits = some n := by
  obtain ⟨m, hm⟩ := h
  rw [readNumber, hm, Option.getD_some, Option.some_inj]
  split
  · rename_i hlt
    exact iff_of_false (fun h => by cases h) fun h => Nat.not_le.mpr hlt h.1
  · rename_i hle
    rw [and_iff_right (Nat.not_lt.mp hle)]
    exact ⟨Except.ok.inj, congrArg _⟩

/-- A number that need not be there can be read unless it is and has too many digits. -/
theorem mapM_readNumber_eq_ok_iff {written : Option (List Char)} {n : Option Nat}
    (h : ∀ digits ∈ written, ∃ m, Text.digitsValue? 0 digits = some m) :
    written.mapM readNumber = .ok n ↔
      (∀ digits ∈ written, digits.length ≤ maxDigits) ∧ written.bind (Text.digitsValue? 0) = n := by
  cases written with
  | none => exact ⟨fun h => ⟨nofun, Except.ok.inj h⟩, fun h => congrArg Except.ok h.2⟩
  | some digits =>
      rw [Option.mapM_some, map_eq_pure_bind, bind_eq_ok_iff]
      simp only [readNumber_eq_ok_iff (h digits rfl), Option.mem_some_iff, forall_eq', Option.bind_some]
      constructor
      · rintro ⟨m, ⟨hlength, hm⟩, hn⟩
        exact ⟨hlength, hm.trans (Except.ok.inj hn)⟩
      · rintro ⟨hlength, rfl⟩
        obtain ⟨m, hm⟩ := h digits rfl
        exact ⟨m, ⟨hlength, hm⟩, congrArg _ hm.symm⟩

/-! ## Lines -/

/-- What is in a line in the form of a finding: a severity word and numbers. -/
structure Parts.WellFormed (p : Parts) : Prop where
  severity : ∃ known ∈ severities, Spells known.1 p.severity
  line : ∃ n, Text.digitsValue? 0 p.line = some n
  column : ∀ digits ∈ p.column, ∃ n, Text.digitsValue? 0 digits = some n

theorem readColumn?_eq_some {cs digits rest : List Char} (h : readColumn? cs = some (digits, rest)) :
    ∃ n, Text.digitsValue? 0 digits = some n := by
  unfold readColumn? at h
  simp only [Option.bind_eq_bind, Option.bind_eq_some_iff] at h
  obtain ⟨_, _, rest', _, h⟩ := h
  split at h
  · cases h
  · cases h
    exact digitsValue?_isSome (fun c hc => List.mem_takeWhile_imp hc) 0

theorem wellFormed_of_readParts? {line : List Char} {p : Parts} (h : readParts? line = some p) :
    p.WellFormed := by
  unfold readParts? at h
  simp only [Option.bind_eq_bind, Option.bind_eq_some_iff] at h
  obtain ⟨⟨severity, _⟩, hseverity, _, _, ⟨path, _⟩, _, _, _, rest, _, h⟩ := h
  split at h
  · cases h
  · simp only [Option.bind_eq_some_iff] at h
    obtain ⟨_, _, _, _, hp⟩ := h
    cases hp
    refine ⟨readSeverity?_eq_some hseverity,
      digitsValue?_isSome (fun c hc => List.mem_takeWhile_imp hc) 0, fun digits hdigits => ?_⟩
    split at hdigits
    · rename_i hcolumn
      cases hdigits
      exact readColumn?_eq_some hcolumn
    · cases hdigits

end Report

/-! ## Paths that have a URI -/

/-- A path that names an authority, and nothing in it. -/
def Path.IsBareAuthority (p : Path) : Prop := p.start = .doubleRoot ∧ p.segments.length ≤ 1

namespace Uri

theorem ofChars_of_bareAuthority {rest : List Char} (h : '/' ∉ rest) :
    ofChars ('/' :: '/' :: rest) = .error .unfinishedAuthority := by
  have hrest : rest.dropWhile (· ≠ '/') = [] :=
    List.dropWhile_eq_nil_iff.mpr fun c hc => by simpa using fun he : c = '/' => h (he ▸ hc)
  rw [ofChars, hrest]

theorem ofChars_of_authority {rest : List Char} (h : '/' ∈ rest) :
    ∃ uri, ofChars ('/' :: '/' :: rest) = .ok uri := by
  cases hrest : rest.dropWhile (· ≠ '/') with
  | nil =>
      have hnone := List.dropWhile_eq_nil_iff.mp hrest '/' h
      simp at hnone
  | cons c path => exact ⟨_, by rw [ofChars, hrest]⟩

theorem ofChars_of_head {cs : List Char} (h : ∀ rest, cs ≠ '/' :: '/' :: rest) :
    ∃ uri, ofChars cs = .ok uri := by
  refine ⟨assemble [] cs, ?_⟩
  unfold ofChars
  split
  · exact absurd rfl (h _)
  · rfl

/-- A path has a URI unless it is an authority alone. -/
theorem ofPath_isOk_iff (p : Path) : (∃ uri, ofPath p = .ok uri) ↔ ¬ p.IsBareAuthority := by
  unfold ofPath ofPathText
  by_cases hstart : p.start = .doubleRoot
  · have hbare : ¬ p.IsBareAuthority ↔ 1 < p.segments.length := by
      rw [Path.IsBareAuthority, and_iff_right hstart, Nat.not_le]
    rw [Path.text_of_doubleRoot hstart, hbare, ← p.slash_mem_joined_iff]
    by_cases hslash : '/' ∈ p.joined
    · exact iff_of_true (ofChars_of_authority hslash) hslash
    · refine iff_of_false (fun ⟨uri, huri⟩ => ?_) hslash
      rw [ofChars_of_bareAuthority hslash] at huri
      cases huri
  · exact iff_of_true (ofChars_of_head (Path.text_ne_slashes hstart)) fun h => hstart h.1

end Uri

end InkServer
