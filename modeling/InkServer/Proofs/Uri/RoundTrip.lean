import InkServer.Proofs.Diagnostic.Reading
import InkServer.Proofs.Uri.Escapes

/-!
# From a path to its URI and back

A URI is written in characters that no part of a URI gives a meaning to, so that every step of reading it
takes it apart where it was put together. What comes back is the path, with two exceptions: a relative path
comes back as seen from the root, and what stands in the place of a drive comes back in lower case. Paths that
start with one slash and no drive come back as they were, and so they have different URIs.
-/

namespace InkServer

namespace Uri

/-! ## What a written URI is made of -/

/-- The characters of a URI behind the authority mark: unreserved ones, those of escapes, and the colon of
a drive. -/
def isPlain (c : Char) : Bool := isUnreserved c || c = '%' || c = ':'

theorem isUnreserved_upperHexDigit {n : Nat} (h : n < 16) : isUnreserved (upperHexDigit n) = true := by
  have hall : ∀ n < 16, isUnreserved (upperHexDigit n) = true := by decide
  exact hall n h

theorem isPlain_of_isUnreserved {c : Char} (h : isUnreserved c = true) : isPlain c = true := by
  simp [isPlain, h]

theorem isPlain_of_mem_escapeByte {b : UInt8} {c : Char} (h : c ∈ escapeByte b) : isPlain c = true := by
  have hb : b.toNat < 256 := b.toNat_lt
  simp only [escapeByte, List.mem_cons, List.not_mem_nil, or_false] at h
  rcases h with rfl | rfl | rfl
  · rfl
  · exact isPlain_of_isUnreserved (isUnreserved_upperHexDigit (by omega))
  · exact isPlain_of_isUnreserved (isUnreserved_upperHexDigit (by omega))

theorem isPlain_of_mem_escape {cs : List Char} {c : Char} (h : c ∈ escape cs) : isPlain c = true := by
  obtain ⟨c', _, hc⟩ := List.mem_flatMap.mp h
  unfold escapeChar at hc
  split at hc
  · rename_i hunreserved
    rw [List.mem_singleton.mp hc]
    exact isPlain_of_isUnreserved hunreserved
  · obtain ⟨b, _, hb⟩ := List.mem_flatMap.mp hc
    exact isPlain_of_mem_escapeByte hb

theorem toNat_lt_of_isPlain {c : Char} (h : isPlain c = true) : c.toNat < 0x80 := by
  simp only [isPlain, Bool.or_eq_true, decide_eq_true_eq] at h
  rcases h with (h | rfl) | rfl
  · exact toNat_lt_of_isUnreserved h
  · decide
  · decide

/-- A slash is only written for a slash. -/
theorem slash_not_mem_escape {cs : List Char} (h : '/' ∉ cs) : '/' ∉ escape cs := by
  intro hmem
  obtain ⟨c, hc, hslash⟩ := List.mem_flatMap.mp hmem
  unfold escapeChar at hslash
  split at hslash
  · exact h (List.mem_singleton.mp hslash ▸ hc)
  · obtain ⟨b, _, hb⟩ := List.mem_flatMap.mp hslash
    have hdigit : ∀ n < 16, upperHexDigit n ≠ '/' := by decide
    have hb256 : b.toNat < 256 := b.toNat_lt
    simp only [escapeByte, List.mem_cons, List.not_mem_nil, or_false] at hb
    rcases hb with hb | hb | hb
    · exact absurd hb (by decide)
    · exact hdigit _ (by omega) hb.symm
    · exact hdigit _ (by omega) hb.symm

theorem lt_toNat_of_isPlain {c : Char} (h : isPlain c = true) : 0x20 < c.toNat := by
  have hle (a b : Char) (h : a ≤ b) : a.toNat ≤ b.toNat := h
  simp only [isPlain, isUnreserved, Bool.or_eq_true, Bool.and_eq_true, decide_eq_true_eq] at h
  rcases h with (((((((((h | h) | h) | rfl) | rfl) | rfl) | rfl) | rfl) | rfl) | rfl)
  · exact Nat.lt_of_lt_of_le (by decide) (hle _ _ h.1)
  · exact Nat.lt_of_lt_of_le (by decide) (hle _ _ h.1)
  · exact Nat.lt_of_lt_of_le (by decide) (hle _ _ h.1)
  all_goals decide

theorem not_isPlain_of_mem {c : Char} (h : c ∈ ['#', '?', '[', ']', '\t', '\r', '\n']) : isPlain c = false := by
  simp only [List.mem_cons, List.not_mem_nil, or_false] at h
  rcases h with rfl | rfl | rfl | rfl | rfl | rfl | rfl <;> rfl

theorem ne_of_isPlain {c d : Char} (hc : isPlain c = true) (hd : d ∈ ['#', '?', '[', ']', '\t', '\r', '\n']) :
    c ≠ d := by
  rintro rfl
  rw [not_isPlain_of_mem hd] at hc
  exact absurd hc (by decide)

/-! ## The parts of a URI of plain characters -/

theorem clean_of_isPlain {cs : List Char} (h : ∀ c ∈ cs, isPlain c = true) : clean cs = cs := by
  have hfront : cs.dropWhile (fun c => decide (c.toNat ≤ 0x20)) = cs := by
    cases cs with
    | nil => rfl
    | cons c cs =>
        have hc := lt_toNat_of_isPlain (h c List.mem_cons_self)
        rw [List.dropWhile_cons_of_neg (by simpa using hc)]
  unfold clean
  rw [hfront, List.filter_eq_self]
  intro c hc
  simp [ne_of_isPlain (h c hc)]

theorem splitScheme_file (cs : List Char) : splitScheme ("file:".toList ++ cs) = ("file".toList, cs) := by
  unfold splitScheme
  simp
  decide

theorem splitAuthority_of_slash {authority path : List Char} (ha : ∀ c ∈ authority, isPlain c = true)
    (hslash : '/' ∉ authority) :
    splitAuthority ('/' :: '/' :: (authority ++ '/' :: path)) = (authority, '/' :: path) := by
  have hends : ∀ c ∈ authority, (!endsAuthority c) = true := by
    intro c hc
    have hne : c ≠ '/' := fun he => hslash (he ▸ hc)
    simp [endsAuthority, hne, ne_of_isPlain (ha c hc)]
  show (List.takeWhile _ _, List.dropWhile _ _) = _
  rw [List.takeWhile_append_of_pos hends, List.dropWhile_append_of_pos hends]
  simp [endsAuthority]

theorem disguises_large : ∀ n ∈ disguises, 0x80 ≤ n := by decide

theorem checkAuthority_of_isPlain {authority : List Char} (h : ∀ c ∈ authority, isPlain c = true) :
    checkAuthority authority = .ok () := by
  have hopen : '[' ∉ authority := fun hmem => ne_of_isPlain (h _ hmem) (d := '[') (by decide) rfl
  have hclose : ']' ∉ authority := fun hmem => ne_of_isPlain (h _ hmem) (d := ']') (by decide) rfl
  have hdisguised : (authority.any fun c => disguises.contains c.toNat) = false := by
    rw [List.any_eq_false]
    intro c hc hmem
    have hlarge := disguises_large c.toNat (by simpa using hmem)
    have hsmall := toNat_lt_of_isPlain (h c hc)
    omega
  unfold checkAuthority
  simp only [hopen, hclose, hdisguised]
  rfl

theorem takeWhile_of_isPlain {cs : List Char} (h : ∀ c ∈ cs, isPlain c = true) :
    cs.takeWhile (fun c => c ≠ '#' && c ≠ '?') = cs := by
  rw [List.takeWhile_eq_self_iff]
  intro c hc
  simp [ne_of_isPlain (h c hc)]

/-- A path text without the slash before a drive, whose letter is written in lower case. -/
def withoutDriveSlash (path : List Char) : List Char :=
  match path with
  | '/' :: c :: ':' :: rest => if isAsciiLetter c then c.toLower :: ':' :: rest else path
  | _ => path

theorem startsWithDrive_eq_true_iff {path : List Char} :
    startsWithDrive path = true ↔ ∃ c rest, path = '/' :: c :: ':' :: rest ∧ isAsciiLetter c = true := by
  constructor
  · intro h
    unfold startsWithDrive at h
    split at h
    · exact ⟨_, _, rfl, h⟩
    · exact absurd h (by decide)
  · rintro ⟨c, rest, rfl, hc⟩
    exact hc

theorem withoutDriveSlash_of_drive {c : Char} (h : isAsciiLetter c = true) (rest : List Char) :
    withoutDriveSlash ('/' :: c :: ':' :: rest) = c.toLower :: ':' :: rest := if_pos h

theorem withoutDriveSlash_of_no_drive {path : List Char} (h : startsWithDrive path = false) :
    withoutDriveSlash path = path := by
  unfold startsWithDrive at h
  unfold withoutDriveSlash
  split
  · simp_all
  · rfl

theorem withoutDriveSlash_eq (path : List Char) :
    (if startsWithDrive path then
      match path with
      | _ :: c :: rest => pure (c.toLower :: rest)
      | _ => pure path
    else pure path : Except Error (List Char)) = .ok (withoutDriveSlash path) := by
  cases hdrive : startsWithDrive path with
  | true =>
      obtain ⟨c, rest, rfl, hc⟩ := startsWithDrive_eq_true_iff.mp hdrive
      rw [withoutDriveSlash_of_drive hc]
      rfl
  | false =>
      rw [withoutDriveSlash_of_no_drive hdrive]
      rfl

theorem unescape_cons {c : Char} (hc : c.toNat < 0x80) (hne : c ≠ '%') (cs : List Char) :
    unescape (c :: cs) = c :: unescape cs := by
  unfold unescape
  rw [unescapeFrom]
  simp [hc, hne, Text.Utf8.step_between_of_lt hc]

/-- What a URI of plain characters stands for. -/
theorem pathText_file {authority path : List Char} (ha : ∀ c ∈ authority, isPlain c = true)
    (hslash : '/' ∉ authority) (hp : ∀ c ∈ path, isPlain c = true) :
    pathText (String.ofList ("file://".toList ++ authority ++ '/' :: path)) =
      .ok (if unescape authority = [] then withoutDriveSlash (unescape ('/' :: path))
        else '/' :: '/' :: (unescape authority ++ unescape ('/' :: path))) := by
  have hall : ∀ c ∈ "file:".toList ++ '/' :: '/' :: (authority ++ '/' :: path), isPlain c = true := by
    have hfile : ∀ c ∈ "file:".toList, isPlain c = true := List.all_eq_true.mp rfl
    intro c hc
    simp only [List.mem_append, List.mem_cons] at hc
    rcases hc with hc | rfl | rfl | hc | rfl | hc
    · exact hfile c hc
    · rfl
    · rfl
    · exact ha c hc
    · rfl
    · exact hp c hc
  have hpath : ∀ c ∈ '/' :: path, isPlain c = true := by
    intro c hc
    rcases List.mem_cons.mp hc with rfl | hc
    · rfl
    · exact hp c hc
  have htext : "file://".toList ++ authority ++ '/' :: path =
      "file:".toList ++ '/' :: '/' :: (authority ++ '/' :: path) := by simp
  unfold pathText
  rw [String.toList_ofList, htext, clean_of_isPlain hall, splitScheme_file]
  simp only [splitAuthority_of_slash ha hslash, checkAuthority_of_isPlain ha, takeWhile_of_isPlain hpath,
    bind, Except.bind]
  rw [if_neg fun h => h rfl]
  by_cases hnone : unescape authority = []
  · rw [if_pos hnone, if_neg fun h => h.1 hnone]
    exact withoutDriveSlash_eq _
  · have hsome : unescape ('/' :: path) ≠ [] := by
      rw [unescape_cons (by decide) (by decide)]
      exact List.cons_ne_nil _ _
    rw [if_neg hnone, if_pos ⟨hnone, hsome⟩]
    rfl

/-! ## Drives -/

theorem toNat_lt_of_isAsciiLetter {c : Char} (h : isAsciiLetter c = true) : c.toNat < 0x80 := by
  have hunreserved : isUnreserved c = true := by
    unfold isAsciiLetter at h
    unfold isUnreserved
    rw [h]
    rfl
  exact toNat_lt_of_isUnreserved hunreserved

/-- A letter in lower case is a letter in lower case. -/
theorem toLower_of_isAsciiLetter {c : Char} (h : isAsciiLetter c = true) :
    isAsciiLetter c.toLower = true ∧ c.toLower.toLower = c.toLower := by
  have hall : ∀ n < 0x80, isAsciiLetter (Char.ofNat n) = true →
      isAsciiLetter (Char.ofNat n).toLower = true ∧
        (Char.ofNat n).toLower.toLower = (Char.ofNat n).toLower := by decide +kernel
  have hc := hall c.toNat (toNat_lt_of_isAsciiLetter h)
  rw [Char.ofNat_toNat] at hc
  exact hc h

/-- A path text whose drive letter, if it has one, is in lower case. -/
def lowerDrive (path : List Char) : List Char :=
  match path with
  | '/' :: c :: ':' :: rest => if isAsciiLetter c then '/' :: c.toLower :: ':' :: rest else path
  | _ => path

theorem lowerDrive_of_drive {c : Char} (h : isAsciiLetter c = true) (rest : List Char) :
    lowerDrive ('/' :: c :: ':' :: rest) = '/' :: c.toLower :: ':' :: rest := if_pos h

theorem lowerDrive_of_no_drive {path : List Char} (h : startsWithDrive path = false) :
    lowerDrive path = path := by
  unfold startsWithDrive at h
  unfold lowerDrive
  split
  · simp_all
  · rfl

/-! ## The URI of an authority and a path -/

theorem assemble_of_drive {c : Char} (h : isAsciiLetter c = true) (authority rest : List Char) :
    assemble authority ('/' :: c :: ':' :: rest) =
      String.ofList ("file://".toList ++ escape authority ++ '/' :: c.toLower :: ':' :: escape rest) := by
  unfold assemble
  simp [h]

theorem assemble_of_no_drive {path : List Char} (h : startsWithDrive ('/' :: path) = false)
    (authority : List Char) :
    assemble authority ('/' :: path) =
      String.ofList ("file://".toList ++ escape authority ++ '/' :: escape path) := by
  have hescaped : escape ('/' :: path) = '/' :: escape path := rfl
  unfold startsWithDrive at h
  unfold assemble
  simp only [List.head?_cons, if_true]
  split
  · simp_all
  · rw [hescaped]

/-- What the URI of an authority and a path stands for. -/
theorem pathText_assemble {authority : List Char} (hslash : '/' ∉ authority) (path : List Char) :
    pathText (assemble authority ('/' :: path)) =
      .ok (if authority = [] then withoutDriveSlash ('/' :: path)
        else '/' :: '/' :: (authority ++ lowerDrive ('/' :: path))) := by
  have ha : ∀ c ∈ escape authority, isPlain c = true := fun c hc => isPlain_of_mem_escape hc
  have hslash' := slash_not_mem_escape hslash
  cases hdrive : startsWithDrive ('/' :: path) with
  | false =>
      have hp : ∀ c ∈ escape path, isPlain c = true := fun c hc => isPlain_of_mem_escape hc
      rw [assemble_of_no_drive hdrive, pathText_file ha hslash' hp, unescape_cons (by decide) (by decide),
        unescape_escape, unescape_escape, lowerDrive_of_no_drive hdrive]
  | true =>
      obtain ⟨c, rest, hpath, hc⟩ := startsWithDrive_eq_true_iff.mp hdrive
      cases hpath
      obtain ⟨hlower, htwice⟩ := toLower_of_isAsciiLetter hc
      have hp : ∀ c' ∈ c.toLower :: ':' :: escape rest, isPlain c' = true := by
        intro c' hc'
        simp only [List.mem_cons] at hc'
        rcases hc' with rfl | rfl | hc'
        · unfold isAsciiLetter at hlower
          simp [isPlain, isUnreserved, hlower]
        · rfl
        · exact isPlain_of_mem_escape hc'
      have hne : c.toLower ≠ '%' := by
        intro he
        rw [he] at hlower
        exact absurd hlower (by decide)
      rw [assemble_of_drive hc, pathText_file ha hslash' hp, unescape_cons (by decide) (by decide),
        unescape_cons (toNat_lt_of_isAsciiLetter hlower) hne, unescape_cons (by decide) (by decide),
        unescape_escape, unescape_escape, lowerDrive_of_drive hc, withoutDriveSlash_of_drive hc,
        withoutDriveSlash_of_drive hlower, htwice]

end Uri

namespace Path

/-! ## Paths as their URIs name them -/

/-- The segment of a drive with its letter in lower case, and any other segment as it is. -/
def lowerSegment (s : String) : String := String.ofList ((Uri.lowerDrive ('/' :: s.toList)).drop 1)

theorem isSegment_lowerSegment {s : String} (h : IsSegment s) : IsSegment (lowerSegment s) := by
  unfold lowerSegment Uri.lowerDrive
  split
  · rename_i c rest hs
    split
    · rename_i hletter
      have hlist : s.toList = c :: ':' :: rest := (List.cons.inj hs).2
      have hslash : '/' ∉ c :: ':' :: rest := hlist ▸ h.2.2
      have hc : c.toLower ≠ '/' := by
        intro hc
        have hlower := (Uri.toLower_of_isAsciiLetter hletter).1
        rw [hc] at hlower
        exact absurd hlower (by decide)
      simp only [List.mem_cons, not_or] at hslash
      refine ⟨?_, ?_, ?_⟩
      · simp
      · simp [← String.toList_inj]
      · simp [Ne.symm hc, hslash.2.2]
    · simpa using h
  · simpa using h

/-- The path as its URI names it: what stands in the place of a drive has its letter in lower case. -/
def asNamed (p : Path) : Path :=
  let k := if p.start = .doubleRoot then 1 else 0
  ⟨p.start, p.segments.take k ++ (p.segments.drop k).modifyHead lowerSegment, by
    intro s hs
    rcases List.mem_append.mp hs with hs | hs
    · exact p.valid s (List.mem_of_mem_take hs)
    · have hdrop : ∀ t ∈ p.segments.drop k, IsSegment t := fun t ht => p.valid t (List.mem_of_mem_drop ht)
      cases hsegments : p.segments.drop k with
      | nil => simp [hsegments] at hs
      | cons t rest =>
          rw [hsegments] at hs hdrop
          rcases List.mem_cons.mp hs with rfl | hs
          · exact isSegment_lowerSegment (hdrop t List.mem_cons_self)
          · exact hdrop s (List.mem_cons_of_mem t hs)⟩

theorem text_of_root {p : Path} (h : p.start = .root) : p.text.toList = '/' :: p.joined := by
  rw [toList_text (by simp [h]), h]
  rfl

theorem joined_of_cons {p q : Path} {s : String} (h : p.segments = s :: q.segments) (hq : q.segments ≠ []) :
    p.joined = s.toList ++ '/' :: q.joined := by
  unfold joined
  rw [h]
  cases hrest : q.segments with
  | nil => exact absurd hrest hq
  | cons t rest => simp

/-- What stands behind the first of several joined texts does not depend on it. -/
theorem exists_intercalate_cons (sep : Char) (rest : List (List Char)) :
    ∃ tail : List Char, tail.head? ∈ [none, some sep] ∧ ∀ cs, [sep].intercalate (cs :: rest) = cs ++ tail := by
  cases rest with
  | nil => exact ⟨[], by simp, by simp⟩
  | cons p rest => exact ⟨sep :: [sep].intercalate (p :: rest), by simp, by simp⟩

theorem lowerDrive_append {cs tail : List Char} (hne : cs ≠ []) (htail : tail.head? ≠ some ':') :
    Uri.lowerDrive ('/' :: (cs ++ tail)) = Uri.lowerDrive ('/' :: cs) ++ tail := by
  match cs with
  | [] => exact absurd rfl hne
  | [c] =>
      have hno : Uri.startsWithDrive ('/' :: c :: tail) = false := by
        unfold Uri.startsWithDrive
        split
        · simp_all
        · rfl
      rw [List.singleton_append, Uri.lowerDrive_of_no_drive hno, Uri.lowerDrive_of_no_drive rfl]
      rfl
  | c :: d :: rest =>
      by_cases hd : d = ':' ∧ Uri.isAsciiLetter c = true
      · obtain ⟨rfl, hc⟩ := hd
        rw [Uri.lowerDrive_of_drive hc]
        exact Uri.lowerDrive_of_drive hc (rest ++ tail)
      · have hno (more : List Char) : Uri.startsWithDrive ('/' :: c :: d :: more) = false := by
          unfold Uri.startsWithDrive
          split
          · simp_all
          · rfl
        rw [Uri.lowerDrive_of_no_drive (hno rest)]
        exact Uri.lowerDrive_of_no_drive (hno (rest ++ tail))

/-- Nothing but the first segment can be a drive. -/
theorem lowerDrive_joined {p q : Path} (h : q.segments = p.segments.modifyHead lowerSegment) :
    Uri.lowerDrive ('/' :: p.joined) = '/' :: q.joined := by
  unfold joined
  rw [h]
  cases hs : p.segments with
  | nil => rfl
  | cons s rest =>
      have hsegment : IsSegment s := p.valid s (hs ▸ List.mem_cons_self)
      have hne : s.toList ≠ [] := fun hnil => hsegment.1 (String.toList_eq_nil_iff.mp hnil)
      obtain ⟨tail, hhead, htail⟩ := exists_intercalate_cons '/' (rest.map String.toList)
      have hcolon : tail.head? ≠ some ':' := by
        intro hc
        rw [hc] at hhead
        exact absurd hhead (by decide)
      rw [List.modifyHead_cons, List.map_cons, List.map_cons, htail, htail, lowerDrive_append hne hcolon,
        lowerSegment, String.toList_ofList]
      unfold Uri.lowerDrive
      split
      · split <;> rfl
      · rfl

end Path

namespace Uri

/-! ## The URI of a path -/

theorem looksLikeUri_file (cs : List Char) : looksLikeUri ("file://".toList ++ cs) = true := by
  simp [looksLikeUri]

theorem toPath_assemble {authority : List Char} (hslash : '/' ∉ authority) (path : List Char) :
    toPath (assemble authority ('/' :: path)) =
      .ok (Path.ofText (String.ofList (if authority = [] then withoutDriveSlash ('/' :: path)
        else '/' :: '/' :: (authority ++ lowerDrive ('/' :: path))))) := by
  have hlooks : looksLikeUri (assemble authority ('/' :: path)).toList = true := by
    unfold assemble
    simp only [String.toList_ofList, List.append_assoc]
    exact looksLikeUri_file _
  unfold toPath
  rw [if_pos hlooks, pathText_assemble hslash]
  rfl

/-- A path text gets a slash in front if it has none. -/
theorem assemble_of_head {cs : List Char} (h : cs.head? ≠ some '/') (authority : List Char) :
    assemble authority cs = assemble authority ('/' :: cs) := by
  have hslash : ('/' :: cs).head? = some '/' := rfl
  unfold assemble
  rw [if_neg h, if_pos hslash]

theorem ofPath_of_root {p : Path} (h : p.start = .root) : ofPath p = .ok (assemble [] ('/' :: p.joined)) := by
  have htext := Path.text_of_root h
  have hslashes := Path.text_ne_slashes (p := p) (by simp [h])
  rw [htext] at hslashes
  unfold ofPath ofPathText ofChars
  rw [htext]
  split
  · rename_i he
    exact absurd he (hslashes _)
  · rfl

theorem ofPath_of_relative {p : Path} (h : p.start = .relative) (hne : p.segments ≠ []) :
    ofPath p = .ok (assemble [] ('/' :: p.joined)) := by
  have htext : p.text.toList = p.joined := by
    rw [Path.toList_text fun _ => hne, h]
    rfl
  have hhead : p.joined.head? ≠ some '/' := by
    intro hhead
    cases hp : p.joined with
    | nil => simp [hp] at hhead
    | cons c cs =>
        rw [hp] at hhead
        exact p.joined_ne_slash_cons cs (hp.trans (by simpa using hhead))
  unfold ofPath ofPathText ofChars
  rw [htext]
  split
  · rename_i he
    exact absurd he (p.joined_ne_slash_cons _)
  · rw [assemble_of_head hhead]

theorem ofPath_here : ofPath Path.here = .ok (assemble [] ['/', '.']) := by
  have htext : Path.here.text.toList = ['.'] := by decide
  unfold ofPath ofPathText ofChars
  rw [htext]
  exact congrArg Except.ok (assemble_of_head (by decide) [])

theorem ofPath_of_doubleRoot {p q : Path} {s : String} (h : p.start = .doubleRoot)
    (hs : p.segments = s :: q.segments) (hq : q.segments ≠ []) :
    ofPath p = .ok (assemble s.toList ('/' :: q.joined)) := by
  have hsegment : IsSegment s := p.valid s (hs ▸ List.mem_cons_self)
  have hslash : ∀ c ∈ s.toList, decide (c ≠ '/') = true := by
    intro c hc
    exact decide_eq_true fun he => hsegment.2.2 (he ▸ hc)
  unfold ofPath ofPathText ofChars
  rw [Path.text_of_doubleRoot h, Path.joined_of_cons hs hq]
  simp only [List.takeWhile_append_of_pos hslash, List.dropWhile_append_of_pos hslash]
  simp

/-- The path of a URI without authority may be written without its slash. -/
theorem absolute_ofText_withoutDriveSlash {p q : Path} (hstart : q.start ≠ .doubleRoot)
    (hq : q.segments = p.segments.modifyHead Path.lowerSegment) :
    (Path.ofText (String.ofList (withoutDriveSlash ('/' :: p.joined)))).absolute = q.absolute := by
  have habsolute (start : PathStart) (h : start ≠ .doubleRoot) :
      (Path.ofText (String.ofList ((Path.startText start).toList ++ q.joined))).absolute = q.absolute := by
    obtain ⟨start', segments, valid⟩ := q
    rw [Path.ofText_joined]
    cases start <;> cases start' <;> first | rfl | contradiction
  have hlower := Path.lowerDrive_joined hq
  cases hdrive : startsWithDrive ('/' :: p.joined) with
  | false =>
      rw [withoutDriveSlash_of_no_drive hdrive, ← lowerDrive_of_no_drive hdrive, hlower]
      exact habsolute .root (by decide)
  | true =>
      obtain ⟨c, rest, hjoined, hc⟩ := startsWithDrive_eq_true_iff.mp hdrive
      rw [hjoined, lowerDrive_of_drive hc] at hlower
      rw [hjoined, withoutDriveSlash_of_drive hc, (List.cons.inj hlower).2]
      exact habsolute .relative (by decide)

/-- The URI of a path names the path, a relative one as seen from the root, with the letter of a drive in
lower case. -/
theorem toPath_of_ofPath {p : Path} {uri : String} (h : ofPath p = .ok uri) :
    ∃ q, toPath uri = .ok q ∧ q.absolute = p.asNamed.absolute := by
  have hplain (hstart : p.start ≠ .doubleRoot) (huri : uri = assemble [] ('/' :: p.joined)) :
      ∃ q, toPath uri = .ok q ∧ q.absolute = p.asNamed.absolute := by
    refine ⟨_, huri ▸ toPath_assemble (by simp) _, ?_⟩
    rw [if_pos rfl]
    apply absolute_ofText_withoutDriveSlash (q := p.asNamed) hstart
    simp [Path.asNamed, hstart]
  cases hstart : p.start with
  | root => exact hplain (by simp [hstart]) (Except.ok.inj (h.symm.trans (ofPath_of_root hstart)))
  | relative =>
      by_cases hne : p.segments = []
      · obtain ⟨start, segments, valid⟩ := p
        cases hstart
        cases hne
        refine ⟨_, Except.ok.inj (h.symm.trans ofPath_here) ▸ toPath_assemble (by simp) _, ?_⟩
        exact (by decide : (Path.ofText "/.").absolute = Path.here.asNamed.absolute)
      · exact hplain (by simp [hstart]) (Except.ok.inj (h.symm.trans (ofPath_of_relative hstart hne)))
  | doubleRoot =>
      have hbare : ¬ p.IsBareAuthority := (ofPath_isOk_iff p).mp ⟨uri, h⟩
      rcases hs : p.segments with _ | ⟨s, _ | ⟨t, rest⟩⟩
      · exact absurd ⟨hstart, by simp [hs]⟩ hbare
      · exact absurd ⟨hstart, by simp [hs]⟩ hbare
      · let q : Path := ⟨.root, t :: rest, fun u hu => p.valid u (hs ▸ List.mem_cons_of_mem s hu)⟩
        have hnamed : p.asNamed.segments = s :: q.asNamed.segments := by
          simp [Path.asNamed, hstart, hs, q]
        have huri := ofPath_of_doubleRoot (q := q) hstart hs (List.cons_ne_nil t rest)
        have hsegment : IsSegment s := p.valid s (hs ▸ List.mem_cons_self)
        have hne : s.toList ≠ [] := fun hnil => hsegment.1 (String.toList_eq_nil_iff.mp hnil)
        have hlower : lowerDrive ('/' :: q.joined) = '/' :: q.asNamed.joined :=
          Path.lowerDrive_joined (by simp [Path.asNamed, q])
        have hread := p.asNamed.ofText_joined .doubleRoot
        rw [Path.joined_of_cons hnamed (by simp [Path.asNamed, q])] at hread
        refine ⟨p.asNamed, ?_, rfl⟩
        rw [Except.ok.inj (h.symm.trans huri), toPath_assemble hsegment.2.2, if_neg hne, hlower]
        refine (congrArg Except.ok hread).trans ?_
        simp [Path.asNamed, hstart]

/-- Decoding undoes encoding for paths below the root that do not begin with a drive. -/
theorem toPath_ofPath_of_root {p : Path} (hstart : p.start = .root)
    (hdrive : startsWithDrive p.text.toList = false) : ∃ uri, ofPath p = .ok uri ∧ toPath uri = .ok p := by
  have htext := Path.text_of_root hstart
  have hread := p.ofText_joined .root
  rw [htext] at hdrive
  refine ⟨_, ofPath_of_root hstart, ?_⟩
  rw [toPath_assemble (by simp), if_pos rfl, withoutDriveSlash_of_no_drive hdrive]
  change Except.ok (Path.ofText (String.ofList ((Path.startText .root).toList ++ p.joined))) = _
  rw [hread, ← hstart]

/-! ## Paths that come back -/

/-- The text of a path starts with exactly one slash. -/
def HasOneSlash (p : Path) : Prop := ∃ rest, p.text.toList = '/' :: rest ∧ rest.head? ≠ some '/'

/-- The text of a path starts with a slash, a letter and a colon. -/
def NamesDrive (p : Path) : Prop :=
  ∃ c rest, p.text.toList = '/' :: c :: ':' :: rest ∧ isAsciiLetter c = true

theorem hasOneSlash_iff {p : Path} : HasOneSlash p ↔ p.start = .root := by
  constructor
  · rintro ⟨rest, htext, hhead⟩
    cases hstart : p.start with
    | root => rfl
    | doubleRoot =>
        rw [Path.text_of_doubleRoot hstart] at htext
        cases htext
        exact absurd rfl hhead
    | relative =>
        by_cases hsegments : p.segments = []
        · have hdot : p.text = "." := if_pos ⟨hstart, hsegments⟩
          rw [hdot] at htext
          cases htext
        · rw [Path.toList_text fun _ => hsegments, hstart] at htext
          exact absurd htext (p.joined_ne_slash_cons rest)
  · intro hstart
    refine ⟨p.joined, Path.text_of_root hstart, ?_⟩
    intro hhead
    obtain ⟨rest, hrest⟩ := List.head?_eq_some_iff.mp hhead
    exact p.joined_ne_slash_cons rest hrest

theorem namesDrive_iff {p : Path} : NamesDrive p ↔ startsWithDrive p.text.toList = true :=
  startsWithDrive_eq_true_iff.symm

/-- What stands in the place of a drive is read without the slash in front of it. -/
theorem start_of_drive {p q : Path} {uri : String} (hstart : p.start = .root)
    (hdrive : startsWithDrive p.text.toList = true) (hu : ofPath p = .ok uri) (hq : toPath uri = .ok q) :
    q.start = .relative := by
  have htext := Path.text_of_root hstart
  rw [htext] at hdrive
  obtain ⟨c, rest, hjoined, hc⟩ := startsWithDrive_eq_true_iff.mp hdrive
  rw [ofPath_of_root hstart] at hu
  cases hu
  rw [toPath_assemble (by simp), if_pos rfl, hjoined, withoutDriveSlash_of_drive hc] at hq
  cases hq
  have hne : c.toLower ≠ '/' := by
    intro he
    have hlower := (toLower_of_isAsciiLetter hc).1
    rw [he] at hlower
    exact absurd hlower (by decide)
  simp [Path.ofText, Path.ofSegments, Path.startOf, hne]

/-- A path that starts with one slash comes back from its URI exactly if it does not start like a drive, and no two
paths that come back have the same URI. -/
theorem decoding_undoes_encoding :
    (∀ p, HasOneSlash p → ((∃ uri, ofPath p = .ok uri ∧ toPath uri = .ok p) ↔ ¬NamesDrive p)) ∧
      Set.InjOn ofPath {p | HasOneSlash p ∧ ¬NamesDrive p} := by
  have hback : ∀ p, HasOneSlash p → ¬NamesDrive p → ∃ uri, ofPath p = .ok uri ∧ toPath uri = .ok p := by
    intro p hslash hdrive
    rw [namesDrive_iff, Bool.not_eq_true] at hdrive
    exact toPath_ofPath_of_root (hasOneSlash_iff.mp hslash) hdrive
  constructor
  · intro p hslash
    refine ⟨?_, hback p hslash⟩
    rintro ⟨uri, hu, hp⟩ hdrive
    have hstart := hasOneSlash_iff.mp hslash
    cases hstart.symm.trans (start_of_drive hstart (namesDrive_iff.mp hdrive) hu hp)
  · rintro p ⟨hp, hpdrive⟩ q ⟨hq, hqdrive⟩ hsame
    obtain ⟨uri, hu, hpath⟩ := hback p hp hpdrive
    obtain ⟨uri', hu', hpath'⟩ := hback q hq hqdrive
    cases hu.symm.trans (hsame.trans hu')
    exact Except.ok.inj (hpath.symm.trans hpath')

/-- Names with everything that has a meaning in a URI, and letters beyond ASCII. -/
def awkwardPath : Path := .ofText "/ü 100%/a?b#c;d/[x]:%41//../😀.ink"

theorem awkward_path_comes_back :
    (HasOneSlash awkwardPath ∧ ¬NamesDrive awkwardPath) ∧
      ∃ uri, ofPath awkwardPath = .ok uri ∧ toPath uri = .ok awkwardPath := by
  have hslash : HasOneSlash awkwardPath := hasOneSlash_iff.mpr (by decide)
  have hdrive : ¬NamesDrive awkwardPath := by
    rw [namesDrive_iff]
    decide
  exact ⟨⟨hslash, hdrive⟩, (decoding_undoes_encoding.1 awkwardPath hslash).mpr hdrive⟩

end Uri

end InkServer
