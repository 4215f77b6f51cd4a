import InkServer.Proofs.Diagnostic.RoundTrip

/-!
# Relative and absolute spellings

A line can name a file of the mirror relatively or by its absolute path. Which of the two a compiler chooses
should not matter: both lines are passed over, or both are findings in the same file. Absolute paths are
resolved before they are compared with the mirror, relative ones are only searched for `..`. The main
statement says for which paths the two ways agree.
-/

namespace InkServer

namespace Report

/-! ## What stands in front of a path -/

/-- Reads what stands in front of a path: the severity, and what follows its colon. -/
def readFront? (line : List Char) : Option (List Char × List Char) := do
  let (severity, rest) ← readSeverity? (skipBlanks line)
  let rest ← Text.after? [':'] (skipBlanks rest)
  some (severity, skipBlanks rest)

/-- Reads what stands behind a path. -/
def readBack? (severity : List Char) (path : Option (List Char)) (rest : List Char) : Option Parts := do
  let rest ← afterWord? "line".toList rest
  let rest ← afterBlanks? rest
  let number := rest.takeWhile Text.isDigit
  let rest := rest.dropWhile Text.isDigit
  if number.isEmpty then none
  else
    let (column, rest) :=
      match readColumn? rest with
      | some (digits, rest') => (some digits, rest')
      | none => (none, rest)
    let rest ← Text.after? [':'] (skipBlanks rest)
    let message ← readMessage? rest
    some ⟨severity, path, number, column, message⟩

theorem readParts?_eq (line : List Char) : readParts? line =
    (readFront? line).bind fun front => (readPath? front.2).bind fun path => readBack? front.1 path.1 path.2 := by
  unfold readParts? readFront?
  rcases readSeverity? (skipBlanks line) with _ | ⟨severity, rest⟩
  · rfl
  · dsimp only [Option.bind_eq_bind, Option.bind_some]
    cases Text.after? [':'] (skipBlanks rest) with
    | none => rfl
    | some rest => rfl

theorem path_of_readBack? {severity rest : List Char} {path : Option (List Char)} {parts : Parts}
    (h : readBack? severity path rest = some parts) :
    parts.path = path ∧ ∀ path', readBack? severity path' rest = some { parts with path := path' } := by
  unfold readBack? at h ⊢
  simp only [Option.bind_eq_bind, Option.bind_eq_some_iff] at h ⊢
  obtain ⟨rest₁, hword, rest₂, hblanks, h⟩ := h
  split at h
  · cases h
  · rename_i hnumber
    simp only [Option.bind_eq_some_iff] at h
    obtain ⟨rest₃, hcolon, message, hmessage, h⟩ := h
    cases h
    refine ⟨rfl, fun path' => ⟨rest₁, hword, rest₂, hblanks, ?_⟩⟩
    rw [if_neg hnumber]
    simp only [Option.bind_eq_some_iff]
    exact ⟨rest₃, hcolon, message, hmessage, rfl⟩

/-! ## Up to the first quote -/

variable {front rest : List Char}

theorem skipBlanks_append_quote (front rest : List Char) :
    skipBlanks (front ++ '\'' :: rest) = skipBlanks front ++ '\'' :: rest := by
  induction front with
  | nil => rfl
  | cons c front ih =>
      unfold skipBlanks at ih ⊢
      rw [List.cons_append, List.dropWhile_cons, List.dropWhile_cons]
      split
      · exact ih
      · rfl

theorem isLetter_quote {letter : Char} (h : letter ≠ '\'') : isLetter letter '\'' = false := by
  simpa [isLetter] using Ne.symm h

/-- No word reaches over a quote. -/
theorem afterWord?_append_quote {word : List Char} (hword : '\'' ∉ word) (front rest : List Char) :
    afterWord? word (front ++ '\'' :: rest) = (afterWord? word front).map (· ++ '\'' :: rest) := by
  induction word generalizing front with
  | nil => rfl
  | cons letter word ih =>
      obtain ⟨hletter, hword⟩ := not_or.mp (mt List.mem_cons.mpr hword)
      cases front with
      | nil => simp [afterWord?, isLetter_quote (Ne.symm hletter)]
      | cons c front =>
          rw [List.cons_append, afterWord?, afterWord?]
          split
          · exact ih hword front
          · rfl

theorem after?_append_quote {start : List Char} (hstart : '\'' ∉ start) (front rest : List Char) :
    Text.after? start (front ++ '\'' :: rest) = (Text.after? start front).map (· ++ '\'' :: rest) := by
  induction start generalizing front with
  | nil => rfl
  | cons a start ih =>
      obtain ⟨ha, hstart⟩ := not_or.mp (mt List.mem_cons.mpr hstart)
      cases front with
      | nil => simp [Text.after?, Ne.symm ha]
      | cons c front =>
          rw [List.cons_append, Text.after?, Text.after?]
          split
          · exact ih hstart front
          · rfl

theorem readSeverity?_append_quote (front rest : List Char) :
    readSeverity? (front ++ '\'' :: rest) =
      (readSeverity? front).map fun found => (found.1, found.2 ++ '\'' :: rest) := by
  have hquote : ∀ known ∈ severities, '\'' ∉ known.1.toList.map Char.toLower := by decide
  unfold readSeverity?
  revert hquote
  generalize severities = words
  intro hquote
  induction words with
  | nil => rfl
  | cons known words ih =>
      have hrest := ih fun k hk => hquote k (List.mem_cons_of_mem _ hk)
      rw [List.findSome?_cons, List.findSome?_cons]
      dsimp only
      rw [afterWord?_append_quote (hquote known List.mem_cons_self)]
      cases hafter : afterWord? (known.1.toList.map Char.toLower) front with
      | none => exact hrest
      | some behind =>
          obtain ⟨written, rfl, -⟩ := afterWord?_eq_some hafter
          simp

/-- What stands in front of the first quote is read without looking behind it. -/
theorem readFront?_append_quote (front rest : List Char) :
    readFront? (front ++ '\'' :: rest) = (readFront? front).map fun found => (found.1, found.2 ++ '\'' :: rest) := by
  unfold readFront?
  rw [skipBlanks_append_quote, readSeverity?_append_quote]
  cases readSeverity? (skipBlanks front) with
  | none => rfl
  | some found =>
      simp only [Option.map_some, Option.bind_eq_bind, Option.bind_some]
      rw [skipBlanks_append_quote, after?_append_quote (by decide)]
      cases Text.after? [':'] (skipBlanks found.2) with
      | none => rfl
      | some behind => simp [skipBlanks_append_quote]

theorem suffix_of_readFront? {line severity rest : List Char} (h : readFront? line = some (severity, rest)) :
    rest <:+ line := by
  unfold readFront? at h
  simp only [Option.bind_eq_bind, Option.bind_eq_some_iff] at h
  obtain ⟨⟨_, behind⟩, hseverity, rest', hcolon, h⟩ := h
  cases h
  have hword : behind <:+ skipBlanks line := by
    obtain ⟨known, -, hk⟩ := List.exists_of_findSome?_eq_some hseverity
    obtain ⟨rest'', hafter, hpair⟩ := Option.map_eq_some_iff.mp hk
    obtain ⟨written, hsplit, -⟩ := afterWord?_eq_some hafter
    cases hpair
    exact ⟨written, hsplit.symm⟩
  have hbehind : rest' <:+ skipBlanks behind := ⟨[':'], (Text.after?_eq_some_iff.mp hcolon).symm⟩
  exact (List.dropWhile_suffix _).trans (hbehind.trans ((List.dropWhile_suffix _).trans
    (hword.trans (List.dropWhile_suffix _))))

/-! ## The same line with another path -/

/-- A line with another path between its first two quotes. -/
def renamed (line name : List Char) : List Char :=
  line.takeWhile (· ≠ '\'') ++ '\'' :: (name ++ ((line.dropWhile (· ≠ '\'')).drop 1).dropWhile (· ≠ '\''))

theorem all_ne_quote {cs : List Char} (h : '\'' ∉ cs) : ∀ c ∈ cs, decide (c ≠ '\'') = true :=
  fun _ hc => decide_eq_true fun he => h (he ▸ hc)

theorem renamed_append {front written : List Char} (hfront : '\'' ∉ front) (hwritten : '\'' ∉ written)
    (name back : List Char) : renamed (front ++ '\'' :: (written ++ '\'' :: back)) name =
      front ++ '\'' :: (name ++ '\'' :: back) := by
  have hstop : decide ('\'' ≠ '\'') = false := decide_eq_false fun h => h rfl
  rw [renamed, takeWhile_append_cons (all_ne_quote hfront) hstop, dropWhile_append_cons (all_ne_quote hfront) hstop,
    List.drop_one, List.tail_cons, dropWhile_append_cons (all_ne_quote hwritten) hstop]

theorem readPath?_eq_some_iff {cs written back : List Char} : readPath? cs = some (some written, back) ↔
    ∃ tail, cs = '\'' :: (written ++ '\'' :: tail) ∧ written ≠ [] ∧ '\'' ∉ written ∧ afterBlanks? tail = some back := by
  constructor
  · intro h
    unfold readPath? at h
    split at h
    · rename_i rest
      have hsplit := List.takeWhile_append_dropWhile (p := fun c => decide (c ≠ '\'')) (l := rest)
      have hquote : '\'' ∉ rest.takeWhile fun c => decide (c ≠ '\'') := by
        intro hmem
        simpa using List.mem_takeWhile_imp hmem
      split at h
      · rename_i c tail hdrop
        have hc : c = '\'' := by
          have hhead := List.head?_dropWhile_not (fun c => decide (c ≠ '\'')) rest
          rw [hdrop] at hhead
          simpa using hhead
        dsimp only at h
        split at h
        · cases h
        · rename_i hne
          obtain ⟨back', hback, hpair⟩ := Option.map_eq_some_iff.mp h
          cases hpair
          rw [hdrop, hc] at hsplit
          exact ⟨tail, by rw [hsplit], by simpa using hne, hquote, hback⟩
      · cases h
    · cases h
  · rintro ⟨tail, rfl, hne, hquote, hback⟩
    have hstop : decide ('\'' ≠ '\'') = false := decide_eq_false fun h => h rfl
    unfold readPath?
    simp only [takeWhile_append_cons (all_ne_quote hquote) hstop, dropWhile_append_cons (all_ne_quote hquote) hstop,
      List.isEmpty_iff, if_neg hne, hback]
    rfl

/-- A line that names a path names it between its first two quotes. -/
theorem exists_quoted_of_readParts? {line written : List Char} {parts : Parts} (h : readParts? line = some parts)
    (hpath : parts.path = some written) : ∃ front tail back severity,
      line = front ++ '\'' :: (written ++ '\'' :: tail) ∧ '\'' ∉ front ∧ '\'' ∉ written ∧
        readFront? front = some (severity, []) ∧ afterBlanks? tail = some back ∧
          readBack? severity (some written) back = some parts := by
  rw [readParts?_eq] at h
  obtain ⟨⟨severity, rest⟩, hfront, h⟩ := Option.bind_eq_some_iff.mp h
  obtain ⟨⟨path, back⟩, hread, hback⟩ := Option.bind_eq_some_iff.mp h
  cases (path_of_readBack? hback).1.symm.trans hpath
  obtain ⟨tail, rfl, -, hwritten, hblanks⟩ := readPath?_eq_some_iff.mp hread
  have hmem : '\'' ∈ line := (suffix_of_readFront? hfront).mem List.mem_cons_self
  obtain ⟨front, behind, rfl, hplain⟩ := List.eq_append_cons_of_mem hmem
  rw [readFront?_append_quote] at hfront
  obtain ⟨⟨_, seen⟩, hseen, hpair⟩ := Option.map_eq_some_iff.mp hfront
  obtain ⟨rfl, hsplit⟩ := Prod.mk.inj hpair
  -- What was read in front of the path goes up to the first quote.
  cases seen with
  | nil =>
      obtain ⟨-, rfl⟩ := List.cons.inj hsplit
      exact ⟨front, tail, back, _, rfl, hplain, hwritten, hseen, hblanks, hback⟩
  | cons c seen =>
      have hc : c = '\'' := (List.cons.inj hsplit).1
      exact absurd ((suffix_of_readFront? hseen).mem (hc ▸ List.mem_cons_self)) hplain

/-- The path of a line alone can be replaced. -/
theorem readParts?_renamed {line written name : List Char} {parts : Parts} (h : readParts? line = some parts)
    (hpath : parts.path = some written) (hne : name ≠ []) (hquote : '\'' ∉ name) :
    readParts? (renamed line name) = some { parts with path := some name } := by
  obtain ⟨front, tail, back, severity, rfl, hplain, hwritten, hfront, hblanks, hback⟩ :=
    exists_quoted_of_readParts? h hpath
  have hname : readPath? ('\'' :: (name ++ '\'' :: tail)) = some (some name, back) :=
    readPath?_eq_some_iff.mpr ⟨tail, rfl, hne, hquote, hblanks⟩
  rw [renamed_append hplain hwritten, readParts?_eq, readFront?_append_quote, hfront]
  simp only [Option.map_some, Option.bind_some, List.nil_append, hname, (path_of_readBack? hback).2]

end Report

/-! ## Characters of paths -/

theorem Text.mem_intercalate_iff {sep : List Char} {c : Char} (h : c ∉ sep) {pieces : List (List Char)} :
    c ∈ sep.intercalate pieces ↔ ∃ piece ∈ pieces, c ∈ piece := by
  induction pieces with
  | nil => simp
  | cons piece pieces ih =>
      cases pieces with
      | nil => simp
      | cons next pieces =>
          rw [List.intercalate_cons_cons, List.mem_append, List.mem_append, ih]
          simp [h]

namespace Path

variable {c : Char} {p : Path}

/-- Slashes and the dot for the working directory aside, the characters of a path are those of its segments. -/
theorem mem_text_iff (hslash : c ≠ '/') (hdot : c ≠ '.') : c ∈ p.text.toList ↔ ∃ s ∈ p.segments, c ∈ s.toList := by
  by_cases hhere : p.start = .relative ∧ p.segments = []
  · rw [text, if_pos hhere, hhere.2]
    simpa using hdot
  · have hstart : c ∉ (startText p.start).toList := by
      cases p.start <;> simp [startText, hslash]
    rw [toList_text fun hs hn => hhere ⟨hs, hn⟩, List.mem_append, joined,
      Text.mem_intercalate_iff (by simpa using hslash)]
    simp [hstart]

theorem mem_of_mem_segments {t : String} (h : ∃ s ∈ (ofText t).segments, c ∈ s.toList) (hslash : c ≠ '/') :
    c ∈ t.toList := by
  obtain ⟨s, hs, hc⟩ := h
  obtain ⟨piece, hpiece, rfl⟩ := List.mem_map.mp (List.mem_of_mem_filter hs)
  rw [String.toList_ofList] at hc
  rw [← Text.intercalate_pieces '/' t.toList, Text.mem_intercalate_iff (by simpa using hslash)]
  exact ⟨piece, hpiece, hc⟩

/-- A path below another one has the characters of both. -/
theorem not_mem_text_join {mirror : Path} {t : String} (hrelative : (ofText t).start = .relative) (hslash : c ≠ '/')
    (hdot : c ≠ '.') (hmirror : c ∉ mirror.text.toList) (ht : c ∉ t.toList) :
    c ∉ (mirror / ofText t).text.toList := by
  rw [mem_text_iff hslash hdot, segments_join hrelative]
  rintro ⟨s, hs, hc⟩
  rcases List.mem_append.mp hs with hs | hs
  · exact hmirror ((mem_text_iff hslash hdot).mpr ⟨s, hs, hc⟩)
  · exact ht (mem_of_mem_segments ⟨s, hs, hc⟩ hslash)

/-- A path that does not go up leads inwards if it does not end where it starts. -/
theorem isInner_of_join {root relative : Path} (hstart : p.start = .relative) (hup : ".." ∉ p.segments)
    (h : (root / p).relativeTo? root = some relative) : p.IsInner := by
  refine ⟨hstart, fun hnil => ?_, hup⟩
  obtain ⟨-, hsegments, -, hne⟩ := relativeTo?_eq_some_iff.mp h
  rw [segments_normalized, segments_normalized, segments_join hstart, hnil, List.append_nil] at hsegments
  exact hne (List.append_right_eq_self.mp hsegments.symm)

theorem text_toList_ne_nil (h : p.isAbsolute = true) : p.text.toList ≠ [] := by
  intro hnil
  have hread := p.ofText_text
  rw [String.toList_eq_nil_iff.mp hnil] at hread
  rw [← hread] at h
  exact absurd h (by decide)

/-- What a path leads to from a root is the same place as what is found of it relative to the root. -/
theorem normalized_join_of_relativeTo? {q root relative : Path} (hroot : root.isAbsolute = true)
    (h : q.relativeTo? root = some relative) (hstart : q.normalized.start = root.start) :
    (root / relative).normalized = q.normalized := by
  have hinner := isInner_of_relativeTo? h
  obtain ⟨-, hsegments, -, -⟩ := relativeTo?_eq_some_iff.mp h
  have hjoin : (root / relative).isAbsolute = true := by
    rw [isAbsolute, start_join hinner.start]
    exact hroot
  apply eq_of_segments
  · rw [start_normalized, absolute, if_pos hjoin, start_join hinner.start, hstart]
  · rw [segments_normalized, segments_join hinner.start, resolve_append hinner.noUp, hsegments, segments_normalized]

end Path

/-! ## Two lines about one file -/

namespace Report

open CompilerReport

/-- Two readings of a line come to the same: it is passed over, it says the same about the same file of the
mirror, or it cannot be read. -/
inductive SameFinding (mirror : Path) : Except Error (Option Entry) → Except Error (Option Entry) → Prop
  | passed : SameFinding mirror (.ok none) (.ok none)
  | found {e : Entry} {path : Path} (h : (mirror / e.path).normalized = (mirror / path).normalized) :
      SameFinding mirror (.ok (some e)) (.ok (some { e with path }))
  | unreadable {e : Error} : SameFinding mirror (.error e) (.error e)

variable {line name : List Char} {written : String} {parts : Parts} {mirror entry path path' : Path}

theorem parseLine_of_locate (h : readParts? line = some parts) (hl : locate mirror entry parts.path = some path) :
    parseLine line mirror entry = (Recognized.read ⟨parts, path⟩).map some := by
  have hrecognized : recognize? mirror entry line = some ⟨parts, path⟩ := by simp [recognize?, h, hl]
  exact (parseLine_of_recognize?_some hrecognized).2

theorem parseLine_of_locate_none (h : readParts? line = some parts) (hl : locate mirror entry parts.path = none) :
    parseLine line mirror entry = .ok none := by
  apply parseLine_of_recognize?_none
  simp [recognize?, h, hl]

theorem read_eq_map (parts : Parts) (path path' : Path) :
    Recognized.read ⟨parts, path'⟩ = (Recognized.read ⟨parts, path⟩).map fun e => { e with path := path' } := by
  unfold Recognized.read
  cases readSeverity parts.severity with
  | error e => rfl
  | ok severity =>
      cases readNumber parts.line with
      | error e => rfl
      | ok number => cases parts.column.mapM readNumber <;> rfl

/-- Readings that differ in the path alone come to the same where the paths lead to the same place. -/
theorem SameFinding.of_read (parts : Parts) (h : (mirror / path).normalized = (mirror / path').normalized) :
    SameFinding mirror ((Recognized.read ⟨parts, path⟩).map some) ((Recognized.read ⟨parts, path'⟩).map some) := by
  rw [read_eq_map parts path path']
  cases hread : Recognized.read ⟨parts, path⟩ with
  | error e => exact .unreadable
  | ok e =>
      have hpath : e.path = path := (Recognized.read_eq_ok_iff.mp hread).2.2.2.1
      exact .found (hpath ▸ h)

theorem map_some_ne_none (r : Except Error Entry) : r.map some ≠ .ok none := by
  cases r <;> exact fun h => nomatch h

/-- A line that is passed over never comes to the same as one that is not. -/
theorem SameFinding.passed_iff {r r' : Except Error (Option Entry)} (h : SameFinding mirror r r') :
    r = .ok none ↔ r' = .ok none := by
  cases h with
  | passed => exact Iff.rfl
  | found => exact iff_of_false (fun h => nomatch h) fun h => nomatch h
  | unreadable => exact Iff.rfl

theorem locate_relative (hrelative : (Path.ofText written).start = .relative) :
    locate mirror entry (some written.toList) =
      if ".." ∈ (Path.ofText written).segments then none else some (.ofText written) := by
  have habsolute : (Path.ofText written).isAbsolute = false := by simp [Path.isAbsolute, hrelative]
  unfold locate
  simp only [String.ofList_toList, habsolute, Bool.false_eq_true, if_false, Option.filter_some, decide_eq_true_eq]
  split <;> simp_all

theorem locate_absolute (habsolute : path.isAbsolute = true) :
    locate mirror entry (some path.text.toList) = path.relativeTo? mirror := by
  unfold locate
  simp only [String.ofList_toList, Path.ofText_text]
  rw [if_pos habsolute]
  cases h : path.relativeTo? mirror with
  | none => rfl
  | some relative => simp [Option.filter, (Path.isInner_of_relativeTo? h).noUp]

/-- A line that names a file relatively is passed over exactly if it goes up. -/
theorem parseLine_relative (mirror entry : Path) (hline : readParts? line = some parts) (hwritten : parts.path = some written.toList)
    (hrelative : (Path.ofText written).start = .relative) :
    parseLine line mirror entry = if ".." ∈ (Path.ofText written).segments then .ok none
      else (Recognized.read ⟨parts, .ofText written⟩).map some := by
  have hlocate : locate mirror entry parts.path = _ := hwritten ▸ locate_relative hrelative
  split
  · rename_i hup
    rw [if_pos hup] at hlocate
    exact parseLine_of_locate_none hline hlocate
  · rename_i hup
    rw [if_neg hup] at hlocate
    exact parseLine_of_locate hline hlocate

/-- A line that names a file absolutely is passed over exactly if that lies outside. -/
theorem parseLine_absolute (mirror entry : Path) (hline : readParts? line = some parts) (hwritten : parts.path = some path.text.toList)
    (habsolute : path.isAbsolute = true) :
    parseLine line mirror entry = (path.relativeTo? mirror).elim (.ok none) fun relative =>
      (Recognized.read ⟨parts, relative⟩).map some := by
  have hlocate : locate mirror entry parts.path = _ := hwritten ▸ locate_absolute habsolute
  cases h : path.relativeTo? mirror with
  | none => exact parseLine_of_locate_none hline (hlocate.trans h)
  | some relative => exact parseLine_of_locate hline (hlocate.trans h)

/-- Where a line names a file relatively, the same line with the absolute path of the file comes to the same
exactly if the path leads inwards, or if it goes up and ends outside. -/
theorem spellings_agree_iff (mirror entry : Path) (hmirror : mirror.isAbsolute = true)
    (hquote : '\'' ∉ mirror.text.toList) (hline : readParts? line = some parts)
    (hwritten : parts.path = some written.toList) (hrelative : (Path.ofText written).start = .relative) :
    (parseLine line mirror entry = .ok none ↔ ".." ∈ (Path.ofText written).segments) ∧
    (parseLine (renamed line (mirror / Path.ofText written).text.toList) mirror entry = .ok none ↔
      (mirror / Path.ofText written).isInside mirror = false) ∧
    (SameFinding mirror (parseLine line mirror entry)
        (parseLine (renamed line (mirror / Path.ofText written).text.toList) mirror entry) ↔
      (Path.ofText written).IsInner ∨
        ".." ∈ (Path.ofText written).segments ∧ (mirror / Path.ofText written).isInside mirror = false) := by
  have habsolute : (mirror / Path.ofText written).isAbsolute = true := by
    rw [Path.isAbsolute, Path.start_join hrelative]
    exact hmirror
  have hwrittenQuote : '\'' ∉ written.toList := by
    obtain ⟨_, _, _, _, -, -, h, -⟩ := exists_quoted_of_readParts? hline hwritten
    exact h
  have hnameQuote := Path.not_mem_text_join hrelative (by decide) (by decide) hquote hwrittenQuote
  have hne := Path.text_toList_ne_nil habsolute
  have hl := parseLine_relative mirror entry hline hwritten hrelative
  have ha := parseLine_absolute mirror entry
    (readParts?_renamed hline hwritten hne hnameQuote) rfl habsolute
  have hinside : (mirror / Path.ofText written).isInside mirror = false ↔
      (mirror / Path.ofText written).relativeTo? mirror = none := by simp [Path.isInside]
  rw [hinside, hl, ha]
  have hpassed (r : Except Error Entry) : (r.map some = .ok none) ↔ False := iff_false_intro (map_some_ne_none r)
  by_cases hup : ".." ∈ (Path.ofText written).segments
  · cases hfound : (mirror / Path.ofText written).relativeTo? mirror with
    | none => simp [hup, SameFinding.passed]
    | some relative =>
        have hinner : ¬ (Path.ofText written).IsInner := fun h => h.noUp hup
        have hdiffer (r : Except Error Entry) : ¬ SameFinding mirror (.ok none) (r.map some) :=
          fun h => map_some_ne_none r (h.passed_iff.mp rfl)
        simp [hup, hinner, hdiffer, hpassed]
  · cases hfound : (mirror / Path.ofText written).relativeTo? mirror with
    | none =>
        have hinner : ¬ (Path.ofText written).IsInner := by
          intro h
          rw [Path.relativeTo?_join h] at hfound
          cases hfound
        have hdiffer (r : Except Error Entry) : ¬ SameFinding mirror (r.map some) (.ok none) :=
          fun h => map_some_ne_none r (h.passed_iff.mpr rfl)
        simp [hup, hinner, hdiffer, hpassed]
    | some relative =>
        have hinner : (Path.ofText written).IsInner := Path.isInner_of_join hrelative hup hfound
        have hplace := Path.normalized_join_of_relativeTo? hmirror hfound (by
          rw [Path.start_normalized, Path.absolute, if_pos habsolute, Path.start_join hrelative])
        have hsame : SameFinding mirror ((Recognized.read ⟨parts, .ofText written⟩).map some)
            ((Recognized.read ⟨parts, relative⟩).map some) := .of_read parts hplace.symm
        rw [if_neg hup]
        exact ⟨by simp [hup, hpassed], by simp [hpassed], iff_of_true hsame (.inl hinner)⟩

/-- A file is the same by its relative and by its absolute path, whatever dots and slashes are in the former. -/
theorem dotted_path_agrees :
    renamed "ERROR: './a//b.ink' line 3: bad".toList "/m/a/b.ink".toList =
      "ERROR: '/m/a/b.ink' line 3: bad".toList ∧
    SameFinding (.ofText "/m") (parseLine "ERROR: './a//b.ink' line 3: bad".toList (.ofText "/m") .here)
      (parseLine "ERROR: '/m/a/b.ink' line 3: bad".toList (.ofText "/m") .here) := by
  have hrenamed : renamed "ERROR: './a//b.ink' line 3: bad".toList "/m/a/b.ink".toList =
      "ERROR: '/m/a/b.ink' line 3: bad".toList := by decide +kernel
  have hjoin : (Path.ofText "/m" / Path.ofText "./a//b.ink").text = "/m/a/b.ink" := by decide +kernel
  have hparts : readParts? "ERROR: './a//b.ink' line 3: bad".toList =
      some ⟨"ERROR".toList, some "./a//b.ink".toList, "3".toList, none, "bad".toList⟩ := rfl
  have hagree := (spellings_agree_iff (.ofText "/m") .here (by decide) (by decide) hparts rfl
    (by decide)).2.2.mpr (.inl ⟨by decide, by decide, by decide⟩)
  rw [hjoin, hrenamed] at hagree
  exact ⟨hrenamed, hagree⟩

/-- A line about the mirror itself is passed over if it names it absolutely, but not if it names it by a dot. -/
theorem dot_disagrees :
    ¬ ∀ (mirror entry : Path) (line : List Char) (parts : Parts) (written : String), mirror.isAbsolute = true →
      mirror.normalized = mirror → '\'' ∉ mirror.text.toList → readParts? line = some parts →
      parts.path = some written.toList → (Path.ofText written).start = .relative →
        SameFinding mirror (parseLine line mirror entry)
          (parseLine (renamed line (mirror / Path.ofText written).text.toList) mirror entry) := by
  intro h
  have hparts : readParts? "WARNING: '.' line 1: stray".toList =
      some ⟨"WARNING".toList, some ".".toList, "1".toList, none, "stray".toList⟩ := rfl
  have hsame := h (.ofText "/mirrors/inkls-1") (.ofText "main.ink") _ _ "." (by decide) (by decide) (by decide)
    hparts rfl (by decide)
  have habsolute : parseLine (renamed "WARNING: '.' line 1: stray".toList
      (Path.ofText "/mirrors/inkls-1" / Path.ofText ".").text.toList) (.ofText "/mirrors/inkls-1") (.ofText "main.ink") =
        .ok none := by decide +kernel
  have hrelative : parseLine "WARNING: '.' line 1: stray".toList (.ofText "/mirrors/inkls-1") (.ofText "main.ink") ≠
      .ok none := by decide +kernel
  exact hrelative (hsame.passed_iff.mpr habsolute)

end Report

end InkServer
