import InkServer.Proofs.Diagnostic.Reading
import InkServer.Proofs.Path.Inner

/-!
# Reading undoes writing

A line that is written in the form of a finding is read into what was put into it. Paths and messages may
look like any other part of a line, but none is mistaken for one: a path ends at its quote, a number at the
first character that is no digit, and a message is all that is left. The main statement says so for every
line that a compiler can write.
-/

namespace InkServer

namespace Report

/-! ## Up to the next part -/

theorem skipBlanks_of_head {c : Char} (h : Text.isBlank c = false) (cs : List Char) :
    skipBlanks (c :: cs) = c :: cs := by
  rw [skipBlanks, List.dropWhile_cons_of_neg (by simp [h])]

theorem skipBlanks_append {blanks : List Char} (h : ∀ c ∈ blanks, Text.isBlank c = true) (cs : List Char) :
    skipBlanks (blanks ++ cs) = skipBlanks cs :=
  List.dropWhile_append_of_pos h

theorem takeWhile_append_cons {p : Char → Bool} {cs : List Char} {c : Char} (h : ∀ c' ∈ cs, p c' = true)
    (hc : p c = false) (rest : List Char) : (cs ++ c :: rest).takeWhile p = cs := by
  rw [List.takeWhile_append_of_pos h, List.takeWhile_cons_of_neg (by simp [hc]), List.append_nil]

theorem dropWhile_append_cons {p : Char → Bool} {cs : List Char} {c : Char} (h : ∀ c' ∈ cs, p c' = true)
    (hc : p c = false) (rest : List Char) : (cs ++ c :: rest).dropWhile p = c :: rest := by
  rw [List.dropWhile_append_of_pos h, List.dropWhile_cons_of_neg (by simp [hc])]

/-! ## Severity words -/

/-- A text is a word in some letter case. -/
def IsCaseOf (word text : String) : Prop := text.toList.map Char.toLower = word.toList.map Char.toLower

/-- The two letters that are taken for an i though they are none of ASCII are in no severity word. -/
theorem plain_of_isCaseOf {known : String × Severity} (hk : known ∈ severities) {word : String}
    (hw : IsCaseOf known.1 word) {c : Char} (hc : c ∈ word.toList) : c ≠ 'ı' ∧ c ≠ 'İ' := by
  have hplain : ∀ k ∈ severities, 'ı' ∉ k.1.toList.map Char.toLower ∧ 'İ' ∉ k.1.toList.map Char.toLower := by decide
  have hmem : c.toLower ∈ known.1.toList.map Char.toLower := hw ▸ List.mem_map_of_mem hc
  constructor
  · rintro rfl
    exact (hplain known hk).1 hmem
  · rintro rfl
    exact (hplain known hk).2 hmem

theorem isLetter_toLower (c : Char) : isLetter c.toLower c = true := by simp [isLetter]

theorem forall₂_isLetter (cs : List Char) :
    List.Forall₂ (fun letter c => isLetter letter c = true) (cs.map Char.toLower) cs := by
  rw [List.forall₂_map_left_iff]
  exact List.forall₂_same.mpr fun c _ => isLetter_toLower c

theorem spells_of_isCaseOf {word text : String} (h : IsCaseOf word text) : Spells word text.toList := by
  unfold Spells
  rw [← h]
  exact forall₂_isLetter text.toList

theorem afterWord?_append {word written : List Char}
    (h : List.Forall₂ (fun letter c => isLetter letter c = true) word written) (rest : List Char) :
    afterWord? word (written ++ rest) = some rest := by
  induction h with
  | nil => rfl
  | cons hc _ ih => rw [List.cons_append, afterWord?, if_pos hc, ih]

/-- Letters of ASCII spell one word alone. -/
theorem lower_of_forall₂ {word written : List Char}
    (h : List.Forall₂ (fun letter c => isLetter letter c = true) word written)
    (hplain : ∀ c ∈ written, c ≠ 'ı' ∧ c ≠ 'İ') : written.map Char.toLower = word := by
  induction h with
  | nil => rfl
  | cons hc _ ih =>
      obtain ⟨hdotless, hdotted⟩ := hplain _ List.mem_cons_self
      rw [List.map_cons, ih fun c hc => hplain c (List.mem_cons_of_mem _ hc)]
      congr 1
      simpa [isLetter, hdotless, hdotted] using hc

theorem eq_of_isLetter_colon {letter : Char} (h : isLetter letter ':' = true) : ':' = letter := by
  simpa [isLetter] using h

/-- No severity word is found in front of a colon but the one that is written there. -/
theorem eq_of_afterWord?_eq_some {known other : String × Severity} (hk : known ∈ severities)
    (ho : other ∈ severities) {word : String} (hw : IsCaseOf known.1 word) {rest rest' : List Char}
    (h : afterWord? (other.1.toList.map Char.toLower) (word.toList ++ ':' :: rest) = some rest') : other = known := by
  have hcolon : ∀ k ∈ severities, ':' ∉ k.1.toList.map Char.toLower := by decide
  have hprefix : ∀ k ∈ severities, ∀ k' ∈ severities,
      k'.1.toList.map Char.toLower <+: k.1.toList.map Char.toLower → k' = k := by decide
  obtain ⟨written, hsplit, hletters⟩ := afterWord?_eq_some h
  apply hprefix known hk other ho
  rcases List.append_eq_append_iff.mp hsplit with ⟨behind, hwritten, hrest⟩ | ⟨behind, hword, -⟩
  · cases behind with
    | nil =>
        rw [List.append_nil] at hwritten
        subst hwritten
        rw [← lower_of_forall₂ hletters fun c hc => plain_of_isCaseOf hk hw hc, hw]
    | cons c behind =>
        -- The other word would go on over the colon.
        have hc : c = ':' := (List.cons.inj hrest).1.symm
        have hmem : ':' ∈ written := by simp [hwritten, hc]
        obtain ⟨n, hn, hget⟩ := List.mem_iff_getElem.mp hmem
        have hlength := hletters.length_eq
        have hletter := hletters.get (hlength ▸ hn) hn
        rw [List.get_eq_getElem, List.get_eq_getElem, hget] at hletter
        have heq := eq_of_isLetter_colon hletter
        exact absurd (heq ▸ List.getElem_mem _) (hcolon other ho)
  · have hplain : ∀ c ∈ written, c ≠ 'ı' ∧ c ≠ 'İ' := by
      intro c hc
      exact plain_of_isCaseOf hk hw (hword ▸ List.mem_append_left behind hc)
    rw [← lower_of_forall₂ hletters hplain, ← hw, hword, List.map_append]
    exact List.prefix_append _ _

/-- A severity word is read up to the colon behind it, in any letter case. -/
theorem readSeverity?_append {known : String × Severity} (hk : known ∈ severities) {word : String}
    (hw : IsCaseOf known.1 word) (rest : List Char) :
    readSeverity? (word.toList ++ ':' :: rest) = some (word.toList, ':' :: rest) := by
  have hown : afterWord? (known.1.toList.map Char.toLower) (word.toList ++ ':' :: rest) = some (':' :: rest) :=
    afterWord?_append (spells_of_isCaseOf hw) _
  cases hread : readSeverity? (word.toList ++ ':' :: rest) with
  | none =>
      have hnone := Option.map_eq_none_iff.mp (List.findSome?_eq_none_iff.mp hread known hk)
      cases hown.symm.trans hnone
  | some found =>
      obtain ⟨other, hother, hfound⟩ := List.exists_of_findSome?_eq_some hread
      obtain ⟨rest', hafter, hpair⟩ := Option.map_eq_some_iff.mp hfound
      cases eq_of_afterWord?_eq_some hk hother hw hafter
      cases hown.symm.trans hafter
      rw [← hpair, List.length_append, Nat.add_sub_cancel, List.take_left]

theorem isBlank_toLower {c : Char} (h : Text.isBlank c = true) : Text.isBlank c.toLower = true := by
  have hupper : ¬ c.isUpper = true := by
    intro hu
    simp only [Char.isUpper, decide_eq_true_eq, UInt32.le_iff_toNat_le] at hu
    simp only [Text.isBlank, Bool.or_eq_true, Bool.and_eq_true, decide_eq_true_eq, beq_iff_eq, Char.toNat] at h
    have hbounds : 65 ≤ c.val.toNat ∧ c.val.toNat ≤ 90 := hu
    omega
  rw [Char.toLower_eq_of_not_isUpper hupper]
  exact h

/-- No severity word begins with a blank. -/
theorem skipBlanks_word {known : String × Severity} (hk : known ∈ severities) {word : String}
    (hw : IsCaseOf known.1 word) (rest : List Char) : skipBlanks (word.toList ++ rest) = word.toList ++ rest := by
  have hhead : ∀ k ∈ severities, ((k.1.toList.map Char.toLower).head?.any fun c => !Text.isBlank c) = true := by
    decide +kernel
  obtain ⟨letter, hletter, hblank⟩ := (Option.any_eq_true _ _).mp (hhead known hk)
  rw [← hw] at hletter
  cases hword : word.toList with
  | nil =>
      rw [hword] at hletter
      cases hletter
  | cons c cs =>
      rw [hword] at hletter
      cases hletter
      apply skipBlanks_of_head
      cases hc : Text.isBlank c with
      | false => rfl
      | true => rw [isBlank_toLower hc] at hblank; cases hblank

/-! ## Paths -/

/-- A path as it stands in front of the line number, if it does. -/
def pathText (path : Option String) : List Char :=
  path.elim [] fun p => '\'' :: (p.toList ++ ['\'', ' '])

/-- A path is read up to its quote, whatever follows. -/
theorem readPath?_pathText {path : Option String} (h : ∀ p ∈ path, p ≠ "" ∧ '\'' ∉ p.toList) (rest : List Char) :
    readPath? (skipBlanks (' ' :: (pathText path ++ ("line ".toList ++ rest)))) =
      some (path.map String.toList, "line ".toList ++ rest) := by
  cases path with
  | none => rfl
  | some p =>
      obtain ⟨hne, hquote⟩ := h p rfl
      have hall : ∀ c ∈ p.toList, decide (c ≠ '\'') = true := fun c hc => decide_eq_true fun he => hquote (he ▸ hc)
      have hempty : p.toList.isEmpty = false := by
        simpa using fun he : p.toList = [] => hne (String.toList_eq_nil_iff.mp he)
      have hskip : skipBlanks (' ' :: (pathText (some p) ++ ("line ".toList ++ rest))) =
          '\'' :: (p.toList ++ '\'' :: (' ' :: ("line ".toList ++ rest))) := by
        rw [pathText, Option.elim_some, List.cons_append, List.append_assoc]
        rfl
      rw [hskip]
      unfold readPath?
      simp only [takeWhile_append_cons hall (decide_eq_false fun h => h rfl),
        dropWhile_append_cons hall (decide_eq_false fun h => h rfl), hempty]
      rfl

/-! ## Numbers -/

/-- What holds of the ten digits holds of every digit. -/
theorem of_isDigit {p : Char → Bool} (h : ['0', '1', '2', '3', '4', '5', '6', '7', '8', '9'].all p = true) {c : Char}
    (hc : c.isDigit = true) : p c = true := by
  have hbounds : '0'.toNat ≤ c.toNat ∧ c.toNat ≤ '9'.toNat := by
    rw [Char.isDigit, Bool.and_eq_true, decide_eq_true_eq, decide_eq_true_eq] at hc
    exact hc
  have hall : ∀ n ≤ '9'.toNat, '0'.toNat ≤ n →
      Char.ofNat n ∈ ['0', '1', '2', '3', '4', '5', '6', '7', '8', '9'] := by decide
  have hmem := hall c.toNat hbounds.2 hbounds.1
  rw [Char.ofNat_toNat] at hmem
  exact List.all_eq_true.mp h c hmem

theorem digitValue?_of_isDigit {c : Char} (h : c.isDigit = true) :
    Text.digitValue? c = some (c.toNat - '0'.toNat) :=
  of_decide_eq_true (of_isDigit (p := fun c => Text.digitValue? c = some (c.toNat - '0'.toNat)) (by decide) h)

theorem isBlank_of_isDigit {c : Char} (h : c.isDigit = true) : Text.isBlank c = false :=
  of_decide_eq_true (of_isDigit (p := fun c => Text.isBlank c = false) (by decide) h)

theorem digitsValue?_of_isDigit {digits : List Char} (h : ∀ c ∈ digits, c.isDigit = true) (seen : Nat) :
    Text.digitsValue? seen digits = some (Nat.ofDigitChars 10 digits seen) := by
  induction digits generalizing seen with
  | nil => rfl
  | cons c rest ih =>
      rw [Text.digitsValue?, digitValue?_of_isDigit (h c List.mem_cons_self), Nat.ofDigitChars_cons]
      exact ih (fun c' hc' => h c' (List.mem_cons_of_mem c hc')) _

/-- A number as it is written: decimal digits of ASCII, and not more of them than can be read. There may be
zeros in front. -/
structure Numeral where
  text : String
  ne_empty : text ≠ ""
  digits : ∀ c ∈ text.toList, c.isDigit = true
  length_le : text.toList.length ≤ maxDigits

namespace Numeral

variable (n : Numeral)

/-- The number that is written. -/
def value : Nat := Nat.ofDigitChars 10 n.text.toList 0

theorem ne_nil : n.text.toList ≠ [] := fun h => n.ne_empty (String.toList_eq_nil_iff.mp h)

theorem isDigit {c : Char} (h : c ∈ n.text.toList) : Text.isDigit c = true := by
  rw [Text.isDigit, digitValue?_of_isDigit (n.digits c h)]
  rfl

/-- A number is read as it is written. -/
theorem readNumber_text : readNumber n.text.toList = .ok n.value := by
  have hvalue : Text.digitsValue? 0 n.text.toList = some n.value := digitsValue?_of_isDigit n.digits 0
  exact (readNumber_eq_ok_iff ⟨_, hvalue⟩).mpr ⟨n.length_le, hvalue⟩

theorem mapM_readNumber_text (column : Option Numeral) :
    (column.map fun n => n.text.toList).mapM readNumber = .ok (column.map value) := by
  cases column with
  | none => rfl
  | some n =>
      rw [Option.map_some, Option.mapM_some, readNumber_text]
      rfl

theorem skipBlanks_text (rest : List Char) : skipBlanks (n.text.toList ++ rest) = n.text.toList ++ rest := by
  cases hn : n.text.toList with
  | nil => exact absurd hn n.ne_nil
  | cons c cs =>
      apply skipBlanks_of_head
      apply isBlank_of_isDigit
      apply n.digits
      rw [hn]
      exact List.mem_cons_self

theorem takeWhile_text {c : Char} (hc : Text.isDigit c = false) (rest : List Char) :
    (n.text.toList ++ c :: rest).takeWhile Text.isDigit = n.text.toList :=
  takeWhile_append_cons (fun _ => n.isDigit) hc rest

theorem dropWhile_text {c : Char} (hc : Text.isDigit c = false) (rest : List Char) :
    (n.text.toList ++ c :: rest).dropWhile Text.isDigit = c :: rest :=
  dropWhile_append_cons (fun _ => n.isDigit) hc rest

end Numeral

/-! ## Columns -/

/-- A column as it stands behind the line number, if it does. -/
def columnText (column : Option String) : List Char :=
  column.elim [] fun n => ", column ".toList ++ n.toList

theorem columnText_head (column : Option String) (rest : List Char) :
    ∃ c cs, columnText column ++ ':' :: rest = c :: cs ∧ Text.isDigit c = false := by
  cases column with
  | none => exact ⟨':', rest, rfl, by decide⟩
  | some n => exact ⟨',', _, rfl, by decide⟩

theorem readColumn?_append (cs : List Char) :
    readColumn? (", column ".toList ++ cs) =
      if ((skipBlanks cs).takeWhile Text.isDigit).isEmpty then none
      else some ((skipBlanks cs).takeWhile Text.isDigit, (skipBlanks cs).dropWhile Text.isDigit) := rfl

theorem readColumn?_colon (rest : List Char) : readColumn? (':' :: rest) = none := rfl

theorem readColumn?_columnText (n : Numeral) (rest : List Char) :
    readColumn? (columnText (some n.text) ++ ':' :: rest) = some (n.text.toList, ':' :: rest) := by
  rw [columnText, Option.elim_some, List.append_assoc, readColumn?_append, n.skipBlanks_text,
    n.takeWhile_text (by decide), n.dropWhile_text (by decide), if_neg]
  simpa using n.ne_empty

/-! ## Messages -/

theorem readMessage?_of_not_mem {message : List Char} (h : '\n' ∉ Text.trimBlanks message) :
    readMessage? (' ' :: message) = some (Text.trimBlanks message) := by
  have htrim : Text.trimBlanks (' ' :: message) = Text.trimBlanks message := rfl
  unfold readMessage?
  rw [htrim]
  exact if_neg h

theorem mem_of_mem_trimBlanks {cs : List Char} {c : Char} (h : c ∈ Text.trimBlanks cs) : c ∈ cs := by
  unfold Text.trimBlanks Text.trimRight Text.trimLeft at h
  exact (List.dropWhile_sublist _).subset
    (List.mem_reverse.mp ((List.dropWhile_sublist _).subset (List.mem_reverse.mp h)))

/-- A text that neither begins nor ends with a blank. -/
structure IsTrimmed (cs : List Char) : Prop where
  head : ∀ c ∈ cs.head?, Text.isBlank c = false
  last : ∀ c ∈ cs.getLast?, Text.isBlank c = false

theorem dropWhile_isBlank {cs : List Char} (h : ∀ c ∈ cs.head?, Text.isBlank c = false) :
    cs.dropWhile Text.isBlank = cs := by
  cases cs with
  | nil => rfl
  | cons c cs => exact skipBlanks_of_head (h c rfl) cs

/-- Blanks behind a text without blanks at its ends are cut off, and nothing else. -/
theorem trimBlanks_append {message blanks : List Char} (hm : IsTrimmed message)
    (hb : ∀ c ∈ blanks, Text.isBlank c = true) : Text.trimBlanks (message ++ blanks) = message := by
  have hreverse : ∀ c ∈ message.reverse.head?, Text.isBlank c = false := by
    rw [List.head?_reverse]
    exact hm.last
  have hblanks : ∀ c ∈ blanks.reverse, Text.isBlank c = true := fun c hc => hb c (List.mem_reverse.mp hc)
  unfold Text.trimBlanks Text.trimRight Text.trimLeft
  rw [List.dropWhile_append, dropWhile_isBlank hm.head]
  split
  · rename_i hempty
    have hdrop : blanks.dropWhile Text.isBlank = [] := List.dropWhile_eq_nil_iff.mpr hb
    rw [hdrop, List.isEmpty_iff.mp hempty]
    rfl
  · rw [List.reverse_append, List.dropWhile_append_of_pos hblanks, dropWhile_isBlank hreverse, List.reverse_reverse]

/-! ## Lines -/

theorem toList_writeLine (word : String) (path : Option String) (line : String) (column : Option String)
    (message : String) : (writeLine word path line column message).toList =
      word.toList ++ ':' :: ' ' :: (pathText path ++ ("line ".toList ++
        (line.toList ++ (columnText column ++ ':' :: ' ' :: message.toList)))) := by
  cases path <;> cases column <;> simp [writeLine, columnText, pathText]

/-- A written line is read into the parts it was put together from, with blanks around it, too. -/
theorem readParts?_writeLine {known : String × Severity} (hk : known ∈ severities) {word : String}
    (hw : IsCaseOf known.1 word) {path : Option String} (hpath : ∀ p ∈ path, p ≠ "" ∧ '\'' ∉ p.toList)
    (line : Numeral) (column : Option Numeral) {message : String} {before after : List Char}
    (hbefore : ∀ c ∈ before, Text.isBlank c = true)
    (hmessage : '\n' ∉ Text.trimBlanks (message.toList ++ after)) :
    readParts? (before ++ (writeLine word path line.text (column.map Numeral.text) message).toList ++ after) =
      some ⟨word.toList, path.map String.toList, line.text.toList, column.map fun n => n.text.toList,
        Text.trimBlanks (message.toList ++ after)⟩ := by
  have hbehind (rest : List Char) : afterWord? "line".toList ("line ".toList ++ rest) = some (' ' :: rest) := rfl
  have hblanks (rest : List Char) : afterBlanks? (' ' :: rest) = some (skipBlanks rest) := rfl
  have hcolon (rest : List Char) : Text.after? [':'] (skipBlanks (':' :: rest)) = some rest := rfl
  obtain ⟨c, cs, hhead, hc⟩ := columnText_head (column.map Numeral.text) (' ' :: (message.toList ++ after))
  unfold readParts?
  rw [toList_writeLine, List.append_assoc, skipBlanks_append hbefore, List.append_assoc, skipBlanks_word hk hw,
    List.cons_append, readSeverity?_append hk hw]
  simp only [List.cons_append, List.append_assoc, Option.bind_eq_bind, Option.bind_some, hcolon,
    readPath?_pathText hpath, hbehind, hblanks, line.skipBlanks_text]
  rw [hhead, line.takeWhile_text hc, line.dropWhile_text hc, if_neg (by simpa using line.ne_empty), ← hhead]
  cases column with
  | none =>
      have hnone (rest : List Char) : columnText none ++ ':' :: rest = ':' :: rest := rfl
      simp only [Option.map_none, hnone, readColumn?_colon, hcolon, readMessage?_of_not_mem hmessage,
        Option.bind_some]
  | some n =>
      simp only [Option.map_some, readColumn?_columnText, hcolon, readMessage?_of_not_mem hmessage, Option.bind_some]

/-- A written line is read into an entry with what was written. -/
theorem parseLine_of_written {known : String × Severity} (hk : known ∈ severities) {word : String}
    (hw : IsCaseOf known.1 word) {path : Option String} (hpath : ∀ p ∈ path, p ≠ "" ∧ '\'' ∉ p.toList)
    (line : Numeral) (column : Option Numeral) {message : String} {before after : List Char}
    (hbefore : ∀ c ∈ before, Text.isBlank c = true)
    (hmessage : '\n' ∉ Text.trimBlanks (message.toList ++ after)) {mirror entry relative : Path}
    (hlocate : locate mirror entry (path.map String.toList) = some relative) :
    parseLine (before ++ (writeLine word path line.text (column.map Numeral.text) message).toList ++ after)
        mirror entry =
      .ok (some ⟨known.2, relative, line.value, column.map Numeral.value,
        if (Text.trimBlanks (message.toList ++ after)).isEmpty then capitalizeSeverity word.toList
        else String.ofList (Text.trimBlanks (message.toList ++ after))⟩) := by
  have hparts := readParts?_writeLine hk hw hpath line column hbefore hmessage
  have hseverity : readSeverity word.toList = .ok known.2 :=
    readSeverity_of_spells hk (spells_of_isCaseOf hw) fun h => (plain_of_isCaseOf hk hw h).2 rfl
  unfold parseLine
  simp only [hparts, hlocate, hseverity, line.readNumber_text, Numeral.mapM_readNumber_text]
  rfl

theorem locate_text {relative : Path} (h : relative.IsInner) (mirror entry : Path) :
    locate mirror entry (some relative.text.toList) = some relative := by
  have hrelative : relative.isAbsolute = false := by simp [Path.isAbsolute, h.start]
  unfold locate
  simp only [String.ofList_toList, Path.ofText_text, hrelative]
  simp [Option.filter, h.noUp]

/-- The letter case of a severity word is not seen in the message that stands for it. -/
theorem capitalizeSeverity_of_isCaseOf {known : String × Severity} (hk : known ∈ severities) {word : String}
    (hw : IsCaseOf known.1 word) : capitalizeSeverity word.toList = capitalizeSeverity known.1.toList := by
  have hplain (text : String) (h : IsCaseOf known.1 text) (c : Char) (hc : c ∈ text.toList) :
      (if c = 'ı' then 'I' else c.toUpper) = c.toLower.toUpper := by
    rw [if_neg (plain_of_isCaseOf hk h hc).1, Char.toUpper_toLower_eq_toUpper]
  have hown := hplain known.1 rfl
  have hwritten := hplain word hw
  unfold IsCaseOf at hw
  unfold capitalizeSeverity
  cases hword : word.toList with
  | nil =>
      rw [hword] at hw
      rw [List.map_eq_nil_iff.mp hw.symm]
  | cons c cs =>
      cases hknown : known.1.toList with
      | nil => simp [hword, hknown] at hw
      | cons k ks =>
          rw [hword, hknown, List.map_cons, List.map_cons, List.cons.injEq] at hw
          simp only [hwritten c (hword ▸ List.mem_cons_self), hown k (hknown ▸ List.mem_cons_self), hw.1, hw.2]

/-- Reading undoes writing: a line that is written with a severity word in any letter case, a relative path
that does not lead up if one is given, numbers and a message is read into the entry of exactly these, also
with blanks around the line. The severity stands for an empty message. -/
theorem parseLine_undoes_writeLine {known : String × Severity} (hknown : known ∈ severities) {word : String}
    (hword : IsCaseOf known.1 word) {path : Option Path} (hpath : ∀ p ∈ path, p.IsInner ∧ '\'' ∉ p.text.toList)
    (line : Numeral) (column : Option Numeral) {message : String} (hline : '\n' ∉ message.toList)
    (hmessage : IsTrimmed message.toList) {before after : List Char} (hbefore : ∀ c ∈ before, Text.isBlank c = true)
    (hafter : ∀ c ∈ after, Text.isBlank c = true) (mirror entry : Path) :
    parseLine (before ++
        (writeLine word (path.map Path.text) line.text (column.map Numeral.text) message).toList ++ after)
        mirror entry =
      .ok (some ⟨known.2, path.getD entry, line.value, column.map Numeral.value,
        if message = "" then capitalizeSeverity known.1.toList else message⟩) := by
  have htrim : Text.trimBlanks (message.toList ++ after) = message.toList := trimBlanks_append hmessage hafter
  have hwritten : ∀ p ∈ path.map Path.text, p ≠ "" ∧ '\'' ∉ p.toList := by
    intro text htext
    obtain ⟨p, hp, rfl⟩ := Option.map_eq_some_iff.mp htext
    exact ⟨Path.text_ne_empty (hpath p hp).1.ne_nil, (hpath p hp).2⟩
  have hlocate : locate mirror entry ((path.map Path.text).map String.toList) = some (path.getD entry) := by
    cases path with
    | none => rfl
    | some p => exact locate_text (hpath p rfl).1 mirror entry
  have hnewline : '\n' ∉ Text.trimBlanks (message.toList ++ after) := by
    rw [htrim]
    exact hline
  rw [parseLine_of_written hknown hword hwritten line column hbefore hnewline hlocate, htrim,
    capitalizeSeverity_of_isCaseOf hknown hword, String.ofList_toList]
  simp

/-- A number with zeros in front. -/
def paddedTwelve : Numeral :=
  ⟨"0012", by decide, List.all_eq_true.mp (by decide +kernel), by decide +kernel⟩

/-- Neither a path nor a message that looks like the rest of a line is mistaken for it. -/
theorem parseLine_undoes_writeLine_ambiguous :
    parseLine "\t Runtime error: 'line 3: b.ink' line 0012, column 0012: 'x' line 1, col 2: no \r".toList
        (.ofText "/mirrors/inkls-1") (.ofText "main.ink") =
      .ok (some ⟨.error, .ofText "line 3: b.ink", 12, some 12, "'x' line 1, col 2: no"⟩) := by
  have hpath : ∀ p ∈ some (Path.ofText "line 3: b.ink"), p.IsInner ∧ '\'' ∉ p.text.toList := by
    rintro p ⟨⟩
    exact ⟨⟨by decide +kernel, by decide +kernel, by decide +kernel⟩, by decide +kernel⟩
  have hknown : ("RUNTIME ERROR", Severity.error) ∈ severities := by decide
  have hword : IsCaseOf "RUNTIME ERROR" "Runtime error" := show _ = _ by decide +kernel
  have hline : '\n' ∉ "'x' line 1, col 2: no".toList := by decide +kernel
  have hmessage : IsTrimmed "'x' line 1, col 2: no".toList := ⟨by simp [Text.isBlank], by simp [Text.isBlank]⟩
  have hbefore : ∀ c ∈ ['\t', ' '], Text.isBlank c = true := by simp [Text.isBlank]
  have hafter : ∀ c ∈ [' ', '\r'], Text.isBlank c = true := by simp [Text.isBlank]
  have hread := parseLine_undoes_writeLine hknown hword hpath paddedTwelve (some paddedTwelve) hline hmessage hbefore
    hafter (.ofText "/mirrors/inkls-1") (.ofText "main.ink")
  have htext : ['\t', ' '] ++ (writeLine "Runtime error" (some (Path.ofText "line 3: b.ink").text) paddedTwelve.text
      (some paddedTwelve.text) "'x' line 1, col 2: no").toList ++ [' ', '\r'] =
        "\t Runtime error: 'line 3: b.ink' line 0012, column 0012: 'x' line 1, col 2: no \r".toList := by
    decide +kernel
  have hvalue : paddedTwelve.value = 12 := by decide +kernel
  rw [Option.map_some, Option.map_some, Option.map_some, htext, hvalue] at hread
  exact hread

end Report

end InkServer
