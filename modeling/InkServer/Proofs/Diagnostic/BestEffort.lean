import InkServer.Proofs.Diagnostic.Reading

/-!
# Translation of reports is best effort, as far as findings can be presented

Every line of a report that is recognized should become one diagnostic, whatever else is in the report. It
does, unless a recognized line cannot be presented: then the whole report is lost. The main statement says
that these are exactly the reports that are lost.
-/

namespace InkServer

/-! ## Positions -/

theorem coordinate?_eq_some_iff {n : Nat} {c : { n : Nat // n ≤ maxPosition }} :
    coordinate? n = some c ↔ c.1 = n := by
  unfold coordinate?
  split
  · rename_i m hm
    have hmn : n = m := Int.ofNat.inj hm
    subst hmn
    split
    · rw [Option.some_inj, Subtype.ext_iff, eq_comm]
    · rename_i hlt
      exact iff_of_false (fun h => by cases h) fun h => hlt (h ▸ c.2)
  · rename_i hm
    cases hm

theorem Position.make_eq_ok_iff {line character : Nat} {p : Position} :
    Position.make line character = .ok p ↔ p.line = line ∧ p.character = character := by
  constructor
  · intro h
    unfold make at h
    split at h
    · rename_i l c hl hc
      cases h
      exact ⟨coordinate?_eq_some_iff.mp hl, coordinate?_eq_some_iff.mp hc⟩
    · cases h
    · cases h
  · rintro ⟨rfl, rfl⟩
    have hl : coordinate? p.line = some ⟨p.line, p.line_le⟩ := coordinate?_eq_some_iff.mpr rfl
    have hc : coordinate? p.character = some ⟨p.character, p.character_le⟩ := coordinate?_eq_some_iff.mpr rfl
    rw [make, hl, hc]

theorem Range.make_eq_ok_iff {startLine startCharacter endLine endCharacter : Nat} {r : Range} :
    Range.make startLine startCharacter endLine endCharacter = .ok r ↔
      (r.start.line = startLine ∧ r.start.character = startCharacter) ∧
        r.stop.line = endLine ∧ r.stop.character = endCharacter := by
  rw [← Position.make_eq_ok_iff, ← Position.make_eq_ok_iff]
  unfold make
  constructor
  · intro h
    cases hstart : Position.make startLine startCharacter with
    | error e => rw [hstart] at h; cases h
    | ok start =>
        cases hstop : Position.make endLine endCharacter with
        | error e => rw [hstart, hstop] at h; cases h
        | ok stop =>
            rw [hstart, hstop] at h
            cases h
            exact ⟨rfl, rfl⟩
  · rintro ⟨hstart, hstop⟩
    rw [hstart, hstop]
    rfl

namespace CompilerReport

/-! ## Recognized lines -/

/-- A line in the form of a finding about a file of the mirror: its parts, and the file. -/
structure Recognized where
  parts : Report.Parts
  path : Path

def recognize? (mirror entry : Path) (line : List Char) : Option Recognized := do
  let parts ← Report.readParts? line
  let path ← Report.locate mirror entry parts.path
  some ⟨parts, path⟩

/-- The recognized lines of a report, in its order. -/
def recognized (report : CompilerReport) : List Recognized :=
  (Text.splitLines report.output.toList).filterMap (recognize? report.mirror report.entry)

namespace Recognized

/-- The diagnostic says of the original document what the line says of the file. -/
structure ShownAs (root : Path) (f : Recognized) (d : AddressedDiagnostic) : Prop where
  uri : Uri.ofPath (root / f.path) = .ok d.uri
  severity : ∃ known ∈ Report.severities, Report.Spells known.1 f.parts.severity ∧
    d.diagnostic.severity = some known.2
  line : ∃ n, Text.digitsValue? 0 f.parts.line = some n ∧ d.diagnostic.range.start.line = n - 1
  /-- A finding without a column is about the first. -/
  column : d.diagnostic.range.start.character = (f.parts.column.bind (Text.digitsValue? 0)).getD 1 - 1
  stop : d.diagnostic.range.stop.line = d.diagnostic.range.start.line + 1 ∧
    d.diagnostic.range.stop.character = 0
  message : d.diagnostic.message = if f.parts.message.isEmpty
    then Report.capitalizeSeverity f.parts.severity else String.ofList f.parts.message
  source : d.diagnostic.source = some source

/-- What is asked of a recognized line so that it can be presented. -/
structure IsPresentable (root : Path) (f : Recognized) : Prop where
  /-- The severity word is spelled without the dotted capital I. -/
  plain : 'İ' ∉ f.parts.severity
  line_length : f.parts.line.length ≤ Report.maxDigits
  column_length : ∀ digits ∈ f.parts.column, digits.length ≤ Report.maxDigits
  line_le : ∀ n ∈ Text.digitsValue? 0 f.parts.line, n ≤ maxPosition
  column_le : ∀ n ∈ f.parts.column.bind (Text.digitsValue? 0), n ≤ maxPosition + 1
  named : ¬ (root / f.path).IsBareAuthority

end Recognized

/-- What translation promises: one diagnostic for every recognized line, in the order of the report, or a
refusal, and that only where nothing is recognized in the report of a failed compile. -/
inductive BestEffort (report : CompilerReport) (root : Path) :
    Except Error (List AddressedDiagnostic) → Prop
  | shown {ds : List AddressedDiagnostic} (h : List.Forall₂ (Recognized.ShownAs root) report.recognized ds)
      (hpass : report.recognized ≠ [] ∨ report.exitStatus = 0) : BestEffort report root (.ok ds)
  | refused (h : report.recognized = []) (hfailed : report.exitStatus ≠ 0) :
      BestEffort report root (.error (.unrecognized ⟨report.output, report.exitStatus⟩))

/-! ## From a recognized line to its diagnostic -/

/-- The finding of a recognized line. -/
def Recognized.read (f : Recognized) : Except Report.Error Report.Entry := do
  let severity ← Report.readSeverity f.parts.severity
  let number ← Report.readNumber f.parts.line
  let column ← f.parts.column.mapM Report.readNumber
  let message := if f.parts.message.isEmpty then Report.capitalizeSeverity f.parts.severity
    else String.ofList f.parts.message
  pure ⟨severity, f.path, number, column, message⟩

/-- The diagnostic of a recognized line. -/
def Recognized.present (root : Path) (f : Recognized) : Except Error AddressedDiagnostic := do
  let e ← f.read.mapError .line
  Entry.toDiagnostic Uri.ofPath root e

theorem parseLine_of_recognize?_none {mirror entry : Path} {line : List Char}
    (h : recognize? mirror entry line = none) : Report.parseLine line mirror entry = .ok none := by
  unfold recognize? at h
  unfold Report.parseLine
  cases hparts : Report.readParts? line with
  | none => rfl
  | some parts =>
      cases hpath : Report.locate mirror entry parts.path with
      | none => simp [hpath]; rfl
      | some path => simp [hparts, hpath] at h

theorem parseLine_of_recognize?_some {mirror entry : Path} {line : List Char} {f : Recognized}
    (h : recognize? mirror entry line = some f) :
    f.parts.WellFormed ∧ Report.parseLine line mirror entry = f.read.map some := by
  unfold recognize? at h
  simp only [Option.bind_eq_bind, Option.bind_eq_some_iff, Option.some.injEq] at h
  obtain ⟨parts, hparts, path, hpath, rfl⟩ := h
  refine ⟨Report.wellFormed_of_readParts? hparts, ?_⟩
  unfold Report.parseLine Recognized.read
  simp only [hparts, hpath]
  cases Report.readSeverity parts.severity with
  | error e => rfl
  | ok severity =>
      cases Report.readNumber parts.line with
      | error e => rfl
      | ok number => cases parts.column.mapM Report.readNumber <;> rfl

/-- The diagnostic of a recognized line, under whatever name its document has. -/
def Recognized.IsPresentedAs (naming : Naming) (root : Path) (f : Recognized) (d : AddressedDiagnostic) : Prop :=
  ∃ e, f.read = .ok e ∧ Entry.toDiagnostic naming root e = .ok d

theorem Recognized.present_eq_ok_iff {root : Path} {f : Recognized} {d : AddressedDiagnostic} :
    f.present root = .ok d ↔ f.IsPresentedAs Uri.ofPath root d := by
  unfold present IsPresentedAs
  simp only [bind_eq_ok_iff, mapError_eq_ok_iff]

/-- Lines that are not recognized are passed over, and the others are presented one by one. -/
theorem findings_eq_ok_iff_presented {naming : Naming} {root mirror entry : Path} {lines : List (List Char)}
    {ds : List AddressedDiagnostic} :
    findings naming root mirror entry lines = .ok ds ↔
      List.Forall₂ (fun f d => f.IsPresentedAs naming root d) (lines.filterMap (recognize? mirror entry)) ds := by
  induction lines generalizing ds with
  | nil =>
      rw [List.filterMap_nil, List.forall₂_nil_left_iff, findings]
      exact ⟨fun h => (Except.ok.inj h).symm, fun h => h ▸ rfl⟩
  | cons line rest ih =>
      cases hf : recognize? mirror entry line with
      | none =>
          rw [List.filterMap_cons_none hf, ← ih, findings, parseLine_of_recognize?_none hf]
          rfl
      | some f =>
          rw [List.filterMap_cons_some hf, List.forall₂_cons_left_iff, findings, (parseLine_of_recognize?_some hf).2,
            bind_eq_ok_iff]
          constructor
          · rintro ⟨found, hread, h⟩
            cases he : f.read with
            | error e =>
                rw [he] at hread
                cases hread
            | ok e =>
                rw [he] at hread
                cases hread
                obtain ⟨d, hd, h⟩ := bind_eq_ok_iff.mp h
                obtain ⟨ds', hds, hcons⟩ := bind_eq_ok_iff.mp h
                exact ⟨d, ds', ⟨e, he, hd⟩, ih.mp hds, (Except.ok.inj hcons).symm⟩
          · rintro ⟨d, ds', ⟨e, he, hd⟩, hds, rfl⟩
            refine ⟨some e, by rw [he]; rfl, ?_⟩
            exact bind_eq_ok_iff.mpr ⟨d, hd, bind_eq_ok_iff.mpr ⟨ds', ih.mpr hds, rfl⟩⟩

theorem findings_eq_ok_iff {root mirror entry : Path} {lines : List (List Char)} {ds : List AddressedDiagnostic} :
    findings Uri.ofPath root mirror entry lines = .ok ds ↔
      List.Forall₂ (fun f d => f.present root = .ok d) (lines.filterMap (recognize? mirror entry)) ds := by
  simp only [Recognized.present_eq_ok_iff]
  exact findings_eq_ok_iff_presented

/-! ## When a recognized line can be presented -/

theorem Recognized.read_eq_ok_iff {f : Recognized} {e : Report.Entry} :
    f.read = .ok e ↔ Report.readSeverity f.parts.severity = .ok e.severity ∧
      Report.readNumber f.parts.line = .ok e.line ∧
      f.parts.column.mapM Report.readNumber = .ok e.column ∧ e.path = f.path ∧
      e.message = if f.parts.message.isEmpty then Report.capitalizeSeverity f.parts.severity
        else String.ofList f.parts.message := by
  unfold read
  simp only [bind_eq_ok_iff]
  constructor
  · rintro ⟨severity, hs, number, hn, column, hc, he⟩
    cases he
    exact ⟨hs, hn, hc, rfl, rfl⟩
  · obtain ⟨severity, path, line, column, message⟩ := e
    rintro ⟨hs, hn, hc, rfl, rfl⟩
    exact ⟨severity, hs, line, hn, column, hc, rfl⟩

theorem Entry.toDiagnostic_eq_ok_iff {naming : Naming} {root : Path} {e : Report.Entry} {d : AddressedDiagnostic} :
    Entry.toDiagnostic naming root e = .ok d ↔ naming (root / e.path) = .ok d.uri ∧
      ((d.diagnostic.range.start.line = e.line - 1 ∧
          d.diagnostic.range.start.character = e.column.getD 1 - 1) ∧
        d.diagnostic.range.stop.line = e.line - 1 + 1 ∧ d.diagnostic.range.stop.character = 0) ∧
      d.diagnostic.message = e.message ∧ d.diagnostic.severity = some e.severity ∧
      d.diagnostic.source = some source := by
  rw [← Range.make_eq_ok_iff]
  unfold toDiagnostic
  simp only [bind_eq_ok_iff, mapError_eq_ok_iff]
  constructor
  · rintro ⟨uri, hu, range, hr, hd⟩
    cases hd
    exact ⟨hu, hr, rfl, rfl, rfl⟩
  · obtain ⟨uri, ⟨range, message, severity, source⟩⟩ := d
    rintro ⟨hu, hr, rfl, rfl, rfl⟩
    exact ⟨uri, hu, range, hr, rfl⟩

namespace Recognized

variable {root : Path} {f : Recognized} {d : AddressedDiagnostic}

/-- A line that is presented can be, and the diagnostic says what the line says. -/
theorem shownAs_of_present (hw : f.parts.WellFormed) (h : f.present root = .ok d) :
    f.IsPresentable root ∧ f.ShownAs root d := by
  obtain ⟨e, hread, hd⟩ := bind_eq_ok_iff.mp h
  obtain ⟨hs, hl, hc, hpath, hm⟩ := read_eq_ok_iff.mp (mapError_eq_ok_iff.mp hread)
  obtain ⟨huri, ⟨⟨hline, hcharacter⟩, hstop⟩, hmessage, hseverity, hsource⟩ :=
    Entry.toDiagnostic_eq_ok_iff.mp hd
  obtain ⟨hplain, known, hk, hspells, hknown⟩ := (Report.readSeverity_eq_ok_iff hw.severity).mp hs
  obtain ⟨hlength, hn⟩ := (Report.readNumber_eq_ok_iff hw.line).mp hl
  obtain ⟨hlengths, hcolumn⟩ := (Report.mapM_readNumber_eq_ok_iff hw.column).mp hc
  rw [hpath] at huri
  refine ⟨⟨hplain, hlength, hlengths, fun n hn' => ?_, fun n hn' => ?_, (Uri.ofPath_isOk_iff _).mp ⟨_, huri⟩⟩,
    huri, ⟨known, hk, hspells, hseverity.trans hknown⟩, ⟨e.line, hn, hline⟩, ?_, ?_, hmessage.trans hm, hsource⟩
  · have he : e.line = n := Option.some.inj (hn.symm.trans hn')
    have hle := d.diagnostic.range.stop.line_le
    omega
  · have he : e.column = some n := hcolumn.symm.trans hn'
    have hle := d.diagnostic.range.start.character_le
    rw [hcharacter, he, Option.getD_some] at hle
    omega
  · rw [hcharacter, hcolumn]
  · rw [hline]
    exact hstop

/-- The diagnostic of a line that can be presented. -/
theorem present_of_shownAs (hw : f.parts.WellFormed) (h : f.IsPresentable root) (hd : f.ShownAs root d) :
    f.present root = .ok d := by
  obtain ⟨known, hk, hspells, hseverity⟩ := hd.severity
  obtain ⟨n, hn, hline⟩ := hd.line
  have hread : f.read = .ok ⟨known.2, f.path, n, f.parts.column.bind (Text.digitsValue? 0), d.diagnostic.message⟩ :=
    read_eq_ok_iff.mpr ⟨(Report.readSeverity_eq_ok_iff hw.severity).mpr ⟨h.plain, known, hk, hspells, rfl⟩,
      (Report.readNumber_eq_ok_iff hw.line).mpr ⟨h.line_length, hn⟩,
      (Report.mapM_readNumber_eq_ok_iff hw.column).mpr ⟨h.column_length, rfl⟩, rfl, hd.message⟩
  refine bind_eq_ok_iff.mpr ⟨_, mapError_eq_ok_iff.mpr hread, Entry.toDiagnostic_eq_ok_iff.mpr ?_⟩
  refine ⟨hd.uri, ⟨⟨hline, hd.column⟩, ?_⟩, rfl, hseverity, hd.source⟩
  rw [← hline]
  exact hd.stop

/-- A line that can be presented has a diagnostic that says the same. -/
theorem exists_shownAs (hw : f.parts.WellFormed) (h : f.IsPresentable root) : ∃ d, f.ShownAs root d := by
  obtain ⟨known, hk, hspells⟩ := hw.severity
  obtain ⟨n, hn⟩ := hw.line
  obtain ⟨uri, huri⟩ := (Uri.ofPath_isOk_iff _).mpr h.named
  have hline : n - 1 + 1 ≤ maxPosition := by
    have hle := h.line_le n hn
    unfold maxPosition at hle ⊢
    omega
  have hcolumn : (f.parts.column.bind (Text.digitsValue? 0)).getD 1 - 1 ≤ maxPosition := by
    cases hc : f.parts.column.bind (Text.digitsValue? 0) with
    | none => exact Nat.zero_le _
    | some c => exact Nat.sub_le_of_le_add (h.column_le c hc)
  let range : Range := ⟨⟨n - 1, _, Nat.le_of_succ_le hline, hcolumn⟩, ⟨n - 1 + 1, 0, hline, Nat.zero_le _⟩⟩
  exact ⟨⟨uri, range, _, some known.2, some source⟩, huri, ⟨known, hk, hspells, rfl⟩, ⟨n, hn, rfl⟩, rfl,
    ⟨rfl, rfl⟩, rfl, rfl⟩

end Recognized

/-! ## Whole reports -/

theorem wellFormed_of_mem_recognized {report : CompilerReport} {f : Recognized} (h : f ∈ report.recognized) :
    f.parts.WellFormed := by
  obtain ⟨line, _, hf⟩ := List.mem_filterMap.mp h
  exact (parseLine_of_recognize?_some hf).1

theorem forall₂_present_iff {root : Path} {fs : List Recognized} {ds : List AddressedDiagnostic}
    (hw : ∀ f ∈ fs, f.parts.WellFormed) :
    List.Forall₂ (fun f d => f.present root = .ok d) fs ds ↔
      (∀ f ∈ fs, f.IsPresentable root) ∧ List.Forall₂ (Recognized.ShownAs root) fs ds := by
  constructor
  · intro h
    refine (List.forall₂_and_left fs ds).mp (.imp ?_ ((List.forall₂_and_left fs ds).mpr ⟨hw, h⟩))
    exact fun f d hf => Recognized.shownAs_of_present hf.1 hf.2
  · rintro ⟨hpresentable, h⟩
    have hboth : ∀ f ∈ fs, f.parts.WellFormed ∧ f.IsPresentable root := fun f hf => ⟨hw f hf, hpresentable f hf⟩
    refine .imp ?_ ((List.forall₂_and_left fs ds).mpr ⟨hboth, h⟩)
    exact fun f d hf => Recognized.present_of_shownAs hf.1.1 hf.1.2 hf.2

theorem exists_forall₂_shownAs {root : Path} {fs : List Recognized}
    (hw : ∀ f ∈ fs, f.parts.WellFormed) (h : ∀ f ∈ fs, f.IsPresentable root) :
    ∃ ds, List.Forall₂ (Recognized.ShownAs root) fs ds := by
  induction fs with
  | nil => exact ⟨[], .nil⟩
  | cons f rest ih =>
      obtain ⟨d, hd⟩ := Recognized.exists_shownAs (hw f List.mem_cons_self) (h f List.mem_cons_self)
      obtain ⟨ds, hds⟩ := ih (fun f' hf' => hw f' (List.mem_cons_of_mem _ hf'))
        fun f' hf' => h f' (List.mem_cons_of_mem _ hf')
      exact ⟨d :: ds, .cons hd hds⟩

/-- A report is refused for having no finding when all its lines were gone through. -/
theorem diagnostics_eq (report : CompilerReport) (root : Path) :
    report.diagnostics Uri.ofPath root =
      findings Uri.ofPath root report.mirror report.entry (Text.splitLines report.output.toList) >>= fun ds =>
        if ds = [] ∧ report.exitStatus ≠ 0 then .error (.unrecognized ⟨report.output, report.exitStatus⟩)
        else .ok ds := by
  unfold diagnostics
  congr 1
  funext ds
  by_cases hempty : ds = [] <;> by_cases hstatus : report.exitStatus = 0 <;> simp [hempty, hstatus] <;> rfl

/-- Translation keeps its promise exactly for the reports in which every recognized line can be
presented. -/
theorem diagnostics_bestEffort_iff (report : CompilerReport) (root : Path) :
    BestEffort report root (report.diagnostics Uri.ofPath root) ↔
      ∀ f ∈ report.recognized, f.IsPresentable root := by
  have hw : ∀ f ∈ report.recognized, f.parts.WellFormed := fun f hf => wellFormed_of_mem_recognized hf
  constructor
  · generalize hresult : report.diagnostics Uri.ofPath root = result
    intro h
    cases h with
    | refused hnone => exact fun f hf => absurd (hnone ▸ hf) List.not_mem_nil
    | shown =>
        rw [diagnostics_eq] at hresult
        obtain ⟨ds, hfindings, _⟩ := bind_eq_ok_iff.mp hresult
        exact ((forall₂_present_iff hw).mp (findings_eq_ok_iff.mp hfindings)).1
  · intro h
    obtain ⟨ds, hds⟩ := exists_forall₂_shownAs hw h
    have hfindings := findings_eq_ok_iff.mpr ((forall₂_present_iff hw).mpr ⟨h, hds⟩)
    rw [diagnostics_eq, hfindings]
    show BestEffort report root (if ds = [] ∧ report.exitStatus ≠ 0 then _ else _)
    have hnil : report.recognized = [] ↔ ds = [] := by
      rw [← List.length_eq_zero_iff, hds.length_eq, List.length_eq_zero_iff]
    split
    · rename_i hnone
      exact .refused (hnil.mpr hnone.1) hnone.2
    · rename_i hsome
      refine .shown hds ?_
      rw [ne_eq, hnil]
      exact (not_and_or.mp hsome).imp id not_not.mp

/-- A report of two findings, one of them under a word in mixed letters. -/
def mixedLetters : CompilerReport where
  output := "ERROR: 'main.ink' line 2: a\nWARNİNG: line 3: b"
  exitStatus := 1
  entry := Path.ofText "main.ink"
  mirror := Path.ofText "/mirrors/inkls-1"

/-- The dotted capital I is read as a letter of a severity word, but the word is then not found among the
severities, and the finding before it is lost as well. -/
theorem mixed_letters_lose_the_report :
    ¬ ∀ (report : CompilerReport) (root : Path), report.mirror.isAbsolute → ¬ report.entry.isAbsolute →
      ".." ∉ report.entry.segments → root.isAbsolute →
        BestEffort report root (report.diagnostics Uri.ofPath root) := by
  intro h
  have hlost : mixedLetters.diagnostics Uri.ofPath (Path.ofText "/story") =
      .error (.line (.unknownSeverity "WARNİNG")) := by decide +kernel
  have hpromise := h mixedLetters (Path.ofText "/story") (by decide) (by decide) (by decide) (by decide)
  rw [hlost] at hpromise
  cases hpromise

end CompilerReport

end InkServer
