import InkServer.Proofs.Diagnostic.BestEffort
import InkServer.Proofs.Diagnostic.Printing
import InkServer.Proofs.Documents.Tracking
import InkServer.Proofs.Path.Below
import InkServer.Proofs.Uri.RoundTrip

/-!
# From a written line back to the path

A compiler names the files of a mirror, and the editor is told about the files they were copied from. For a
line as a compiler writes it, relative or absolute, nothing is lost on the way: the numbers are read as they
were written, the path is found again below the workspace, and the URI of the diagnostic names that path,
whatever characters are in it.
-/

namespace InkServer

namespace Report

/-! ## Numbers -/

theorem isDigit_of_mem_toString {n : Nat} {c : Char} (h : c ∈ (toString n).toList) : c.isDigit = true := by
  rw [Nat.toString_eq_repr, Nat.toList_repr] at h
  exact Nat.isDigit_of_mem_toDigits (by decide) (by decide) h

theorem toString_ne_nil (n : Nat) : (toString n).toList ≠ [] := by
  rw [Nat.toString_eq_repr, Nat.toList_repr]
  exact Nat.toDigits_ne_nil

theorem length_toString_le {n : Nat} (h : n ≤ maxPosition + 1) : (toString n).toList.length ≤ maxDigits := by
  have hlength : (Nat.toDigits 10 n).length ≤ 10 := by
    rw [Nat.length_toDigits_le_iff (by decide) (by decide)]
    unfold maxPosition at h
    omega
  rw [Nat.toString_eq_repr, Nat.toList_repr]
  exact hlength.trans (by decide)

/-- A line number or a column as it is usually written. -/
def Numeral.ofNat (n : Nat) (h : n ≤ maxPosition + 1) : Numeral :=
  ⟨toString n, fun he => toString_ne_nil n (String.toList_eq_nil_iff.mpr he), fun _ => isDigit_of_mem_toString,
    length_toString_le h⟩

/-- A number is read back as it is written. -/
theorem Numeral.value_ofNat {n : Nat} (h : n ≤ maxPosition + 1) : (ofNat n h).value = n := by
  show Nat.ofDigitChars 10 (toString n).toList 0 = n
  rw [Nat.toString_eq_repr, Nat.toList_repr, Nat.ofDigitChars_toDigits (by decide) (by decide)]

/-! ## Lines -/

/-- What a line names relatively or below the mirror is what it is about. -/
theorem locate_of_isInner {relative mirror written : Path} (hr : relative.IsInner) (hm : mirror.isAbsolute = true)
    (h : written = relative ∨ written = mirror / relative) (entry : Path) :
    locate mirror entry (some written.text.toList) = some relative := by
  rcases h with rfl | rfl
  · exact locate_text hr mirror entry
  · have habsolute : (mirror / relative).isAbsolute = true := by
      rw [Path.isAbsolute, Path.start_join hr.start]
      exact hm
    unfold locate
    simp only [String.ofList_toList, Path.ofText_text]
    rw [if_pos habsolute, Path.relativeTo?_join hr]
    simp [Option.filter, hr.noUp]

/-- The message of a written line; the severity stands for one that is blank. -/
def shownMessage (word message : String) : String :=
  if (Text.trimBlanks message.toList).isEmpty then capitalizeSeverity word.toList
  else String.ofList (Text.trimBlanks message.toList)

/-- A written line is read into an entry with the numbers that were written. -/
theorem parseLine_writeLine {known : String × Severity} (hk : known ∈ severities)
    {relative mirror entry : Path} {path : String} (hne : path ≠ "") (hquote : '\'' ∉ path.toList)
    (hlocate : locate mirror entry (some path.toList) = some relative)
    {line : Nat} (hline : line ≤ maxPosition + 1) {column : Option Nat} (hcolumn : ∀ n ∈ column, n ≤ maxPosition + 1)
    {message : String} (hmessage : '\n' ∉ message.toList) :
    parseLine (writeLine known.1 (some path) (toString line) (column.map toString) message).toList mirror entry =
      .ok (some ⟨known.2, relative, line, column, shownMessage known.1 message⟩) := by
  have hpath : ∀ p ∈ some path, p ≠ "" ∧ '\'' ∉ p.toList := by
    rintro p ⟨⟩
    exact ⟨hne, hquote⟩
  have hnewline : '\n' ∉ Text.trimBlanks (message.toList ++ []) := by
    rw [List.append_nil]
    exact fun h => hmessage (mem_of_mem_trimBlanks h)
  have hbefore : ∀ c ∈ ([] : List Char), Text.isBlank c = true := fun _ h => absurd h List.not_mem_nil
  have hread := parseLine_of_written hk rfl hpath (.ofNat line hline) (column.pmap Numeral.ofNat hcolumn) hbefore
    hnewline hlocate
  have htext : (column.pmap Numeral.ofNat hcolumn).map Numeral.text = column.map toString := by
    cases column <;> rfl
  have hvalue : (column.pmap Numeral.ofNat hcolumn).map Numeral.value = column := by
    cases column with
    | none => rfl
    | some n => exact congrArg some (Numeral.value_ofNat (hcolumn n rfl))
  rw [List.nil_append, List.append_nil, List.append_nil, htext, hvalue, Numeral.value_ofNat] at hread
  exact hread

/-- A written line is one line. -/
theorem isLineBreak_of_mem_writeLine {known : String × Severity} (hk : known ∈ severities) {path : String}
    (hpath : ∀ c ∈ path.toList, Text.isLineBreak c = false) (line : Nat) (column : Option Nat) {message : String}
    (hmessage : ∀ c ∈ message.toList, Text.isLineBreak c = false) {c : Char}
    (hc : c ∈ (writeLine known.1 (some path) (toString line) (column.map toString) message).toList) :
    Text.isLineBreak c = false := by
  have hword : ∀ c ∈ known.1.toList, Text.isLineBreak c = false := by
    simp only [severities, List.mem_cons, List.not_mem_nil, or_false] at hk
    rcases hk with rfl | rfl | rfl | rfl | rfl <;> simp [Text.isLineBreak]
  have hdigits (n : Nat) : ∀ c ∈ (toString n).toList, Text.isLineBreak c = false := by
    intro c hc
    exact of_decide_eq_true
      (of_isDigit (p := fun c => Text.isLineBreak c = false) (by decide) (isDigit_of_mem_toString hc))
  have hbehind : ∀ c ∈ columnText (column.map toString), Text.isLineBreak c = false := by
    intro c hc
    cases column with
    | none => exact absurd hc List.not_mem_nil
    | some n =>
        have hlabel : ∀ c ∈ ", column ".toList, Text.isLineBreak c = false := by simp [Text.isLineBreak]
        rcases List.mem_append.mp hc with hc | hc
        · exact hlabel c hc
        · exact hdigits n c hc
  have hlabel : ∀ c ∈ "line ".toList, Text.isLineBreak c = false := by simp [Text.isLineBreak]
  rw [toList_writeLine] at hc
  simp only [pathText, Option.elim_some, List.mem_append, List.mem_cons, List.not_mem_nil, or_false] at hc
  rcases hc with hc | rfl | rfl | (rfl | hc | rfl | rfl) | hc | hc | hc | rfl | rfl | hc
  · exact hword c hc
  · rfl
  · rfl
  · rfl
  · exact hpath c hc
  · rfl
  · rfl
  · exact hlabel c hc
  · exact hdigits line c hc
  · exact hbehind c hc
  · rfl
  · rfl
  · exact hmessage c hc

end Report

/-! ## Lines of a report -/

namespace Text

theorem splitLinesFrom_cons {c : Char} (h : isLineBreak c = false) (current : List Char) (started : Bool)
    (cs : List Char) : splitLinesFrom current started (c :: cs) = splitLinesFrom (c :: current) true cs := by
  have hreturn : c ≠ '\r' := by
    rintro rfl
    exact absurd h (by decide)
  rw [splitLinesFrom, if_neg (by simp [h])]
  exact fun rest hc _ => hreturn hc

theorem splitLinesFrom_of_no_break {cs : List Char} (h : ∀ c ∈ cs, isLineBreak c = false) (current : List Char) :
    splitLinesFrom current true cs = [current.reverse ++ cs] := by
  induction cs generalizing current with
  | nil => simp [splitLinesFrom]
  | cons c cs ih =>
      rw [splitLinesFrom_cons (h c List.mem_cons_self), ih fun c' hc' => h c' (List.mem_cons_of_mem c hc')]
      simp

/-- A text without line ends is one line. -/
theorem splitLines_of_no_break {cs : List Char} (hne : cs ≠ []) (h : ∀ c ∈ cs, isLineBreak c = false) :
    splitLines cs = [cs] := by
  cases cs with
  | nil => exact absurd rfl hne
  | cons c cs =>
      rw [splitLines, splitLinesFrom_cons (h c List.mem_cons_self),
        splitLinesFrom_of_no_break fun c' hc' => h c' (List.mem_cons_of_mem c hc')]
      rfl

end Text

namespace CompilerReport

variable {naming : Naming} {root mirror entry : Path}

theorem findings_singleton {line : List Char} {e : Report.Entry} {d : AddressedDiagnostic}
    (hparse : Report.parseLine line mirror entry = .ok (some e)) (hd : Entry.toDiagnostic naming root e = .ok d) :
    findings naming root mirror entry [line] = .ok [d] :=
  bind_eq_ok_iff.mpr ⟨some e, mapError_eq_ok_iff.mpr hparse, bind_eq_ok_iff.mpr ⟨d, hd, rfl⟩⟩

/-- What was translated without a failure is what the lines of the report are. -/
theorem findings_of_diagnostics {report : CompilerReport} {ds : List AddressedDiagnostic}
    (h : report.diagnostics naming root = .ok ds) :
    findings naming root report.mirror report.entry (Text.splitLines report.output.toList) = .ok ds := by
  obtain ⟨ds', hfindings, h⟩ := bind_eq_ok_iff.mp h
  split at h
  · cases h
  · cases h
    exact hfindings

theorem exists_mem_of_forall₂ {α β : Type} {r : α → β → Prop} {as : List α} {bs : List β} (h : List.Forall₂ r as bs)
    {a : α} (ha : a ∈ as) : ∃ b ∈ bs, r a b := by
  induction h with
  | nil => exact absurd ha List.not_mem_nil
  | cons hr _ ih =>
      rcases List.mem_cons.mp ha with rfl | ha
      · exact ⟨_, List.mem_cons_self, hr⟩
      · obtain ⟨b, hb, hrb⟩ := ih ha
        exact ⟨b, List.mem_cons_of_mem _ hb, hrb⟩

/-- A line that can be read has its diagnostic in every report that is translated. -/
theorem mem_of_findings {lines : List (List Char)} {ds : List AddressedDiagnostic}
    (h : findings naming root mirror entry lines = .ok ds) {line : List Char} (hm : line ∈ lines) {e : Report.Entry}
    {d : AddressedDiagnostic} (hparse : Report.parseLine line mirror entry = .ok (some e))
    (hd : Entry.toDiagnostic naming root e = .ok d) : d ∈ ds := by
  cases hf : recognize? mirror entry line with
  | none =>
      rw [parseLine_of_recognize?_none hf] at hparse
      cases hparse
  | some f =>
      have hmem : f ∈ lines.filterMap (recognize? mirror entry) := List.mem_filterMap.mpr ⟨line, hm, hf⟩
      obtain ⟨d', hd', e', he', hpresented⟩ := exists_mem_of_forall₂ (findings_eq_ok_iff_presented.mp h) hmem
      rw [(parseLine_of_recognize?_some hf).2, he'] at hparse
      cases hparse
      cases hd.symm.trans hpresented
      exact hd'

/-! ## Back to the path -/

/-- The diagnostic is addressed to a path: its URI names the path, and is one that the client uses if the
client has a document of that path open. -/
structure IsAddressedTo (documents : Documents) (path : Path) (d : AddressedDiagnostic) : Prop where
  names : Uri.toPath d.uri = .ok path
  opened : (∃ t ∈ documents.tracked.values, Uri.toPath t.uri = .ok path) →
    ∃ t ∈ documents.tracked.values, Uri.toPath t.uri = .ok path ∧ d.uri = t.uri

/-- The diagnostic marks the rest of a line, counted from one, behind a column if there is one. -/
structure Marks (line : Nat) (column : Option Nat) (d : Diagnostic) : Prop where
  start : d.range.start.line = line - 1 ∧ d.range.start.character = column.getD 1 - 1
  stop : d.range.stop.line = line ∧ d.range.stop.character = 0

theorem exists_uriForPath {documents : Documents} (hd : documents.Known) {path : Path} (hp : path.start = .root)
    (hdrive : Uri.startsWithDrive path.text.toList = false) :
    ∃ uri, documents.uriForPath path = .ok uri ∧ Uri.toPath uri = .ok path ∧
      ((∃ t ∈ documents.tracked.values, Uri.toPath t.uri = .ok path) →
        ∃ t ∈ documents.tracked.values, Uri.toPath t.uri = .ok path ∧ uri = t.uri) := by
  have hdecode : ∀ t ∈ documents.tracked.values, Uri.toPath t.uri = .ok t.path := by
    intro t ht
    obtain ⟨e, he, rfl⟩ := List.mem_map.mp ht
    rw [(hd e he).1]
    exact (hd e he).2
  by_cases hopen : ∃ t ∈ documents.tracked.values, t.path = path
  · obtain ⟨t, ht, hpath, hnamed, hback⟩ := hd.uriForPath_of_open hopen
    exact ⟨t.uri, hnamed, hback, fun _ => ⟨t, ht, hback, rfl⟩⟩
  · obtain ⟨uri, huri, hback⟩ := Uri.toPath_ofPath_of_root hp hdrive
    refine ⟨uri, (Documents.uriForPath_of_not_open hopen).trans huri, hback, ?_⟩
    rintro ⟨t, ht, htp⟩
    exact absurd ⟨t, ht, Except.ok.inj ((hdecode t ht).symm.trans htp)⟩ hopen

theorem text_ne_empty {relative mirror written : Path} (hr : relative.IsInner)
    (h : written = relative ∨ written = mirror / relative) : written.text ≠ "" := by
  apply Path.text_ne_empty
  rcases h with rfl | rfl
  · exact hr.ne_nil
  · rw [Path.segments_join hr.start]
    exact List.append_ne_nil_of_right_ne_nil _ hr.ne_nil

theorem exists_toDiagnostic_of_naming (e : Report.Entry) {uri : String} (hu : naming (root / e.path) = .ok uri)
    (hline : 1 ≤ e.line ∧ e.line ≤ maxPosition) (hcolumn : ∀ n ∈ e.column, n ≤ maxPosition + 1) :
    ∃ d, Entry.toDiagnostic naming root e = .ok d ∧ d.uri = uri ∧ Marks e.line e.column d.diagnostic ∧
      d.diagnostic.severity = some e.severity := by
  have hlast : e.line - 1 + 1 = e.line := Nat.sub_add_cancel hline.1
  have hcharacter : e.column.getD 1 - 1 ≤ maxPosition := by
    cases hc : e.column with
    | none => exact Nat.zero_le _
    | some n => exact Nat.sub_le_of_le_add (hcolumn n hc)
  let range : Range := ⟨⟨e.line - 1, _, (Nat.sub_le _ 1).trans hline.2, hcharacter⟩,
    ⟨e.line - 1 + 1, 0, hlast.le.trans hline.2, Nat.zero_le _⟩⟩
  refine ⟨⟨uri, range, e.message, some e.severity, some source⟩, ?_, rfl, ⟨⟨rfl, rfl⟩, hlast, rfl⟩, rfl⟩
  exact Entry.toDiagnostic_eq_ok_iff.mpr ⟨hu, ⟨⟨rfl, rfl⟩, rfl, rfl⟩, rfl, rfl, rfl⟩

/-- A line that names a file of the mirror, relatively or as an absolute path, becomes a diagnostic of the
file of the workspace that it was copied from: alone in the report, and in every report that is
translated. -/
theorem written_line_leads_back_to_path {documents : Documents} (hdocuments : documents.Arises)
    {root mirror relative written : Path} (hroot : root.start = .root) (hmirror : mirror.start = .root)
    (hrelative : relative.IsInner) (hdrive : Uri.startsWithDrive (root / relative).text.toList = false)
    (hwritten : written = relative ∨ written = mirror / relative)
    (hplain : ∀ c ∈ written.text.toList, c ≠ '\'' ∧ Text.isLineBreak c = false)
    {known : String × Severity} (hknown : known ∈ Report.severities)
    {line : Nat} (hline : 1 ≤ line ∧ line ≤ maxPosition)
    {column : Option Nat} (hcolumn : ∀ n ∈ column, 1 ≤ n ∧ n ≤ maxPosition + 1)
    {message : String} (hmessage : ∀ c ∈ message.toList, Text.isLineBreak c = false) (entry : Path) :
    let text := Report.writeLine known.1 (some written.text) (toString line) (column.map toString) message
    ∃ d : AddressedDiagnostic, IsAddressedTo documents (root / relative) d ∧ Marks line column d.diagnostic ∧
      d.diagnostic.severity = some known.2 ∧
      (∀ status, diagnostics ⟨text, status, entry, mirror⟩ documents.uriForPath root = .ok [d]) ∧
      ∀ report : CompilerReport, report.mirror = mirror → text.toList ∈ Text.splitLines report.output.toList →
        ∀ ds, report.diagnostics documents.uriForPath root = .ok ds → d ∈ ds := by
  intro text
  have hquote : '\'' ∉ written.text.toList := fun hmem => (hplain _ hmem).1 rfl
  have hbreak : ∀ c ∈ written.text.toList, Text.isLineBreak c = false := fun c hc => (hplain c hc).2
  have hnewline : '\n' ∉ message.toList := fun hmem => absurd (hmessage _ hmem) (by decide)
  have hbelow : (root / relative).start = .root := (Path.start_join hrelative.start).trans hroot
  obtain ⟨uri, hnaming, hback, hopened⟩ := exists_uriForPath hdocuments.known hbelow hdrive
  have hparse (entry : Path) : Report.parseLine text.toList mirror entry =
      .ok (some ⟨known.2, relative, line, column, Report.shownMessage known.1 message⟩) := by
    apply Report.parseLine_writeLine hknown (text_ne_empty hrelative hwritten) hquote
    · exact Report.locate_of_isInner hrelative (by simp [Path.isAbsolute, hmirror]) hwritten entry
    · exact hline.2.trans (Nat.le_succ _)
    · exact fun n hn => (hcolumn n hn).2
    · exact hnewline
  obtain ⟨d, hd, huri, hmarks, hseverity⟩ :=
    exists_toDiagnostic_of_naming ⟨known.2, relative, line, column, Report.shownMessage known.1 message⟩ hnaming
      hline fun n hn => (hcolumn n hn).2
  refine ⟨d, ⟨?_, ?_⟩, hmarks, hseverity, ?_, ?_⟩
  · rw [huri]
    exact hback
  · rw [huri]
    exact hopened
  · intro status
    have hlines : Text.splitLines text.toList = [text.toList] := by
      apply Text.splitLines_of_no_break
      · rw [Report.toList_writeLine]
        simp
      · exact fun c hc => Report.isLineBreak_of_mem_writeLine hknown hbreak line column hmessage hc
    unfold diagnostics
    rw [hlines]
    exact bind_eq_ok_iff.mpr ⟨[d], findings_singleton (hparse entry) hd, rfl⟩
  · intro report hreport hmem ds hds
    exact mem_of_findings (findings_of_diagnostics hds) hmem (hreport ▸ hparse report.entry) hd

/-- A client has a document open whose URI it escapes in lower case. -/
def accentedOpen : Documents :=
  match Documents.open_ {} ⟨"file:///story/caf%c3%a9%20%231.ink", 1, "Hello.\n"⟩ with
  | .ok (_, documents) => documents
  | .error _ => {}

theorem arises_accentedOpen : accentedOpen.Arises := by
  unfold accentedOpen
  split
  · rename_i ho
    exact .opened .none ho
  · exact .none

/-- The line names the file by its place in the mirror, and the client is told about its own document. -/
theorem accented_file_leads_back_to_open_document :
    ∃ d : AddressedDiagnostic, Uri.toPath d.uri = .ok (.ofText "/story/café #1.ink") ∧
      d.uri = "file:///story/caf%c3%a9%20%231.ink" ∧ Marks 12 (some 3) d.diagnostic ∧
      diagnostics ⟨"ERROR: '/mirrors/inkls-1/café #1.ink' line 12, column 3: bad", 1, .ofText "main.ink",
        .ofText "/mirrors/inkls-1"⟩ accentedOpen.uriForPath (.ofText "/story") = .ok [d] := by
  let root := Path.ofText "/story"
  let mirror := Path.ofText "/mirrors/inkls-1"
  let relative := Path.ofText "café #1.ink"
  have hplain : ∀ c ∈ (mirror / relative).text.toList, c ≠ '\'' ∧ Text.isLineBreak c = false := by
    have hall : ((mirror / relative).text.toList.all fun c => c ≠ '\'' && !Text.isLineBreak c) = true := by
      decide +kernel
    intro c hc
    simpa using List.all_eq_true.mp hall c hc
  have hmessage : ∀ c ∈ "bad".toList, Text.isLineBreak c = false := by simp [Text.isLineBreak]
  obtain ⟨d, haddressed, hmarks, -, hreport, -⟩ :=
    @written_line_leads_back_to_path accentedOpen arises_accentedOpen root mirror relative _ (by decide) (by decide)
      ⟨by decide, by decide, by decide⟩ (by decide +kernel) (.inr rfl) hplain ("ERROR", .error) (by decide)
      12 (by decide) (some 3) (by decide) "bad" hmessage (.ofText "main.ink")
  have hpath : root / relative = .ofText "/story/café #1.ink" := by decide +kernel
  have huris : accentedOpen.tracked.values.map (·.uri) = ["file:///story/caf%c3%a9%20%231.ink"] := by decide +kernel
  have hdecode : Uri.toPath "file:///story/caf%c3%a9%20%231.ink" = .ok (root / relative) := by decide +kernel
  have hline : Report.writeLine "ERROR" (some (mirror / relative).text) (toString 12) ((some 3).map toString) "bad" =
      "ERROR: '/mirrors/inkls-1/café #1.ink' line 12, column 3: bad" := by decide +kernel
  refine ⟨d, hpath ▸ haddressed.names, ?_, hmarks, ?_⟩
  · obtain ⟨t, ht, htu⟩ := List.mem_map.mp (huris ▸ List.mem_singleton_self "file:///story/caf%c3%a9%20%231.ink")
    obtain ⟨t', ht', -, hd⟩ := haddressed.opened ⟨t, ht, htu ▸ hdecode⟩
    have hmem := List.mem_map_of_mem (f := TrackedDocument.uri) ht'
    rw [huris] at hmem
    rw [hd]
    exact List.mem_singleton.mp hmem
  · rw [hline] at hreport
    exact hreport 1

end CompilerReport

end InkServer
