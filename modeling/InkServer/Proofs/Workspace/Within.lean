import InkServer.Proofs.Diagnostic.RoundTrip
import InkServer.Proofs.Workspace.Replacement

/-!
# Diagnostics stay inside the workspace

What a workspace publishes should be about files inside its folder. A path in a report is looked at before it
is used, and one that leads out of the mirror is passed over. Not looked at are a path that is the mirror
itself, written relatively, and the entry path, which stands for a line without a path and for a report
without findings. The main statement says that these are the only ways out.
-/

namespace InkServer

/-! ## What lies inside, whatever the names of drives -/

namespace Path

theorem normalized_congr {p q : Path} (h : p.absolute = q.absolute) : p.normalized = q.normalized := by
  unfold normalized
  simp only [h]

theorem isInside_congr {p q : Path} (h : p.absolute = q.absolute) (root : Path) :
    p.isInside root = q.isInside root := by
  have hrelative : p.relativeTo? root = q.relativeTo? root := by
    apply Option.ext
    intro relative
    rw [relativeTo?_eq_some_iff, relativeTo?_eq_some_iff, normalized_congr h]
  rw [isInside, isInside, hrelative]

/-- What leads inwards from a root lies inside. -/
theorem isInside_join {relative : Path} (h : relative.IsInner) (root : Path) : (root / relative).isInside root = true :=
  isInside_iff.mpr ⟨relative, relativeTo?_join h root⟩

theorem not_isInside_self (p : Path) : p.isInside p = false := by
  rw [← Bool.not_eq_true, isInside_iff]
  rintro ⟨relative, h⟩
  obtain ⟨-, hsegments, -, hne⟩ := relativeTo?_eq_some_iff.mp h
  exact hne (by simpa using hsegments)

theorem lowerSegment_ne_up {s : String} (h : s ≠ "..") : lowerSegment s ≠ ".." := by
  unfold lowerSegment Uri.lowerDrive
  split
  · split
    · simp [← String.toList_inj]
    · simpa using h
  · simpa using h

theorem mem_modifyHead {names : List String} {s : String} (h : s ∈ names.modifyHead lowerSegment) :
    s ∈ names ∨ ∃ t ∈ names, s = lowerSegment t := by
  cases names with
  | nil => exact absurd h List.not_mem_nil
  | cons t rest =>
      rcases List.mem_cons.mp h with rfl | h
      · exact .inr ⟨t, List.mem_cons_self, rfl⟩
      · exact .inl (List.mem_cons_of_mem t h)

/-- Names that were written as they are named lead inwards like those they were. -/
theorem exists_isInner_of_lowered {relative : Path} (h : relative.IsInner) (j : Nat) :
    ∃ named : Path, named.IsInner ∧ named.segments =
      relative.segments.take j ++ (relative.segments.drop j).modifyHead lowerSegment := by
  have hmem : ∀ s ∈ relative.segments.take j ++ (relative.segments.drop j).modifyHead lowerSegment,
      s ∈ relative.segments ∨ ∃ t ∈ relative.segments, s = lowerSegment t := by
    intro s hs
    rcases List.mem_append.mp hs with hs | hs
    · exact .inl (List.mem_of_mem_take hs)
    · rcases mem_modifyHead hs with hs | ⟨t, ht, hst⟩
      · exact .inl (List.mem_of_mem_drop hs)
      · exact .inr ⟨t, List.mem_of_mem_drop ht, hst⟩
  have hvalid : ∀ s ∈ relative.segments.take j ++ (relative.segments.drop j).modifyHead lowerSegment,
      IsSegment s := by
    intro s hs
    rcases hmem s hs with hs | ⟨t, ht, rfl⟩
    · exact relative.valid s hs
    · exact isSegment_lowerSegment (relative.valid t ht)
  refine ⟨⟨.relative, _, hvalid⟩, ⟨rfl, ?_, ?_⟩, rfl⟩
  · intro hnil
    have hlength := congrArg List.length hnil
    have hne := List.length_pos_iff.mpr h.ne_nil
    simp only [List.length_append, List.length_take, List.length_modifyHead, List.length_drop,
      List.length_nil] at hlength
    omega
  · intro hup
    rcases hmem ".." hup with hs | ⟨t, ht, hst⟩
    · exact h.noUp hs
    · exact lowerSegment_ne_up (fun he => h.noUp (he ▸ ht)) hst.symm

/-- A root that is named as it is written is where its files are named as well. -/
theorem exists_asNamed_join {root relative : Path} (hroot : root.asNamed = root) (h : relative.IsInner) :
    ∃ named : Path, named.IsInner ∧ (root / relative).asNamed = root / named := by
  have hstart := start_join (p := root) h.start
  have hsegments := segments_join (p := root) h.start
  generalize hk : (if root.start = .doubleRoot then 1 else 0) = k
  have hnamed : (root / relative).asNamed.segments = (root.segments ++ relative.segments).take k ++
      ((root.segments ++ relative.segments).drop k).modifyHead lowerSegment := by
    rw [← hk, ← hsegments, ← hstart]
    rfl
  have hkept : root.segments.take k ++ (root.segments.drop k).modifyHead lowerSegment = root.segments := by
    rw [← hk]
    exact congrArg segments hroot
  have hjoin (named : Path) (hn : named.IsInner)
      (hs : (root / relative).asNamed.segments = root.segments ++ named.segments) :
      (root / relative).asNamed = root / named :=
    eq_of_segments (hstart.trans (start_join hn.start).symm) (hs.trans (segments_join hn.start).symm)
  rw [List.take_append, List.drop_append] at hnamed
  cases hdrop : root.segments.drop k with
  | nil =>
      obtain ⟨named, hn, hs⟩ := exists_isInner_of_lowered h (k - root.segments.length)
      refine ⟨named, hn, hjoin named hn ?_⟩
      rw [hdrop, List.modifyHead_nil, List.append_nil] at hkept
      rw [hdrop, hkept, List.nil_append] at hnamed
      rw [hnamed, hs, List.append_assoc]
  | cons s rest =>
      have hlength : k - root.segments.length = 0 := by
        have hpos := congrArg List.length hdrop
        rw [List.length_drop, List.length_cons] at hpos
        omega
      refine ⟨relative, h, hjoin relative h ?_⟩
      rw [hdrop] at hkept
      rw [hnamed, hlength, hdrop, List.take_zero, List.append_nil, List.drop_zero, List.cons_append,
        List.modifyHead_cons, ← List.cons_append, ← List.append_assoc]
      exact congrArg (· ++ relative.segments) hkept

end Path

/-- A URI names something strictly inside a folder. -/
def Uri.IsInside (root : Path) (uri : String) : Prop := ∃ path, Uri.toPath uri = .ok path ∧ path.isInside root = true

/-! ## Names of documents -/

namespace Documents

variable {documents : Documents} {path root : Path} {uri : String}

/-- The URI of a path names the path, or what the path is named as. -/
theorem Known.exists_toPath (h : documents.Known) (hu : documents.uriForPath path = .ok uri) :
    ∃ named, Uri.toPath uri = .ok named ∧ (named = path ∨ named.absolute = path.asNamed.absolute) := by
  by_cases hopen : ∃ t ∈ documents.tracked.values, t.path = path
  · obtain ⟨t, _, _, hnaming, hback⟩ := h.uriForPath_of_open hopen
    rw [hu] at hnaming
    cases hnaming
    exact ⟨path, hback, .inl rfl⟩
  · rw [uriForPath_of_not_open hopen] at hu
    obtain ⟨named, hnamed, habsolute⟩ := Uri.toPath_of_ofPath hu
    exact ⟨named, hnamed, .inr habsolute⟩

/-- A path and its name are on the same side of a folder: so is its URI. -/
theorem Known.isInside_iff (h : documents.Known) (hu : documents.uriForPath path = .ok uri)
    (hsame : path.asNamed.isInside root = path.isInside root) : Uri.IsInside root uri ↔ path.isInside root = true := by
  obtain ⟨named, hback, hnamed⟩ := h.exists_toPath hu
  have hinside : named.isInside root = path.isInside root := by
    rcases hnamed with rfl | habsolute
    · rfl
    · rw [Path.isInside_congr habsolute, hsame]
  constructor
  · rintro ⟨q, hq, hin⟩
    rw [hback] at hq
    cases hq
    rw [← hinside]
    exact hin
  · intro hin
    exact ⟨named, hback, hinside.trans hin⟩

end Documents

/-! ## Reports -/

namespace CompilerReport

/-- What keeps the diagnostics of a report inside: no line names the mirror itself, and where the entry file
stands for what is not named, it lies inside. -/
structure StaysInside (report : CompilerReport) (root : Path) : Prop where
  named : ∀ f ∈ report.recognized, f.parts.path.isSome → f.path.segments ≠ []
  unnamed : (∃ f ∈ report.recognized, f.parts.path = none) ∨ (report.recognized = [] ∧ report.exitStatus ≠ 0) →
    (root / report.entry).isInside root = true

variable {report : CompilerReport} {f : Recognized} {root : Path}

theorem path_of_mem_recognized (h : f ∈ report.recognized) :
    (f.parts.path = none ∧ f.path = report.entry) ∨
      (f.parts.path.isSome ∧ f.path.start = .relative ∧ ".." ∉ f.path.segments) := by
  obtain ⟨line, _, hf⟩ := List.mem_filterMap.mp h
  unfold recognize? at hf
  simp only [Option.bind_eq_bind, Option.bind_eq_some_iff, Option.some.injEq] at hf
  obtain ⟨parts, _, path, hpath, rfl⟩ := hf
  show (parts.path = none ∧ path = report.entry) ∨ (parts.path.isSome ∧ path.start = .relative ∧ ".." ∉ path.segments)
  cases hp : parts.path with
  | none =>
      rw [hp] at hpath
      cases hpath
      exact .inl ⟨rfl, rfl⟩
  | some written =>
      rw [hp] at hpath
      obtain ⟨hrelative, hup⟩ := Option.filter_eq_some_iff.mp hpath
      refine .inr ⟨rfl, ?_, of_decide_eq_true hup⟩
      split at hrelative
      · exact (Path.isInner_of_relativeTo? hrelative).start
      · rename_i habsolute
        cases hrelative
        simpa [Path.isAbsolute] using habsolute

/-- A line that names a path is shown inside unless the path is the mirror itself. -/
theorem isInside_of_named (hroot : root.asNamed = root) (hstart : f.path.start = .relative)
    (hup : ".." ∉ f.path.segments) :
    (root / f.path).asNamed.isInside root = (root / f.path).isInside root ∧
      ((root / f.path).isInside root = true ↔ f.path.segments ≠ []) := by
  by_cases hnil : f.path.segments = []
  · have hself : root / f.path = root := by
      apply Path.eq_of_segments (Path.start_join hstart)
      rw [Path.segments_join hstart, hnil, List.append_nil]
    rw [hself, hroot, Path.not_isInside_self]
    simp [hnil]
  · have hinner : f.path.IsInner := ⟨hstart, hnil, hup⟩
    obtain ⟨named, hn, hnamed⟩ := Path.exists_asNamed_join hroot hinner
    rw [hnamed, Path.isInside_join hn, Path.isInside_join hinner]
    simp [hnil]

variable {naming : Naming} {ds : List AddressedDiagnostic}

/-- Only a report as a whole can be refused. -/
theorem findings_ne_unrecognized {mirror entry : Path} {lines : List (List Char)} {u : Unrecognized} :
    findings naming root mirror entry lines ≠ .error (.unrecognized u) := by
  induction lines with
  | nil => exact fun h => by cases h
  | cons line rest ih =>
      intro h
      rw [findings] at h
      rcases bind_eq_error_iff.mp h with h | ⟨found, _, h⟩
      · exact absurd h (mapError_ne fun _ he => by cases he)
      · cases found with
        | none => exact ih h
        | some e =>
            rcases bind_eq_error_iff.mp h with h | ⟨d, _, h⟩
            · unfold Entry.toDiagnostic at h
              rcases bind_eq_error_iff.mp h with h | ⟨_, _, h⟩
              · exact absurd h (mapError_ne fun _ he => by cases he)
              · rcases bind_eq_error_iff.mp h with h | ⟨_, _, h⟩
                · exact absurd h (mapError_ne fun _ he => by cases he)
                · cases h
            · rcases bind_eq_error_iff.mp h with h | ⟨_, _, h⟩
              · exact ih h
              · cases h

/-- What a report is shown as: its recognized lines, or one diagnostic that stands for a refused report. -/
theorem shown_cases (h : report.shown naming root = .ok ds) :
    ((report.recognized = [] → report.exitStatus = 0) ∧
        List.Forall₂ (fun f d => f.IsPresentedAs naming root d) report.recognized ds) ∨
      (report.recognized = [] ∧ report.exitStatus ≠ 0 ∧
        ∃ d, ds = [d] ∧ naming (root / report.entry) = .ok d.uri) := by
  unfold shown at h
  split at h
  · rename_i hd
    cases h
    have hpresented := findings_eq_ok_iff_presented.mp (findings_of_diagnostics hd)
    refine .inl ⟨fun hnone => ?_, hpresented⟩
    change List.Forall₂ _ report.recognized ds at hpresented
    rw [hnone, List.forall₂_nil_left_iff] at hpresented
    exact Decidable.not_not.mp fun hx => ne_nil_of_diagnostics hd hx hpresented
  · rename_i u hd
    unfold diagnostics at hd
    rcases bind_eq_error_iff.mp hd with hd | ⟨found, hfound, hd⟩
    · exact absurd hd findings_ne_unrecognized
    · split at hd
      · rename_i hrefused
        rw [Bool.and_eq_true, List.isEmpty_iff, bne_iff_ne] at hrefused
        have hpresented := findings_eq_ok_iff_presented.mp hfound
        rw [hrefused.1, List.forall₂_nil_right_iff] at hpresented
        refine .inr ⟨hpresented, hrefused.2, ?_⟩
        unfold Unrecognized.toDiagnostic at h
        cases hu : naming (root / report.entry) with
        | error e =>
            rw [hu] at h
            cases h
        | ok uri =>
            rw [hu] at h
            cases h
            exact ⟨_, rfl, rfl⟩
      · cases hd
  · cases h

/-- The diagnostics that a report is shown as are inside exactly if nothing in the report leads out. -/
theorem shown_inside_iff {documents : Documents} (hd : documents.Known) (hroot : root.asNamed = root)
    (hentry : (root / report.entry).asNamed = root / report.entry)
    (h : report.shown documents.uriForPath root = .ok ds) :
    (∀ d ∈ ds, Uri.IsInside root d.uri) ↔ report.StaysInside root := by
  have hunnamed {uri : String} (hu : documents.uriForPath (root / report.entry) = .ok uri) :
      Uri.IsInside root uri ↔ (root / report.entry).isInside root = true :=
    hd.isInside_iff hu (by rw [hentry])
  rcases shown_cases h with ⟨hexit, hpresented⟩ | ⟨hnone, hexit, d, rfl, hu⟩
  · have hline {f : Recognized} {d : AddressedDiagnostic} (hf : f ∈ report.recognized)
        (hfd : f.IsPresentedAs documents.uriForPath root d) :
        Uri.IsInside root d.uri ↔ (f.parts.path.isSome → f.path.segments ≠ []) ∧
          (f.parts.path = none → (root / report.entry).isInside root = true) := by
      obtain ⟨e, he, hfd⟩ := hfd
      have hu := (Entry.toDiagnostic_eq_ok_iff.mp hfd).1
      rw [(Recognized.read_eq_ok_iff.mp he).2.2.2.1] at hu
      rcases path_of_mem_recognized hf with ⟨hnone, hpath⟩ | ⟨hsome, hstart, hup⟩
      · rw [hpath] at hu
        rw [hunnamed hu]
        simp [hnone]
      · obtain ⟨hsame, hiff⟩ := isInside_of_named hroot hstart hup
        rw [hd.isInside_iff hu hsame, hiff]
        simp [hsome, Option.ne_none_iff_isSome.mpr hsome]
    constructor
    · intro hall
      refine ⟨fun f hf hsome => ?_, ?_⟩
      · obtain ⟨d, hmem, hfd⟩ := exists_mem_of_forall₂ hpresented hf
        exact ((hline hf hfd).mp (hall d hmem)).1 hsome
      · rintro (⟨f, hf, hnone⟩ | ⟨hnone, hx⟩)
        · obtain ⟨d, hmem, hfd⟩ := exists_mem_of_forall₂ hpresented hf
          exact ((hline hf hfd).mp (hall d hmem)).2 hnone
        · exact absurd (hexit hnone) hx
    · intro hstays d hmem
      obtain ⟨f, hf, hfd⟩ := exists_mem_of_forall₂ hpresented.flip hmem
      exact (hline hf hfd).mpr ⟨hstays.named f hf, fun hnone => hstays.unnamed (.inl ⟨f, hf, hnone⟩)⟩
  · have hall : (∀ d' ∈ [d], Uri.IsInside root d'.uri) ↔ Uri.IsInside root d.uri := by simp
    rw [hall, hunnamed hu]
    constructor
    · intro hin
      refine ⟨fun f hf => ?_, fun _ => hin⟩
      rw [hnone] at hf
      exact absurd hf List.not_mem_nil
    · exact fun hstays => hstays.unnamed (.inr ⟨hnone, hexit⟩)

end CompilerReport
/-! ## What is published -/

namespace Delivery

open ServerState ServerAct

variable {l : Loop ServerState Operation} {id : WorkspaceId} {w : Workspace} {outcome : CompileOutcome CompilerReport}
  {report : CompilerReport} {n : Nat}

/-- What a delivery tells of a document that it has diagnostics of: the document is on the list of the workspace. -/
theorem delivering_tells (s : ServerState) (id : WorkspaceId) (w : Workspace) (request : CompileRequest)
    (report : CompilerReport) (notices : List Notice) (ds : List AddressedDiagnostic) :
    ∃ record, (s.delivering id w request report notices ds).events = s.events ++ record ∧
      ∀ e ∈ record, ∀ uri items, e.told? uri = some items → items ≠ [] → uri ∈ ds.map (·.uri) := by
  obtain ⟨published, hevents, htold, -⟩ := publishingAll_tells
    { s with events := s.events ++ .reported id request report :: notices.map .noticed } (replacements w ds)
  refine ⟨(.reported id request report :: notices.map .noticed) ++ (published ++ [.delivered id request ds.length]),
    ?_, ?_⟩
  · unfold delivering
    rw [moved_events, hevents]
    simp only [List.append_assoc]
  · intro e hm uri items htell hne
    rcases List.mem_append.mp hm with hm | hm
    · rw [Event.told?_of_isPublication (not_isPublication_of_mem_reported e hm)] at htell
      cases htell
    · rcases List.mem_append.mp hm with hm | hm
      · rw [mem_replacements ((htold e hm).2.2 uri items htell)] at hne
        exact findingsFor_ne_nil_iff.mp hne
      · rw [List.mem_singleton.mp hm] at htell
        cases htell

/-- What a workspace publishes of a report is about files inside its folder exactly if no line of the report
names the mirror itself and the entry file, where it is spoken of without a name, lies inside. The entry file
of a document of the workspace always does. -/
theorem published_inside_iff (hd : l.state.documents.Arises) (hw : l.state.workspaces[id]? = some w)
    (hstate : w.state ≠ .removed) (he : outcome.error = none) (hr : outcome.result = some report)
    (hroot : w.root.asNamed = w.root) (hentry : (w.root / report.entry).asNamed = w.root / report.entry)
    (hok : (deliver id outcome).returns l = .ok n) :
    ∃ w' record, ((deliver id outcome).leaves l).state.workspaces[id]? = some w' ∧
      ((deliver id outcome).leaves l).state.events = l.state.events ++ record ∧
      (∀ e ∈ record, ∀ uri items, e.told? uri = some items → items ≠ [] → uri ∈ w'.published) ∧
      ((∀ uri ∈ w'.published, Uri.IsInside w.root uri) ↔ report.StaysInside w.root) ∧
      ∀ path : Path, path.relativeTo? w.root = some report.entry → (w.root / report.entry).isInside w.root = true := by
  obtain ⟨notices, ⟨_, -, hfails, -⟩ | ⟨ds, hshown, -, hleaves⟩⟩ := deliver_eq outcome he hr hw hstate
  · rw [hok] at hfails
    cases hfails
  · obtain ⟨record, hevents, htold⟩ := delivering_tells l.state id w outcome.request report notices ds
    have hinside := CompilerReport.shown_inside_iff hd.known hroot hentry hshown
    refine ⟨{ w with published := (groupByUri ds).keys }, record, ?_, ?_, ?_, ?_, ?_⟩
    · rw [hleaves]
      show (l.state.delivering id w outcome.request report notices ds).workspaces[id]? = _
      unfold delivering
      rw [moved_workspaces, List.getElem?_set_self (List.getElem?_eq_some_iff.mp hw).1]
    · rw [hleaves]
      exact hevents
    · intro e hm uri items htell hne
      exact mem_keys_groupByUri.mpr (htold e hm uri items htell hne)
    · rw [← hinside]
      constructor
      · intro hall d hmem
        exact hall d.uri (mem_keys_groupByUri.mpr (List.mem_map_of_mem hmem))
      · intro hall uri hmem
        obtain ⟨d, hd, hu⟩ := List.mem_map.mp (mem_keys_groupByUri.mp hmem)
        rw [← hu]
        exact hall d hd
    · intro path hpath
      exact Path.isInside_join (Path.isInner_of_relativeTo? hpath) w.root

/-- The workspace of the one folder. -/
theorem workspace_oneFolder : ∃ w, oneFolder.state.workspaces[0]? = some w ∧ w.root = .ofText "/p" ∧ w.state ≠ .removed :=
  ⟨_, rfl, rfl, by decide⟩

/-- A report about an included file and, without a name, about the entry file. -/
def includedFile : String := "WARNING: 'a/b.ink' line 2: dull\nERROR: line 1: bad"

theorem count_includedFile :
    ((deliver 0 (outcomeOf "main.ink" includedFile 1)).returns oneFolder).toOption = some 2 := by
  decide +kernel

theorem published_includedFile :
    ((deliver 0 (outcomeOf "main.ink" includedFile 1)).leaves oneFolder).state.workspaces[0]?.map (·.published) =
      some ["file:///p/a/b.ink", "file:///p/main.ink"] := by decide +kernel

theorem returns_includedFile : (deliver 0 (outcomeOf "main.ink" includedFile 1)).returns oneFolder = .ok 2 := by
  have hcount := count_includedFile
  generalize (deliver 0 (outcomeOf "main.ink" includedFile 1)).returns oneFolder = r at hcount
  cases r with
  | error f => cases hcount
  | ok n =>
      cases hcount
      rfl

/-- Both are published inside. -/
theorem included_file_is_published_inside :
    ∃ w', ((deliver 0 (outcomeOf "main.ink" includedFile 1)).leaves oneFolder).state.workspaces[0]? = some w' ∧
      w'.published = ["file:///p/a/b.ink", "file:///p/main.ink"] ∧
        ∀ uri ∈ w'.published, Uri.IsInside (.ofText "/p") uri := by
  obtain ⟨w, hw, hroot, hstate⟩ := workspace_oneFolder
  have hfolder : w.root.asNamed = w.root := by
    rw [hroot]
    decide
  have hentry : (w.root / Path.ofText "main.ink").asNamed = w.root / Path.ofText "main.ink" := by
    rw [hroot]
    decide
  let report : CompilerReport :=
    { output := includedFile, exitStatus := 1, entry := .ofText "main.ink", mirror := .ofText "/m/inkls-1" }
  have hnamed : (report.recognized.all fun f => f.path.segments ≠ []) = true := by decide +kernel
  have hinside : (Path.ofText "/p" / Path.ofText "main.ink").isInside (.ofText "/p") = true := by decide +kernel
  have hstays : report.StaysInside w.root := by
    rw [hroot]
    exact ⟨fun f hf _ => of_decide_eq_true (List.all_eq_true.mp hnamed f hf), fun _ => hinside⟩
  obtain ⟨w', record, hw', -, -, hiff, -⟩ :=
    @published_inside_iff oneFolder 0 w (outcomeOf "main.ink" includedFile 1) report 2 .none hw hstate rfl rfl
      hfolder hentry returns_includedFile
  obtain ⟨w₁, hw₁, hlist⟩ := Option.map_eq_some_iff.mp published_includedFile
  have hsame : w' = w₁ := Option.some.inj (hw'.symm.trans hw₁)
  refine ⟨w', hw', hsame ▸ hlist, ?_⟩
  rw [← hroot]
  exact hiff.mpr hstays

/-- A report of one line about the mirror itself. -/
def strayLine : CompileOutcome CompilerReport := outcomeOf "main.ink" "WARNING: '.' line 1: stray" 0

theorem published_strayLine :
    ((deliver 0 strayLine).leaves oneFolder).state.workspaces[0]?.map (·.published) = some ["file:///p"] := by
  decide +kernel

/-- A line about the mirror itself is published as a diagnostic of the folder. -/
theorem line_about_mirror_is_published_outside :
    ¬ ∀ (l : Loop ServerState Operation) (id : WorkspaceId) (w w' : Workspace)
        (outcome : CompileOutcome CompilerReport) (report : CompilerReport), l.state.documents.Arises →
        l.state.workspaces[id]? = some w → w.state ≠ .removed → outcome.error = none →
        outcome.result = some report → report.entry.IsInner →
        ((deliver id outcome).leaves l).state.workspaces[id]? = some w' →
        ∀ uri ∈ w'.published, Uri.IsInside w.root uri := by
  intro h
  obtain ⟨w, hw, hroot, hstate⟩ := workspace_oneFolder
  obtain ⟨w', hw', hfolder⟩ := Option.map_eq_some_iff.mp published_strayLine
  have hmem : "file:///p" ∈ w'.published := by
    rw [hfolder]
    exact List.mem_singleton_self _
  obtain ⟨path, hpath, hinside⟩ := h oneFolder 0 w w' strayLine _ .none hw hstate rfl rfl
    ⟨by decide, by decide, by decide⟩ hw' "file:///p" hmem
  have hfile : Uri.toPath "file:///p" = .ok (.ofText "/p") := by decide +kernel
  rw [hfile] at hpath
  cases hpath
  rw [hroot, Path.not_isInside_self] at hinside
  cases hinside

end Delivery

end InkServer
