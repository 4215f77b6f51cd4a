import InkServer.Proofs.Diagnostic.Reading
import InkServer.Proofs.Workspace.Requests

/-!
# Reports replace each other

What a workspace has told of its documents is what its last report says, whatever its reports said before:
documents that the last report is not about have an empty list. That holds as far as reports can be shown. A
report that cannot be shown, because the document it is about has no URI, changes nothing.
-/

namespace InkServer

open ServerState ServerAct

/-! ## What happens, and what is to be told -/

/-- What may happen to the diagnostics of a workspace: an accepted outcome of its compiles is delivered, other
documents are open from now on, or somebody else publishes diagnostics of a document. -/
inductive Occurrence where
  | delivers (outcome : CompileOutcome CompilerReport)
  | tracks (documents : Documents)
  | elsewhere (uri : String) (diagnostics : List Diagnostic)

/-- What is done when it happens. -/
def Occurrence.act (id : WorkspaceId) : Occurrence → ServerAct Unit
  | .delivers outcome => discard (Delivery.deliver id outcome)
  | .tracks documents => Act.modifyState fun s => { s with documents }
  | .elsewhere uri diagnostics => publish uri diagnostics

/-- What the tasks share after some of it has happened. -/
def Occurrence.after (id : WorkspaceId) (l : Loop ServerState Operation) (os : List Occurrence) :
    Loop ServerState Operation :=
  os.foldl (fun l o => (o.act id).leaves l) l

/-- What a workspace is to have told: what its last report is shown as, and the documents that any of its
reports was about. -/
structure Showing where
  documents : Documents
  last : List AddressedDiagnostic := []
  ever : List String := []

namespace Showing

/-- What a report changes. One that cannot be shown changes nothing. -/
def show_ (b : Showing) (root : Path) (report : CompilerReport) : Showing :=
  match report.shown b.documents.uriForPath root with
  | .ok ds => { b with last := ds, ever := b.ever ++ ds.map (·.uri) }
  | .error _ => b

theorem show_of_ok {b : Showing} {root : Path} {report : CompilerReport} {ds : List AddressedDiagnostic}
    (h : report.shown b.documents.uriForPath root = .ok ds) :
    b.show_ root report = { b with last := ds, ever := b.ever ++ ds.map (·.uri) } := by
  unfold show_
  rw [h]

theorem show_of_error {b : Showing} {root : Path} {report : CompilerReport} {e : CompilerReport.Error}
    (h : report.shown b.documents.uriForPath root = .error e) : b.show_ root report = b := by
  unfold show_
  rw [h]

/-- What an occurrence changes. -/
def next (root : Path) (b : Showing) : Occurrence → Showing
  | .tracks documents => { b with documents }
  | .elsewhere _ _ => b
  | .delivers outcome =>
    match outcome.error, outcome.result with
    | none, some report => b.show_ root report
    | _, _ => b

theorem next_of_report (b : Showing) (root : Path) {outcome : CompileOutcome CompilerReport}
    {report : CompilerReport} (he : outcome.error = none) (hr : outcome.result = some report) :
    b.next root (.delivers outcome) = b.show_ root report := by
  unfold next
  dsimp only
  rw [he, hr]

theorem next_of_failure (b : Showing) (root : Path) {outcome : CompileOutcome CompilerReport} {e : CompilerError}
    (he : outcome.error = some e) : b.next root (.delivers outcome) = b := by
  unfold next
  dsimp only
  rw [he]

/-- What is to have been told after some occurrences. -/
def after (root : Path) (documents : Documents) (os : List Occurrence) : Showing :=
  os.foldl (next root) { documents }

end Showing

/-- Nobody else publishes diagnostics of the documents that a workspace tells of. -/
def Occurrence.Apart (ever : List String) : Occurrence → Prop
  | .elsewhere uri _ => uri ∉ ever
  | _ => True

namespace ServerState

/-- A workspace has told what it is to have told: of every document that any of its reports was about, what the
last report says. On its list are the documents whose diagnostics are not empty. -/
structure Faithful (s : ServerState) (id : WorkspaceId) (b : Showing) : Prop where
  told : ∀ uri ∈ b.ever, s.heard uri = some (findingsFor uri b.last)
  listed : ∃ w, s.workspaces[id]? = some w ∧
    ∀ uri, uri ∈ w.published ↔ uri ∈ b.ever ∧ ∃ ds, ds ≠ [] ∧ s.heard uri = some ds

end ServerState

/-! ## Groups -/

theorem mem_keys_foldl_addToGroup {uri : String} {groups : Dict String (List Diagnostic)}
    {ds : List AddressedDiagnostic} :
    uri ∈ (ds.foldl addToGroup groups).keys ↔ uri ∈ groups.keys ∨ uri ∈ ds.map (·.uri) := by
  induction ds generalizing groups with
  | nil => simp
  | cons d rest ih =>
      have hkeys : uri ∈ (addToGroup groups d).keys ↔ uri ∈ groups.keys ∨ uri = d.uri := by
        unfold addToGroup
        rw [Dict.keys_insert]
        split
        · rename_i hd
          exact ⟨.inl, fun h => h.elim (fun h => h) fun he => he ▸ hd⟩
        · rw [List.mem_append, List.mem_singleton]
      rw [List.foldl_cons, ih, hkeys, List.map_cons, List.mem_cons, or_assoc]

/-- The documents with a group are those that some finding is about. -/
theorem mem_keys_groupByUri {uri : String} {ds : List AddressedDiagnostic} :
    uri ∈ (groupByUri ds).keys ↔ uri ∈ ds.map (·.uri) := by
  unfold groupByUri
  rw [mem_keys_foldl_addToGroup]
  exact or_iff_right List.not_mem_nil

theorem findingsFor_ne_nil_iff {uri : String} {ds : List AddressedDiagnostic} :
    findingsFor uri ds ≠ [] ↔ uri ∈ ds.map (·.uri) := by
  unfold findingsFor
  rw [ne_eq, List.map_eq_nil_iff, List.filter_eq_nil_iff, List.mem_map]
  constructor
  · intro h
    refine Classical.byContradiction fun hnone => h fun d hd he => hnone ?_
    exact ⟨d, hd, of_decide_eq_true he⟩
  · rintro ⟨d, hd, he⟩ h
    exact h d hd (decide_eq_true he)

/-- The group of a document is among what is published. -/
theorem mem_entries_groupByUri {uri : String} {ds : List AddressedDiagnostic} (h : uri ∈ ds.map (·.uri)) :
    (uri, findingsFor uri ds) ∈ (groupByUri ds).entries := by
  obtain ⟨⟨_, items⟩, hitems, rfl⟩ := List.mem_map.mp (mem_keys_groupByUri.mpr h)
  have hget := Dict.get?_of_mem (nodup_keys_groupByUri ds) hitems
  rw [← get?_groupByUri, hget]
  exact hitems

/-! ## One occurrence -/

variable {s : ServerState} {id : WorkspaceId} {root : Path} {l : Loop ServerState Operation} {b : Showing}
  {os : List Occurrence}

namespace ServerState

/-- What holds of a registered workspace at all times. -/
structure Shows (s : ServerState) (id : WorkspaceId) (root : Path) (b : Showing) : Prop where
  agreed : s.Agreed
  isHeard : s.isHeard
  documents : s.documents = b.documents
  told : ∀ uri ∈ b.ever, s.heard uri = some (findingsFor uri b.last)
  among : ∀ uri ∈ b.last.map (·.uri), uri ∈ b.ever
  workspace : ∃ w, s.workspaces[id]? = some w ∧ w.root = root ∧ w.state ≠ .removed ∧
    w.published = (groupByUri b.last).keys

/-- What is published of a workspace that has told what it is to have told. -/
theorem Shows.faithful (h : s.Shows id root b) : s.Faithful id b := by
  obtain ⟨w, hw, _, _, hpublished⟩ := h.workspace
  refine ⟨h.told, w, hw, fun uri => ?_⟩
  rw [hpublished, mem_keys_groupByUri]
  constructor
  · intro hu
    have hever := h.among uri hu
    exact ⟨hever, _, findingsFor_ne_nil_iff.mpr hu, h.told uri hever⟩
  · rintro ⟨hever, ds, hds, hheard⟩
    rw [h.told uri hever] at hheard
    cases hheard
    exact findingsFor_ne_nil_iff.mp hds

/-- What is noted without being published changes nothing. -/
theorem Shows.noted (h : s.Shows id root b) {record : List Event} (hr : ∀ e ∈ record, IsPublication e = false) :
    ({ s with events := s.events ++ record } : ServerState).Shows id root b :=
  ⟨h.agreed.silent rfl rfl hr, h.isHeard, h.documents,
    fun uri hu => (heard_of_silent rfl hr).trans (h.told uri hu), h.among, h.workspace⟩

/-- Diagnostics of other documents change nothing. -/
theorem Shows.elsewhere (h : s.Shows id root b) {uri : String} (hu : uri ∉ b.ever) (ds : List Diagnostic) :
    (s.publishing uri ds).Shows id root b := by
  obtain ⟨p, record, he, _⟩ := publishing_eq s uri ds
  refine ⟨h.agreed.publishing uri ds, by rw [isHeard_publishing]; exact h.isHeard, ?_, fun u hu' => ?_, h.among, ?_⟩
  · rw [he]
    exact h.documents
  · rw [heard_publishing h.agreed h.isHeard, if_neg (fun heq : uri = u => hu (heq ▸ hu'))]
    exact h.told u hu'
  · rw [he]
    exact h.workspace

/-- What the client hears of each document when a report has taken the place of the one before. -/
theorem Shows.heard_replacements (h : s.Shows id root b) {w : Workspace}
    (hw : w.published = (groupByUri b.last).keys) {ds : List AddressedDiagnostic} {uri : String}
    (hu : uri ∈ b.ever ∨ uri ∈ ds.map (·.uri)) :
    (s.publishingAll (replacements w ds)).heard uri = some (findingsFor uri ds) := by
  have hlist (items : List Diagnostic) (hm : (uri, items) ∈ replacements w ds) :
      (s.publishingAll (replacements w ds)).heard uri = some (findingsFor uri ds) := by
    have hitems := mem_replacements hm
    subst hitems
    exact heard_publishingAll h.agreed h.isHeard hm fun _ => mem_replacements
  by_cases hnew : uri ∈ ds.map (·.uri)
  · exact hlist _ (List.mem_append_right _ (mem_entries_groupByUri hnew))
  have hempty : findingsFor uri ds = [] := Decidable.not_not.mp fun hne => hnew (findingsFor_ne_nil_iff.mp hne)
  have hkey : (groupByUri ds).contains uri = false := by
    rw [Dict.contains, Option.isSome_eq_false_iff, Option.isNone_iff_eq_none]
    refine Option.eq_none_iff_forall_ne_some.mpr fun items hget => hnew ?_
    exact mem_keys_groupByUri.mp (Dict.mem_keys_of_get? hget)
  by_cases hold : uri ∈ w.published
  · refine hlist [] (List.mem_append_left _ (mem_empties.mpr ⟨List.mem_filter.mpr ⟨hold, ?_⟩, rfl⟩))
    rw [hkey]
    rfl
  · -- The document had no diagnostics before, and is in no list now.
    have hnone : ∀ items, (uri, items) ∉ replacements w ds := by
      intro items hm
      rcases List.mem_append.mp hm with hm | hm
      · exact hold (List.mem_filter.mp (mem_empties.mp hm).1).1
      · exact hnew (mem_keys_groupByUri.mp (List.mem_map.mpr ⟨_, hm, rfl⟩))
    have hlast : findingsFor uri b.last = [] := Decidable.not_not.mp fun hne =>
      hold (hw ▸ mem_keys_groupByUri.mpr (findingsFor_ne_nil_iff.mp hne))
    rw [heard_publishingAll_of_not_mem h.agreed h.isHeard hnone, h.told uri (hu.resolve_right hnew), hlast, hempty]

/-- A report takes the place of the one before. -/
theorem Shows.replaced (h : s.Shows id root b) {w : Workspace} (hw : s.workspaces[id]? = some w)
    (request : CompileRequest) (ds : List AddressedDiagnostic) :
    (s.moved id { w with published := (groupByUri ds).keys } (replacements w ds)
      [.delivered id request ds.length]).Shows id root
        { b with last := ds, ever := b.ever ++ ds.map (·.uri) } := by
  obtain ⟨_, hw', hroot, hstate, hpublished⟩ := h.workspace
  rw [hw] at hw'
  cases hw'
  have hsilent : ∀ e ∈ [Event.delivered id request ds.length], IsPublication e = false := fun e hm =>
    List.mem_singleton.mp hm ▸ rfl
  refine ⟨h.agreed.moved _ _ _ hsilent, (isHeard_publishingAll s _).trans h.isHeard, ?_, fun uri hu => ?_,
    fun uri hu => List.mem_append_right _ hu, { w with published := (groupByUri ds).keys }, ?_, hroot, hstate, rfl⟩
  · rw [moved_documents]
    exact h.documents
  · rw [heard_of_silent (moved_events s id _ _ _) hsilent]
    exact h.heard_replacements hpublished (List.mem_append.mp hu)
  · rw [moved_workspaces, List.getElem?_set_self (List.getElem?_eq_some_iff.mp hw).1]

end ServerState

/-- Notes for the record and notices are no publications. -/
theorem not_isPublication_of_mem_reported {request : CompileRequest} {report : CompilerReport}
    {notices : List Notice} :
    ∀ e ∈ Event.reported id request report :: notices.map .noticed, IsPublication e = false := by
  intro e hm
  rcases List.mem_cons.mp hm with rfl | hm
  · rfl
  · obtain ⟨n, _, rfl⟩ := List.mem_map.mp hm
    rfl

/-- Nothing is done where the compiler neither failed nor reported. -/
theorem Delivery.leaves_deliver_of_nothing {outcome : CompileOutcome CompilerReport} {w : Workspace}
    (he : outcome.error = none) (hr : outcome.result = none) (hw : l.state.workspaces[id]? = some w)
    (hstate : w.state ≠ .removed) : (deliver id outcome).leaves l = l := by
  have hret : (workspace? id).returns l = some w := hw
  unfold deliver withWorkspace
  rw [Act.leaves_bind, hret]
  dsimp only
  rw [if_neg hstate, he, hr]
  rfl

/-- What a delivered outcome makes of what a workspace has told. -/
theorem Delivery.shows_deliver (h : l.state.Shows id root b) (outcome : CompileOutcome CompilerReport) :
    ((deliver id outcome).leaves l).state.Shows id root (b.next root (.delivers outcome)) := by
  obtain ⟨w, hw, hroot, hstate, hpublished⟩ := h.workspace
  cases he : outcome.error with
  | some e =>
      rw [b.next_of_failure root he, (deliver_failure_eq outcome he hw hstate).2]
      exact h.noted fun e hm => List.mem_singleton.mp hm ▸ rfl
  | none =>
      cases hr : outcome.result with
      | none =>
          have hsame := leaves_deliver_of_nothing he hr hw hstate
          have hnext : b.next root (.delivers outcome) = b := by
            unfold Showing.next
            dsimp only
            rw [he, hr]
          rw [hsame, hnext]
          exact h
      | some report =>
          rw [b.next_of_report root he hr]
          obtain ⟨notices, hdelivery⟩ := deliver_eq outcome he hr hw hstate
          rw [h.documents, hroot] at hdelivery
          rcases hdelivery with ⟨e, hshown, _, hleaves⟩ | ⟨ds, hshown, _, hleaves⟩
          · rw [hleaves, Showing.show_of_error hshown]
            exact h.noted not_isPublication_of_mem_reported
          · rw [hleaves, Showing.show_of_ok hshown]
            exact (h.noted not_isPublication_of_mem_reported).replaced hw outcome.request ds

/-- Whatever happens, the workspace has told what it is to have told. -/
theorem Occurrence.shows_act (h : l.state.Shows id root b) (o : Occurrence) (ho : o.Apart b.ever) :
    ((o.act id).leaves l).state.Shows id root (b.next root o) := by
  cases o with
  | delivers outcome => exact Delivery.shows_deliver h outcome
  | tracks documents => exact ⟨h.agreed, h.isHeard, rfl, h.told, h.among, h.workspace⟩
  | elsewhere uri ds =>
      show ((publish uri ds).leaves l).state.Shows id root b
      rw [leaves_publish]
      exact h.elsewhere ho ds

/-! ## Any number of occurrences -/

theorem Showing.ever_subset_next (b : Showing) (root : Path) (o : Occurrence) : b.ever ⊆ (b.next root o).ever := by
  unfold next
  split
  · exact List.Subset.refl _
  · exact List.Subset.refl _
  · split
    · unfold show_
      split
      · exact List.subset_append_left _ _
      · exact List.Subset.refl _
    · exact List.Subset.refl _

theorem Showing.ever_subset_foldl (b : Showing) (root : Path) (os : List Occurrence) :
    b.ever ⊆ (os.foldl (next root) b).ever := by
  induction os generalizing b with
  | nil => exact List.Subset.refl _
  | cons o rest ih => exact List.Subset.trans (b.ever_subset_next root o) (ih _)

theorem Occurrence.shows_after (h : l.state.Shows id root b)
    (hos : ∀ o ∈ os, o.Apart (os.foldl (Showing.next root) b).ever) :
    (after id l os).state.Shows id root (os.foldl (Showing.next root) b) := by
  induction os generalizing l b with
  | nil => exact h
  | cons o rest ih =>
      have hnow : o.Apart b.ever := by
        have hlater := hos o List.mem_cons_self
        cases o with
        | elsewhere uri ds => exact fun hu => hlater (Showing.ever_subset_foldl b root _ hu)
        | _ => trivial
      exact ih (shows_act h o hnow) fun o' ho' => hos o' (List.mem_cons_of_mem _ ho')

/-- A workspace that has published nothing yet. -/
structure ServerState.Unheard (s : ServerState) (id : WorkspaceId) (root : Path) : Prop where
  agreed : s.Agreed
  isHeard : s.isHeard
  workspace : ∃ w, s.workspaces[id]? = some w ∧ w.root = root ∧ w.state ≠ .removed ∧ w.published = []

theorem ServerState.Unheard.shows (h : s.Unheard id root) : s.Shows id root { documents := s.documents } :=
  ⟨h.agreed, h.isHeard, rfl, fun _ hu => absurd hu List.not_mem_nil, fun _ hu => absurd hu List.not_mem_nil,
    h.workspace⟩

/-! ## Reports that can be shown -/

namespace CompilerReport

variable {naming : Naming} {report : CompilerReport}

/-- A report without a finding is refused exactly when the compiler failed. -/
theorem ne_nil_of_diagnostics {ds : List AddressedDiagnostic} (h : report.diagnostics naming root = .ok ds)
    (hx : report.exitStatus ≠ 0) : ds ≠ [] := by
  unfold diagnostics at h
  obtain ⟨found, _, h⟩ := bind_eq_ok_iff.mp h
  rintro rfl
  split at h
  · exact nomatch h
  · rename_i hif
    cases h
    exact hif (by rw [List.isEmpty_nil, Bool.true_and, bne_iff_ne]; exact hx)

/-- Where a report without a finding is about a document with a URI, one diagnostic stands for it. -/
theorem Unrecognized.exists_toDiagnostic {u : Unrecognized} {entry : Path} :
    (∃ d, u.toDiagnostic naming root entry = .ok d) ↔ ∃ uri, naming (root / entry) = .ok uri := by
  unfold toDiagnostic
  cases naming (root / entry) with
  | error e => exact ⟨fun ⟨_, h⟩ => (nomatch h), fun ⟨_, h⟩ => (nomatch h)⟩
  | ok uri => exact ⟨fun _ => ⟨uri, rfl⟩, fun _ => ⟨_, rfl⟩⟩

/-- What a failing compiler reported is never shown as nothing at all. -/
theorem ne_nil_of_shown {ds : List AddressedDiagnostic} (h : report.shown naming root = .ok ds)
    (hx : report.exitStatus ≠ 0) : ds ≠ [] := by
  unfold shown at h
  split at h
  · rename_i hd
    cases h
    exact ne_nil_of_diagnostics hd hx
  · rename_i u _
    cases hu : u.toDiagnostic naming root report.entry with
    | error e => rw [hu] at h; exact nomatch h
    | ok d =>
        rw [hu] at h
        cases h
        exact List.cons_ne_nil _ _
  · exact nomatch h

/-- A report is shown unless it is refused and its document has no URI. -/
theorem exists_shown_iff
    (h : ∀ e, report.diagnostics naming root = .error e → ∃ u, e = .unrecognized u) :
    (∃ ds, report.shown naming root = .ok ds) ↔
      ((∃ ds, report.diagnostics naming root = .ok ds) ∨ ∃ uri, naming (root / report.entry) = .ok uri) := by
  unfold shown
  cases hd : report.diagnostics naming root with
  | ok ds => exact ⟨fun _ => .inl ⟨ds, rfl⟩, fun _ => ⟨ds, rfl⟩⟩
  | error e =>
      obtain ⟨u, rfl⟩ := h e hd
      dsimp only
      rw [← Unrecognized.exists_toDiagnostic (u := u)]
      cases u.toDiagnostic naming root report.entry with
      | error e =>
          refine ⟨fun ⟨_, h⟩ => (nomatch h), ?_⟩
          rintro (⟨_, h⟩ | ⟨_, h⟩) <;> exact nomatch h
      | ok d => exact ⟨fun _ => .inr ⟨d, rfl⟩, fun _ => ⟨[d], rfl⟩⟩

end CompilerReport

/-! ## Removal -/

namespace Removal

theorem events_deleteMirror (id : WorkspaceId) (m : Mirror) (l : Loop ServerState Operation) :
    ((deleteMirror id m).leaves l).state.events = l.state.events := by
  unfold deleteMirror
  rw [Act.leaves_bind, Initialization.leaves_delete]
  rfl

/-- A removal that goes on after its wait publishes nothing. -/
theorem events_resume (state : Removal) (signal : Signal) (l : Loop ServerState Operation) :
    ((resume state signal).leaves l).state.events = l.state.events := by
  unfold resume
  split
  · rw [Act.leaves_bind, Act.leaves_pure]
    exact events_deleteMirror _ _ _
  · rw [Act.leaves_pure]

theorem leaves_withWorkspace {α : Type} {absent : ServerAct α} {f : Workspace → ServerAct α} {w : Workspace}
    (hw : l.state.workspaces[id]? = some w) : (withWorkspace id absent f).leaves l = (f w).leaves l := by
  have hret : (workspace? id).returns l = some w := hw
  unfold withWorkspace
  rw [Act.leaves_bind, hret]
  rfl

/-- A removal takes the workspace out and clears what was published for it, and then deletes its mirror unless there
is none or it has to wait for that. -/
theorem leaves_start {uri : String} {w : Workspace} (hr : l.state.registered.get? uri = some id)
    (hw : l.state.workspaces[id]? = some w) :
    ∃ (x : Workspace) (l' : Loop ServerState Operation), x.published = [] ∧
      l'.state = { l.state.moved id x (empties w.published) [.removed id] with
        registered := l.state.registered.erase uri } ∧
      (((start uri).leaves l).state = l'.state ∨ ∃ m, (start uri).leaves l = (deleteMirror id m).leaves l') := by
  have hret : (unregister uri).returns l = some id := hr
  obtain ⟨x, hx, hpublished⟩ : ∃ x : Workspace,
      x = { w.enter .removed with initializations := w.initializations + 1 } ∧ x.published = w.published :=
    ⟨_, rfl, rfl⟩
  have hset := List.getElem?_set_self (l := l.state.workspaces) (a := x) (List.getElem?_eq_some_iff.mp hw).1
  have hupdate : (updateWorkspace id fun w =>
      { w.enter .removed with initializations := w.initializations + 1 }).leaves
        ((unregister uri).leaves l) = { l with state := { l.state with
          workspaces := l.state.workspaces.set id x
          registered := l.state.registered.erase uri } } := by
    rw [leaves_unregister, hx]
    exact congrArg (fun workspaces => { l with state := { l.state with
      workspaces, registered := l.state.registered.erase uri } }) (modify_eq_set hw _)
  obtain ⟨y, hy⟩ : ∃ y : Workspace, y = { x with published := [] } := ⟨_, rfl⟩
  have hclears : (updateWorkspace id fun w => { w with published := [] }).leaves
        { l with state := { l.state.publishingAll (empties w.published) with
          workspaces := l.state.workspaces.set id x
          registered := l.state.registered.erase uri } } =
      { l with state := { l.state.publishingAll (empties w.published) with
          workspaces := l.state.workspaces.set id y
          registered := l.state.registered.erase uri } } := by
    refine congrArg (fun workspaces => { l with state := { l.state.publishingAll (empties w.published) with
      workspaces, registered := l.state.registered.erase uri } }) ?_
    rw [hy, modify_eq_set hset, List.set_set]
  refine ⟨y, (note (.removed id)).leaves { l with state := { l.state.publishingAll (empties w.published) with
    workspaces := l.state.workspaces.set id y, registered := l.state.registered.erase uri } },
    by rw [hy], rfl, ?_⟩
  unfold start
  rw [Act.leaves_bind, hret]
  dsimp only
  rw [Act.leaves_bind, hupdate, leaves_withWorkspace hset, Act.leaves_bind, leaves_clearAll, publishingAll_with,
    hpublished, Act.leaves_bind, hclears, Act.leaves_bind]
  cases x.mirror with
  | none => exact .inl rfl
  | some m =>
      dsimp only
      rw [Act.leaves_through]
      split
      · exact .inl rfl
      · exact .inr ⟨m, rfl⟩

/-- A removal publishes empty lists for what the workspace had published, and nothing else. -/
theorem events_start {uri : String} {w : Workspace} (hr : l.state.registered.get? uri = some id)
    (hw : l.state.workspaces[id]? = some w) :
    ((start uri).leaves l).state.events = (l.state.publishingAll (empties w.published)).events ++ [.removed id] := by
  obtain ⟨_, l', _, hl', hstart | ⟨m, hstart⟩⟩ := leaves_start hr hw
  · rw [hstart, hl', moved_events]
  · rw [hstart, events_deleteMirror, hl', moved_events]

end Removal

/-- A removal empties the lists of all documents that the workspace ever told of. -/
theorem ServerState.Shows.heard_removed (h : l.state.Shows id root b) {uri : String}
    (hr : l.state.registered.get? uri = some id) {u : String} (hu : u ∈ b.ever) :
    ((Removal.start uri).leaves l).state.heard u = some [] := by
  obtain ⟨w, hw, _, _, hpublished⟩ := h.workspace
  rw [heard_of_silent (Removal.events_start hr hw) fun e hm => List.mem_singleton.mp hm ▸ rfl]
  by_cases hlisted : u ∈ w.published
  · exact heard_publishingAll h.agreed h.isHeard (mem_empties.mpr ⟨hlisted, rfl⟩) fun _ hm => (mem_empties.mp hm).2
  · have hlast : findingsFor u b.last = [] := Decidable.not_not.mp fun hne =>
      hlisted (hpublished ▸ mem_keys_groupByUri.mpr (findingsFor_ne_nil_iff.mp hne))
    rw [heard_publishingAll_of_not_mem h.agreed h.isHeard fun _ hm => hlisted (mem_empties.mp hm).1,
      h.told u hu, hlast]

/-! ## Any report after any others -/

/-- What the delivery of a report promises: the diagnostics of the report, or the one that stands for it, take
the place of those before, and what a failing compiler reported leaves something to be seen. -/
def Delivery.Replaces (id : WorkspaceId) (root : Path) (b : Showing) (outcome : CompileOutcome CompilerReport)
    (report : CompilerReport) (l : Loop ServerState Operation) : Prop :=
  ∃ ds, report.shown b.documents.uriForPath root = .ok ds ∧ (deliver id outcome).returns l = .ok ds.length ∧
    ((deliver id outcome).leaves l).state.Faithful id { b with last := ds, ever := b.ever ++ ds.map (·.uri) } ∧
    (report.exitStatus ≠ 0 → ∃ uri ∈ ds.map (·.uri), ∃ list, list ≠ [] ∧
      ((deliver id outcome).leaves l).state.heard uri = some list)

/-- A delivered report keeps the promise exactly when it can be shown. -/
theorem Delivery.replaces_iff_shown (h : l.state.Shows id root b) {outcome : CompileOutcome CompilerReport}
    {report : CompilerReport} (he : outcome.error = none) (hr : outcome.result = some report) :
    Replaces id root b outcome report l ↔ ∃ ds, report.shown b.documents.uriForPath root = .ok ds := by
  constructor
  · rintro ⟨ds, hshown, _⟩
    exact ⟨ds, hshown⟩
  · rintro ⟨ds, hshown⟩
    have hnext := (b.next_of_report root he hr).trans (Showing.show_of_ok hshown)
    have hafter := hnext ▸ shows_deliver h outcome
    refine ⟨ds, hshown, ?_, hafter.faithful, fun hx => ?_⟩
    · obtain ⟨w, hw, hroot, hstate, _⟩ := h.workspace
      obtain ⟨_, hdelivery⟩ := deliver_eq outcome he hr hw hstate
      rw [h.documents, hroot, hshown] at hdelivery
      rcases hdelivery with ⟨_, h', _⟩ | ⟨_, h', hreturns, _⟩
      · exact nomatch h'
      · cases h'
        exact hreturns
    · obtain ⟨d, hd⟩ := List.exists_mem_of_ne_nil ds (CompilerReport.ne_nil_of_shown hshown hx)
      have hmem : d.uri ∈ ds.map (·.uri) := List.mem_map_of_mem hd
      exact ⟨d.uri, hmem, _, findingsFor_ne_nil_iff.mpr hmem, hafter.told _ (List.mem_append_right _ hmem)⟩

/-- Whatever was delivered to a workspace before, it has told what its last report says. The next report takes
that one's place exactly when it has findings or its entry file has a URI, a compiler that could not run
changes nothing, and a removal leaves nothing to be seen. -/
theorem Delivery.reports_replace_each_other (h : l.state.Unheard id root)
    (hos : ∀ o ∈ os, o.Apart (Showing.after root l.state.documents os).ever) :
    let b := Showing.after root l.state.documents os
    let l' := Occurrence.after id l os
    l'.state.Faithful id b ∧
    (∀ outcome report, outcome.error = none → outcome.result = some report →
      (∀ e, report.diagnostics b.documents.uriForPath root = .error e → ∃ u, e = .unrecognized u) →
      (Replaces id root b outcome report l' ↔
        (∃ ds, report.diagnostics b.documents.uriForPath root = .ok ds) ∨
          ∃ uri, b.documents.uriForPath (root / report.entry) = .ok uri)) ∧
    (∀ outcome e, outcome.error = some e → ((deliver id outcome).leaves l').state.Faithful id b) ∧
    (∀ uri, l'.state.registered.get? uri = some id →
      ∀ u ∈ b.ever, ((Removal.start uri).leaves l').state.heard u = some []) ∧
    ∀ removal signal later, ((Removal.resume removal signal).leaves later).state.heard = later.state.heard := by
  have hshows := Occurrence.shows_after h.shows hos
  refine ⟨hshows.faithful, fun outcome report he hr hparse => ?_, fun outcome e he => ?_,
    fun uri hr u hu => hshows.heard_removed hr hu, fun removal signal later => ?_⟩
  · exact (replaces_iff_shown hshows he hr).trans (CompilerReport.exists_shown_iff hparse)
  · have hafter := shows_deliver hshows outcome
    rw [Showing.next_of_failure _ _ he] at hafter
    exact hafter.faithful
  · funext u
    unfold heard
    rw [Removal.events_resume]

/-! ## One story -/

namespace Delivery

/-- A server on which nothing has happened yet but that a folder was registered. -/
def oneFolder : Loop ServerState Operation :=
  (JointInitialization.register ⟨"file:///p", ""⟩).leaves { state := Server.sample [] }

theorem unheard_oneFolder : oneFolder.state.Unheard 0 (.ofText "/p") where
  agreed := fun p hp => nomatch hp
  isHeard := rfl
  workspace := ⟨_, rfl, rfl, by decide, rfl⟩

/-- An outcome with what the compiler wrote about an entry file. -/
def outcomeOf (entry output : String) (exitStatus : Int) : CompileOutcome CompilerReport where
  request := ⟨"file:///p", 1⟩
  accepted := true
  result := some { output, exitStatus, entry := .ofText entry, mirror := .ofText "/m/inkls-1" }

/-- A report about an included file, diagnostics of a file outside, and a report without findings. -/
def includedThenBroken : List Occurrence :=
  [.delivers (outcomeOf "a.ink" "WARNING: 'b.ink' line 2: dull" 0), .elsewhere "file:///q/c.ink" [],
    .delivers (outcomeOf "a.ink" "boom" 1)]

theorem ever_includedThenBroken : (Showing.after (.ofText "/p") {} includedThenBroken).ever =
    ["file:///p/b.ink", "file:///p/a.ink"] := by decide +kernel

/-- The included file is cleared when the next report is not about it, and the failure is to be seen. -/
theorem broken_story_replaces_warning :
    ∃ ds, ds.length = 1 ∧
      (Occurrence.after 0 oneFolder includedThenBroken).state.heard "file:///p/a.ink" = some ds ∧
      (Occurrence.after 0 oneFolder includedThenBroken).state.heard "file:///p/b.ink" = some [] := by
  have hapart : ∀ o ∈ includedThenBroken,
      o.Apart (Showing.after (.ofText "/p") oneFolder.state.documents includedThenBroken).ever := by
    intro o ho
    show o.Apart (Showing.after (.ofText "/p") {} includedThenBroken).ever
    rw [ever_includedThenBroken]
    rcases List.mem_cons.mp ho with rfl | ho
    · trivial
    · rcases List.mem_cons.mp ho with rfl | ho
      · exact (by decide : "file:///q/c.ink" ∉ ["file:///p/b.ink", "file:///p/a.ink"])
      · cases List.mem_singleton.mp ho
        trivial
  have htold := (reports_replace_each_other unheard_oneFolder hapart).1.told
  have hlast : (findingsFor "file:///p/a.ink" (Showing.after (.ofText "/p") {} includedThenBroken).last).length = 1 ∧
      findingsFor "file:///p/b.ink" (Showing.after (.ofText "/p") {} includedThenBroken).last = [] := by
    decide +kernel
  refine ⟨_, hlast.1, htold _ ?_, hlast.2 ▸ htold _ ?_⟩
  · exact ever_includedThenBroken ▸ by decide
  · exact ever_includedThenBroken ▸ by decide

/-- An entry file whose path has no URI hides that the compiler failed: nothing is ever heard of it. -/
theorem failure_of_unnamed_entry_is_hidden :
    ¬ ∀ (l : Loop ServerState Operation) (id : WorkspaceId) (root : Path) (outcome : CompileOutcome CompilerReport)
        (report : CompilerReport), l.state.Unheard id root → outcome.error = none → outcome.result = some report →
        (∀ e, report.diagnostics l.state.documents.uriForPath root = .error e → ∃ u, e = .unrecognized u) →
        report.mirror.isAbsolute → report.exitStatus ≠ 0 →
        ∃ uri list, list ≠ [] ∧ ((deliver id outcome).leaves l).state.heard uri = some list := by
  intro h
  let report : CompilerReport :=
    { output := "boom", exitStatus := 1, entry := .ofText "//main.ink", mirror := .ofText "/m/inkls-1" }
  have hrefused : report.diagnostics oneFolder.state.documents.uriForPath (.ofText "/p") =
      .error (.unrecognized ⟨"boom", 1⟩) := by decide +kernel
  obtain ⟨uri, list, _, hheard⟩ := h oneFolder 0 (.ofText "/p") (outcomeOf "//main.ink" "boom" 1) report
    unheard_oneFolder rfl rfl (fun e he => ⟨_, (Except.error.inj (hrefused.symm.trans he)).symm⟩)
    (by decide) (by decide)
  have hsilent : ((deliver 0 (outcomeOf "//main.ink" "boom" 1)).leaves oneFolder).state.events.all
      fun e => !IsPublication e := by decide +kernel
  have hnone : ((deliver 0 (outcomeOf "//main.ink" "boom" 1)).leaves oneFolder).state.heard uri = none := by
    refine List.findSome?_eq_none_iff.mpr fun e hm => Event.told?_of_isPublication ?_
    have hplain := List.all_eq_true.mp hsilent e (List.mem_reverse.mp hm)
    exact (Bool.not_eq_true' _).mp hplain
  exact nomatch hnone.symm.trans hheard

end Delivery

end InkServer
