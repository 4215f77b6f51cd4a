import InkServer.Proofs.Workspace.Replacement

/-!
# Workspaces side by side

The client keeps one list of diagnostics for a document, whichever workspace told it. So a workspace whose folder
lies inside that of another shares documents with it, and the one that told of such a document last is heard. What
a workspace told stays as long as no other has anything to say of the same document, in its report or in what it
takes back of its report before.
-/

namespace InkServer

open ServerState ServerAct

/-! ## What happens, and what is announced -/

/-- What may happen to the diagnostics of several workspaces: an accepted outcome of a compile is delivered, a
workspace is removed, the removal of one goes on after a wait, a folder is registered, or other documents are open
from now on. -/
inductive Incident where
  | delivers (id : WorkspaceId) (outcome : CompileOutcome CompilerReport)
  | removes (uri : String)
  | resumes (removal : Removal) (signal : Signal)
  | registers (folder : Folder)
  | tracks (documents : Documents)

/-- What a workspace announces when it has diagnostics: those documents that it announced diagnostics of before, and
the diagnostics that take their place. -/
structure Announcement where
  speaker : WorkspaceId
  before : List String
  now : List AddressedDiagnostic

namespace Announcement

/-- The announcement takes something back of a document or says something of it. -/
def IsAbout (a : Announcement) (uri : String) : Prop := uri ∈ a.before ∨ uri ∈ a.now.map (·.uri)

instance (a : Announcement) (uri : String) : Decidable (a.IsAbout uri) := by
  unfold IsAbout
  infer_instance

/-- What is heard of a document through an announcement. -/
def word? (uri : String) (a : Announcement) : Option (List Diagnostic) :=
  if a.IsAbout uri then some (findingsFor uri a.now) else none

theorem word?_eq_none_iff {a : Announcement} {uri : String} : a.word? uri = none ↔ ¬a.IsAbout uri := by
  unfold word?
  split <;> simp_all

end Announcement

namespace Incident

/-- What is done when it happens. -/
def act : Incident → ServerAct Unit
  | delivers id outcome => discard (Delivery.deliver id outcome)
  | removes uri => discard (Removal.start uri)
  | resumes removal signal => discard (Removal.resume removal signal)
  | registers folder => discard (JointInitialization.register folder)
  | tracks documents => Act.modifyState fun s => { s with documents }

/-- The diagnostics that an accepted outcome is shown as. A compiler that could not run has nothing to show, and not
every report can be shown. -/
def shown? (s : ServerState) (w : Workspace) (outcome : CompileOutcome CompilerReport) :
    Option (List AddressedDiagnostic) :=
  match outcome.error, outcome.result with
  | none, some report => (report.shown s.documents.uriForPath w.root).toOption
  | _, _ => none

/-- What is announced by it: the report of a workspace that was not removed, and that a workspace which is removed
has no diagnostics any more. -/
def announces (s : ServerState) : Incident → Option Announcement
  | delivers id outcome =>
    match s.workspaces[id]? with
    | none => none
    | some w => if w.state = .removed then none else (shown? s w outcome).map (⟨id, w.published, ·⟩)
  | removes uri =>
    match s.registered.get? uri with
    | none => none
    | some id => (s.workspaces[id]?).map fun w => ⟨id, w.published, []⟩
  | _ => none

/-- What the tasks share after some of it has happened. -/
def after (l : Loop ServerState Operation) (is : List Incident) : Loop ServerState Operation :=
  is.foldl (fun l i => i.act.leaves l) l

/-- What is announced while some of it happens. -/
def announced (l : Loop ServerState Operation) : List Incident → List Announcement
  | [] => []
  | i :: rest => (i.announces l.state).toList ++ announced (i.act.leaves l) rest

end Incident

namespace ServerState

/-- The documents that a workspace has published diagnostics of. -/
def listOf (s : ServerState) (id : WorkspaceId) : List String := ((s.workspaces[id]?).map (·.published)).getD []

/-- Announcements are all that happens to what the client hears and to the lists of the workspaces. -/
structure Announces (s s' : ServerState) (as : List Announcement) : Prop where
  agreed : s'.Agreed
  isHeard : s'.isHeard
  heard : ∀ uri, s'.heard uri = (as.reverse.findSome? (·.word? uri)).or (s.heard uri)
  lists : ∀ id, s'.listOf id =
    ((as.reverse.find? (·.speaker = id)).map fun a => (groupByUri a.now).keys).getD (s.listOf id)

variable {s s' t : ServerState} {as bs : List Announcement} {id : WorkspaceId} {record : List Event}

theorem Announces.refl (ha : s.Agreed) (hh : s.isHeard) : s.Announces s [] :=
  ⟨ha, hh, fun _ => rfl, fun _ => rfl⟩

theorem Announces.trans (h : s.Announces s' as) (h' : s'.Announces t bs) : s.Announces t (as ++ bs) := by
  refine ⟨h'.agreed, h'.isHeard, fun uri => ?_, fun id => ?_⟩
  · rw [h'.heard, h.heard, List.reverse_append, List.findSome?_append, Option.or_assoc]
  · rw [h'.lists, h.lists, List.reverse_append, List.find?_append]
    cases bs.reverse.find? (·.speaker = id) <;> rfl

/-- What is no publication announces nothing. -/
theorem Announces.silent (ha : s.Agreed) (hh : s.isHeard) (hp : s'.publisher = s.publisher)
    (he : s'.events = s.events ++ record) (hr : ∀ e ∈ record, IsPublication e = false)
    (hw : ∀ id, s'.listOf id = s.listOf id) : s.Announces s' [] :=
  ⟨ha.silent hp he hr, by rwa [ServerState.isHeard, hp], fun _ => heard_of_silent he hr, hw⟩

/-- What is heard of a document when diagnostics have taken the place of earlier ones. -/
theorem heard_replacements (ha : s.Agreed) (hh : s.isHeard) (id : WorkspaceId) (w : Workspace)
    (ds : List AddressedDiagnostic) (uri : String) : (s.publishingAll (replacements w ds)).heard uri =
      ((Announcement.mk id w.published ds).word? uri).or (s.heard uri) := by
  unfold Announcement.word?
  split
  · rename_i habout
    obtain ⟨items, hm⟩ : ∃ items, (uri, items) ∈ replacements w ds := by
      by_cases hnow : uri ∈ ds.map (·.uri)
      · exact ⟨_, List.mem_append_right _ (mem_entries_groupByUri hnow)⟩
      · have hkey : (groupByUri ds).contains uri = false := by
          rw [Dict.contains, Option.isSome_eq_false_iff, Option.isNone_iff_eq_none]
          refine Option.eq_none_iff_forall_ne_some.mpr fun items hget => hnow ?_
          exact mem_keys_groupByUri.mp (Dict.mem_keys_of_get? hget)
        refine ⟨[], List.mem_append_left _ (mem_empties.mpr ⟨List.mem_filter.mpr ⟨habout.resolve_right hnow, ?_⟩, rfl⟩)⟩
        rw [hkey]
        rfl
    obtain rfl := mem_replacements hm
    exact heard_publishingAll ha hh hm fun _ => mem_replacements
  · rename_i habout
    refine heard_publishingAll_of_not_mem ha hh fun items hm => habout ?_
    rcases List.mem_append.mp hm with hm | hm
    · exact .inl (List.mem_filter.mp (mem_empties.mp hm).1).1
    · exact .inr (mem_keys_groupByUri.mp (List.mem_map.mpr ⟨_, hm, rfl⟩))

/-- A turn in which the diagnostics of a workspace take the place of earlier ones. -/
theorem Announces.moved (ha : s.Agreed) (hh : s.isHeard) {w x : Workspace} (hw : s.workspaces[id]? = some w)
    {ds : List AddressedDiagnostic} (hx : x.published = (groupByUri ds).keys)
    (hr : ∀ e ∈ record, IsPublication e = false) :
    s.Announces (s.moved id x (replacements w ds) record) [⟨id, w.published, ds⟩] := by
  refine ⟨ha.moved _ _ _ hr, (isHeard_publishingAll s _).trans hh, fun uri => ?_, fun id' => ?_⟩
  · rw [heard_of_silent (moved_events s id x _ _) hr, heard_replacements ha hh id]
    simp
  · unfold listOf
    rw [moved_workspaces]
    by_cases hid : id = id'
    · subst hid
      rw [List.getElem?_set_self (List.getElem?_eq_some_iff.mp hw).1]
      simp [hx]
    · rw [List.getElem?_set_ne hid]
      simp [hid]

end ServerState

/-! ## One incident -/

variable {l : Loop ServerState Operation}

theorem Removal.announces_deleteMirror (ha : l.state.Agreed) (hh : l.state.isHeard) (id : WorkspaceId) (m : Mirror) :
    l.state.Announces ((deleteMirror id m).leaves l).state [] := by
  have hevents := (events_deleteMirror id m l).trans (List.append_nil _).symm
  refine .silent ha hh ?_ hevents (fun _ h => absurd h List.not_mem_nil) fun id' => ?_
  · unfold deleteMirror
    rw [Act.leaves_bind, Initialization.leaves_delete]
    rfl
  · unfold deleteMirror listOf
    rw [Act.leaves_bind, Initialization.leaves_delete]
    show (((l.state.workspaces.modify id _)[id']?).map _).getD _ = _
    rw [List.getElem?_modify]
    cases l.state.workspaces[id']? with
    | none => rfl
    | some w => by_cases hid : id = id' <;> simp [hid]

/-- A removal takes back what the workspace had published. -/
theorem Removal.announces_start (ha : l.state.Agreed) (hh : l.state.isHeard) {uri : String} {id : WorkspaceId}
    {w : Workspace} (hr : l.state.registered.get? uri = some id) (hw : l.state.workspaces[id]? = some w) :
    l.state.Announces ((start uri).leaves l).state [⟨id, w.published, []⟩] := by
  have hempties : empties w.published = replacements w [] := by
    have hall : (w.published.filter fun u => !(groupByUri []).contains u) = w.published :=
      List.filter_eq_self.mpr fun _ _ => rfl
    rw [replacements, hall]
    exact (List.append_nil _).symm
  obtain ⟨x, l', hx, hl', hstart⟩ := leaves_start hr hw
  have hmoved : l.state.Announces (l.state.moved id x (empties w.published) [.removed id]) [⟨id, w.published, []⟩] :=
    hempties ▸ .moved ha hh hw hx fun e hm => List.mem_singleton.mp hm ▸ rfl
  have htaken : l.state.Announces l'.state [⟨id, w.published, []⟩] := by
    rw [hl']
    exact ⟨hmoved.agreed, hmoved.isHeard, hmoved.heard, hmoved.lists⟩
  rcases hstart with hstart | ⟨m, hstart⟩
  · rwa [hstart]
  · rw [hstart]
    exact htaken.trans (announces_deleteMirror htaken.agreed htaken.isHeard id m)

/-- Nothing is announced where nobody is removed. -/
theorem Removal.announces_start_of_none (ha : l.state.Agreed) (hh : l.state.isHeard) {uri : String}
    (h : ∀ id, l.state.registered.get? uri = some id → l.state.workspaces[id]? = none) :
    l.state.Announces ((start uri).leaves l).state [] := by
  have hnil : ∀ e ∈ ([] : List Event), IsPublication e = false := fun _ hm => absurd hm List.not_mem_nil
  unfold start
  rw [Act.leaves_bind]
  cases hr : l.state.registered.get? uri with
  | none =>
      have hret : (unregister uri).returns l = none := hr
      rw [hret]
      dsimp only
      rw [Act.leaves_pure, leaves_unregister]
      exact .silent ha hh rfl (List.append_nil _).symm hnil fun _ => rfl
  | some id =>
      have hret : (unregister uri).returns l = some id := hr
      have hupdate (f : Workspace → Workspace) : (updateWorkspace id f).leaves ((unregister uri).leaves l) =
          (unregister uri).leaves l := by
        have hlt := List.getElem?_eq_none_iff.mp (h id hr)
        rw [leaves_unregister]
        exact congrArg (fun workspaces => { l with state := { l.state with
          workspaces, registered := l.state.registered.erase uri } }) (List.modify_eq_self hlt)
      have habsent : (workspace? id).returns ((unregister uri).leaves l) = none := by
        rw [leaves_unregister]
        exact h id hr
      rw [hret]
      dsimp only
      unfold withWorkspace
      rw [Act.leaves_bind, hupdate, Act.leaves_bind, habsent]
      show l.state.Announces ((unregister uri).leaves l).state []
      rw [leaves_unregister]
      exact .silent ha hh rfl (List.append_nil _).symm hnil fun _ => rfl

/-- Registering a folder announces nothing. -/
theorem JointInitialization.announces_register (ha : l.state.Agreed) (hh : l.state.isHeard) (folder : Folder) :
    l.state.Announces ((register folder).leaves l).state [] := by
  have hnil : ∀ e ∈ ([] : List Event), IsPublication e = false := fun _ hm => absurd hm List.not_mem_nil
  unfold register
  rw [Act.leaves_bind, Act.leaves_state, Act.returns_state]
  split
  · exact .refl ha hh
  · split
    · exact .refl ha hh
    · rename_i w hw
      refine .silent ha hh rfl (List.append_nil _).symm hnil fun id => ?_
      obtain ⟨root, _, rfl⟩ := Workspace.eq_of_ofFolder hw
      show (((l.state.workspaces ++ [_])[id]?).map (·.published)).getD [] = _
      rw [List.getElem?_append, ServerState.listOf]
      split
      · rfl
      · rename_i hlt
        rw [List.getElem?_eq_none_iff.mpr (Nat.le_of_not_lt hlt), List.getElem?_singleton]
        split <;> rfl

/-- Nothing is done where the workspace was removed. -/
theorem Delivery.leaves_deliver_of_removed {id : WorkspaceId} {w : Workspace}
    (outcome : CompileOutcome CompilerReport) (hw : l.state.workspaces[id]? = some w) (hstate : w.state = .removed) :
    (deliver id outcome).leaves l = l := by
  have hret : (workspace? id).returns l = some w := hw
  unfold deliver withWorkspace
  rw [Act.leaves_bind, hret]
  dsimp only
  rw [if_pos hstate]
  rfl

namespace Incident

/-- A delivery announces the report if it can be shown and the workspace was not removed. -/
theorem announces_deliver (ha : l.state.Agreed) (hh : l.state.isHeard) (id : WorkspaceId)
    (outcome : CompileOutcome CompilerReport) :
    l.state.Announces ((Delivery.deliver id outcome).leaves l).state
      ((delivers id outcome).announces l.state).toList := by
  unfold announces
  dsimp only
  cases hw : l.state.workspaces[id]? with
  | none =>
      have hsame : (Delivery.deliver id outcome).leaves l = l := by
        have hret : (workspace? id).returns l = none := hw
        unfold Delivery.deliver withWorkspace
        rw [Act.leaves_bind, hret]
        rfl
      rw [hsame]
      exact .refl ha hh
  | some w =>
      dsimp only
      by_cases hstate : w.state = .removed
      · rw [if_pos hstate, Delivery.leaves_deliver_of_removed outcome hw hstate]
        exact .refl ha hh
      rw [if_neg hstate]
      unfold shown?
      cases he : outcome.error with
      | some e =>
          rw [(Delivery.deliver_failure_eq outcome he hw hstate).2]
          exact .silent ha hh rfl rfl (fun e hm => List.mem_singleton.mp hm ▸ rfl) fun _ => rfl
      | none =>
          cases hr : outcome.result with
          | none =>
              rw [Delivery.leaves_deliver_of_nothing he hr hw hstate]
              exact .refl ha hh
          | some report =>
              dsimp only
              have hnoted (notices : List Notice) : l.state.Announces { l.state with
                  events := l.state.events ++ .reported id outcome.request report :: notices.map .noticed } [] :=
                .silent ha hh rfl rfl not_isPublication_of_mem_reported fun _ => rfl
              obtain ⟨notices, ⟨e, hshown, _, hleaves⟩ | ⟨ds, hshown, _, hleaves⟩⟩ :=
                Delivery.deliver_eq outcome he hr hw hstate
              · rw [hshown, hleaves]
                exact hnoted notices
              · rw [hshown, hleaves]
                exact (hnoted notices).trans (.moved (hnoted notices).agreed (hnoted notices).isHeard hw rfl
                  fun e hm => List.mem_singleton.mp hm ▸ rfl)

/-- Whatever happens, it is announced as it should be. -/
theorem announces_act (ha : l.state.Agreed) (hh : l.state.isHeard) (i : Incident) :
    l.state.Announces (i.act.leaves l).state (i.announces l.state).toList := by
  cases i with
  | delivers id outcome => exact announces_deliver ha hh id outcome
  | removes uri =>
      show l.state.Announces ((Removal.start uri).leaves l).state _
      unfold announces
      dsimp only
      cases hr : l.state.registered.get? uri with
      | none => exact Removal.announces_start_of_none ha hh fun id h => nomatch hr.symm.trans h
      | some id =>
          dsimp only
          cases hw : l.state.workspaces[id]? with
          | none => exact Removal.announces_start_of_none ha hh fun id' h => by cases hr.symm.trans h; exact hw
          | some w => exact Removal.announces_start ha hh hr hw
  | resumes removal signal =>
      show l.state.Announces ((Removal.resume removal signal).leaves l).state []
      unfold Removal.resume
      split
      · rw [Act.leaves_bind, Act.leaves_pure]
        exact Removal.announces_deleteMirror ha hh _ _
      · rw [Act.leaves_pure]
        exact .refl ha hh
  | registers folder => exact JointInitialization.announces_register ha hh folder
  | tracks documents => exact ⟨ha, hh, fun _ => rfl, fun _ => rfl⟩

/-- However much happens, it is announced as it should be. -/
theorem announces_after (ha : l.state.Agreed) (hh : l.state.isHeard) (is : List Incident) :
    l.state.Announces (after l is).state (announced l is) := by
  induction is generalizing l with
  | nil => exact .refl ha hh
  | cons i rest ih =>
      have hfirst := announces_act ha hh i
      exact hfirst.trans (ih hfirst.agreed hfirst.isHeard)

end Incident

/-! ## Any number of incidents -/

namespace Delivery

open Incident

/-- Once a workspace has told of a document in its last report, it has the document on its list, and the client
hears what was announced of the document last, by whichever workspace: the report, as long as no other workspace has
anything to say of the document or to take back of it. -/
theorem diagnostics_stay_until_others_announce (ha : l.state.Agreed) (hh : l.state.isHeard) {id : WorkspaceId}
    {w : Workspace} (hw : l.state.workspaces[id]? = some w) (hstate : w.state ≠ .removed)
    {outcome : CompileOutcome CompilerReport} {ds : List AddressedDiagnostic}
    (hshown : shown? l.state w outcome = some ds) {more : List Incident}
    (hlast : ∀ a ∈ announced ((deliver id outcome).leaves l) more, a.speaker ≠ id) :
    let l₁ := (deliver id outcome).leaves l
    let l₂ := Incident.after l₁ more
    ∀ uri, findingsFor uri ds ≠ [] →
      uri ∈ l₂.state.listOf id ∧
      l₂.state.heard uri =
        some (((announced l₁ more).reverse.findSome? (·.word? uri)).getD (findingsFor uri ds)) ∧
      ((∀ a ∈ announced l₁ more, ¬a.IsAbout uri) → l₂.state.heard uri = some (findingsFor uri ds)) := by
  intro l₁ l₂ uri huri
  have hdelivered : l.state.Announces l₁.state [⟨id, w.published, ds⟩] := by
    have h := announces_deliver ha hh id outcome
    unfold announces at h
    dsimp only at h
    rw [hw] at h
    dsimp only at h
    rwa [if_neg hstate, hshown] at h
  have hafter := announces_after hdelivered.agreed hdelivered.isHeard more
  have hfound : uri ∈ ds.map (·.uri) := findingsFor_ne_nil_iff.mp huri
  have hword : l₁.state.heard uri = some (findingsFor uri ds) := by
    have hself : (Announcement.mk id w.published ds).word? uri = some (findingsFor uri ds) := if_pos (.inr hfound)
    rw [hdelivered.heard, List.reverse_singleton, List.findSome?_singleton, hself]
    rfl
  have hheard : l₂.state.heard uri =
      some (((announced l₁ more).reverse.findSome? (·.word? uri)).getD (findingsFor uri ds)) := by
    rw [hafter.heard, hword]
    cases (announced l₁ more).reverse.findSome? (·.word? uri) <;> rfl
  refine ⟨?_, hheard, fun hothers => ?_⟩
  · -- The workspace is the speaker of no later announcement, so its list is that of its own.
    have hnone : (announced l₁ more).reverse.find? (·.speaker = id) = none :=
      List.find?_eq_none.mpr fun a hm => by simpa using hlast a (List.mem_reverse.mp hm)
    rw [hafter.lists, hnone, Option.map_none, Option.getD_none, hdelivered.lists]
    simpa using mem_keys_groupByUri.mpr hfound
  · have hnone : (announced l₁ more).reverse.findSome? (·.word? uri) = none :=
      List.findSome?_eq_none_iff.mpr fun a hm =>
        Announcement.word?_eq_none_iff.mpr (hothers a (List.mem_reverse.mp hm))
    rw [hheard, hnone]
    rfl

/-- A server with a folder and another folder inside it. -/
def nestedFolders : Loop ServerState Operation :=
  Incident.after { state := Server.sample [] } [.registers ⟨"file:///p", ""⟩, .registers ⟨"file:///p/q", ""⟩]

/-- An error in a file that stands in both folders, as the compiler of the inner one reports it. -/
def errorWithin : CompileOutcome CompilerReport := outcomeOf "main.ink" "ERROR: 'main.ink' line 1: bad" 1

/-- The inner folder. -/
def innerFolder : Workspace where
  uri := "file:///p/q"
  root := .ofText "/p/q"
  name := ""
  scheduler := { workspace := "file:///p/q" }

theorem agreed_nestedFolders : nestedFolders.state.Agreed :=
  (announces_after (l := { state := Server.sample [] }) (fun _ hp => nomatch hp) rfl _).agreed

/-- The error is shown as one diagnostic of the file. -/
theorem errorWithin_is_shown : ∃ ds d, shown? nestedFolders.state innerFolder errorWithin = some ds ∧
    findingsFor "file:///p/q/main.ink" ds = [d] ∧ d.message = "bad" := by
  have h : ((shown? nestedFolders.state innerFolder errorWithin).map fun ds =>
      (findingsFor "file:///p/q/main.ink" ds).map (·.message)) = some ["bad"] := by decide +kernel
  obtain ⟨ds, hshown, hmessages⟩ := Option.map_eq_some_iff.mp h
  obtain ⟨d, hd, hmessage⟩ := List.map_eq_singleton_iff.mp hmessages
  exact ⟨ds, d, hshown, hd, hmessage⟩

/-- Another error in the outer folder leaves the one inside to be seen. -/
theorem error_within_stays_beside_another :
    ∃ d, d.message = "bad" ∧
      (Incident.after ((deliver 1 errorWithin).leaves nestedFolders)
        [.delivers 0 (outcomeOf "main.ink" "ERROR: 'main.ink' line 1: worse" 1)]).state.heard
          "file:///p/q/main.ink" = some [d] := by
  obtain ⟨ds, d, hshown, hd, hmessage⟩ := errorWithin_is_shown
  have hothers : ∀ a ∈ announced ((deliver 1 errorWithin).leaves nestedFolders)
      [.delivers 0 (outcomeOf "main.ink" "ERROR: 'main.ink' line 1: worse" 1)],
      a.speaker ≠ 1 ∧ ¬a.IsAbout "file:///p/q/main.ink" := by decide +kernel
  have hstays := diagnostics_stay_until_others_announce agreed_nestedFolders rfl (w := innerFolder) rfl (by decide)
    hshown (fun a hm => (hothers a hm).1) "file:///p/q/main.ink" (hd ▸ List.cons_ne_nil _ _)
  refine ⟨d, hmessage, ?_⟩
  rw [hstays.2.2 fun a hm => (hothers a hm).2, hd]

/-- A report of the outer folder about a file of the inner one takes the place of what that one reported. -/
theorem nested_workspaces_erase_diagnostics_of_each_other :
    ¬ ∀ (l : Loop ServerState Operation) (id : WorkspaceId) (w : Workspace)
        (outcome : CompileOutcome CompilerReport) (ds : List AddressedDiagnostic) (more : List Incident)
        (uri : String), l.state.Agreed → l.state.isHeard → l.state.workspaces[id]? = some w → w.state ≠ .removed →
        shown? l.state w outcome = some ds →
        (∀ a ∈ announced ((deliver id outcome).leaves l) more, a.speaker ≠ id) →
        ∀ d ∈ findingsFor uri ds, ∃ list,
          (Incident.after ((deliver id outcome).leaves l) more).state.heard uri = some list ∧ d ∈ list := by
  intro h
  obtain ⟨ds, d, hshown, hd, hmessage⟩ := errorWithin_is_shown
  let more : List Incident := [.delivers 0 (outcomeOf "main.ink" "ERROR: 'q/main.ink' line 1: worse" 1)]
  have hothers : ∀ a ∈ announced ((deliver 1 errorWithin).leaves nestedFolders) more, a.speaker ≠ 1 := by
    decide +kernel
  obtain ⟨list, hheard, hmem⟩ := h nestedFolders 1 innerFolder errorWithin ds more "file:///p/q/main.ink"
    agreed_nestedFolders rfl rfl (by decide) hshown hothers d (hd ▸ List.mem_singleton_self d)
  have hlost : ((Incident.after ((deliver 1 errorWithin).leaves nestedFolders) more).state.heard
      "file:///p/q/main.ink").all fun list => list.all fun d => d.message ≠ "bad" := by decide +kernel
  rw [hheard] at hlost
  exact of_decide_eq_true (List.all_eq_true.mp hlost d hmem) hmessage

end Delivery

end InkServer
