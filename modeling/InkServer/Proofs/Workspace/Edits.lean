import InkServer.Proofs.Workspace.Requests
import InkServer.Workspace.Edit

/-!
# How an edit goes

An edit writes its text, looks up its settings and compiles. When it ends well it was compiled, and its request
is over.
-/

namespace InkServer

open ServerState ServerAct

variable {o : Outset} {s : ServerState} {l : Loop ServerState Operation} {task : TaskId}

/-! ## Taking in the text -/

/-- A document that is a source of the workspace. -/
def Outset.isSource (o : Outset) (document : OpenDocument) : Prop :=
  ∃ path, Uri.toPath document.uri = .ok path ∧ o.policy.isSource path ∧ path.isInside o.root

/-- The workspace of a path inside its root is found. -/
theorem Course.findWorkspace (h : Course o s) {path : Path} (hp : path.isInside o.root) :
    s.findWorkspace path = some o.id := by
  obtain ⟨w, hw, hprogress⟩ := h.progress
  have hregistered : s.registeredWorkspaces = [(o.id, w)] := by
    unfold registeredWorkspaces
    rw [h.alone]
    simp [hw]
  unfold ServerState.findWorkspace
  rw [hregistered]
  simp [hprogress.root, hp, deeper]

namespace Applying

theorem goes_afterWriting {part : ServerAct (Step DocumentWrite MirrorEntry)} (h : Course o l.state)
    (hu : Underway o l.current l.state) (hp : Proceeds part l (Waits DocumentWrite.Fits))
    (hq : Quietly o.id part l) :
    Goes o (afterWriting o.id part) l
      (fun state s => (∃ write, state = .writing o.id write) ∧ Underway o l.current s)
      fun a s => a = ⟨.applied, some o.id⟩ ∧ Written o l.current s := by
  refine .afterwards h hp hq (fun write l' hq _ => ⟨⟨write, rfl⟩, hu.quiet h.begun hq⟩) fun r l₁ hq hcourse _ => ?_
  have hunderway := hu.quiet h.begun hq
  split
  · rw [goes_self]
    have hnote : Quietly o.id (note (.applied l₁.current o.id)) l₁ := quietly_note rfl
    have hlead : Leads l₁.state ((note (.applied l₁.current o.id)).leaves l₁).state := .single (.casually rfl)
    have hsince : o.since ((note (.applied l₁.current o.id)).leaves l₁).state =
        o.since l₁.state ++ [.applied l₁.current o.id] := Outset.since_of_events_eq hcourse.begun.le_length rfl
    refine .quietly hcourse hlead hnote (.done_of (hcourse.quiet hlead hnote) ⟨rfl, hunderway.quiet hcourse.begun hnote, ?_⟩)
    rw [hsince, hq.current]
    exact List.mem_append_right _ (List.mem_singleton_self _)
  · rename_i e _
    refine ⟨.single (.casually rfl), fun hcalm => ?_⟩
    refine absurd hcalm (not_calm_of_leads hcourse.begun (e := .noticed (.serverError (some e.message))) rfl
      (List.mem_singleton_self _) trivial .refl)
  · exact .fails

/-- The text of a ready workspace is written. -/
theorem goes_afterPreparing (document : OpenDocument) {path : Path} (h : Course o l.state)
    (hp : path.isInside o.root) (hu : Underway o l.current l.state) :
    Goes o (afterPreparing document path o.id (ensureReady o.id)) l
      (fun state s => (∃ write, state = .writing o.id write) ∧ Underway o l.current s)
      fun a s => a = ⟨.applied, some o.id⟩ ∧ Written o l.current s := by
  refine .andThen h (goes_ensureReady h) (fun _ _ h => h.elim) (p := Waits Fits) (fun ready l' => ?_)
    fun ready l₁ hpaced hready => ?_
  · split
    · exact .ends
    · rw [proceeds_workspace?]
      split
      · exact .ends
      · exact proceeds_afterWriting o.id (DocumentWrite.proceeds_start o.id _ _)
  · obtain ⟨hready, hevents⟩ := hready
    obtain ⟨w, hw, hprogress⟩ := hpaced.course.progress
    have hunderway : Underway o l₁.current l₁.state := by
      rw [← List.append_nil l.state.events] at hevents
      rw [hpaced.current]
      exact hu.append h.begun hevents fun _ => List.not_mem_nil
    rw [if_neg (by rw [hready]; decide), goes_workspace?, hw, Option.bind_some, hprogress.root]
    split
    · rename_i hnone
      rw [Path.isInside, hnone] at hp
      cases hp
    · rename_i relative _
      rw [← hpaced.current]
      exact goes_afterWriting hpaced.course hunderway (DocumentWrite.proceeds_start o.id relative _)
        (DocumentWrite.quietly_start relative _)

/-- A text is received. -/
theorem paced_receives (h : Course o l.state) (hnone : ∀ r, .admitted l.current o.id r ∉ o.since l.state)
    {document : OpenDocument} {t : TrackedDocument} {documents : Documents}
    (hc : l.state.documents.change document = .ok (t, documents)) :
    Paced o l { l with
      state := { l.state with documents, events := l.state.events ++ [.received l.current document] } } := by
  have hlead : Leads l.state { l.state with documents, events := l.state.events ++ [.received l.current document] } :=
    .single (.receives l.current hc)
  refine ⟨rfl, ⟨[], (List.append_nil _).symm, rfl, rfl, fun _ h => absurd h List.not_mem_nil⟩,
    ⟨[.received l.current document], rfl, fun e hm task ht => ?_⟩, ?_, fun _ hc => hc⟩
  · rw [List.mem_singleton.mp hm] at ht
    exact (Option.some.inj ht).symm
  · refine h.grows hlead rfl rfl rfl (fun e hm => .inr ⟨l.current, document, List.mem_singleton.mp hm, hnone⟩)
      (fun hn => absurd (List.mem_singleton_self _) (hn l.current document)) fun w hw => ⟨w, hw, .refl w⟩

theorem goes_start {document : OpenDocument} (h : Course o l.state) (hd : o.isSource document)
    (hnone : ∀ r, .admitted l.current o.id r ∉ o.since l.state) :
    Goes o (start document) l
      (fun state s => (∃ write, state = .writing o.id write) ∧ Underway o l.current s)
      fun a s => a = ⟨.applied, some o.id⟩ ∧ Written o l.current s := by
  obtain ⟨path, hpath, hsource, hinside⟩ := hd
  unfold start
  rw [goes_self, goes_note_state, hpath]
  dsimp only
  cases hc : l.state.documents.change document with
  | error e =>
      exact ⟨.single (.casually rfl), fun _ x hx => by cases hx⟩
  | ok r =>
      obtain ⟨t, documents⟩ := r
      dsimp only
      have hpolicy : l.state.policy.isSource path := by
        rw [h.policy]
        exact hsource
      rw [goes_note_setState, if_pos hpolicy]
      have hpaced := paced_receives h hnone hc
      have hcourse := hpaced.course
      have hfind := hcourse.findWorkspace hinside
      refine .after (.single (.receives l.current hc)) hpaced ?_
      refine .afterwards hcourse (p := fun step _ => step = .done o.id) ?_ ?_ (fun _ _ _ hstep => by cases hstep)
        fun r l₁ hq hcourse₁ hr => ?_
      · unfold Locating.start
        rw [proceeds_state, Act.leaves_setState]
        dsimp only
        rw [hfind]
        exact .pure rfl
      · unfold Locating.start
        rw [quietly_state, Act.leaves_setState]
        dsimp only
        rw [hfind]
        exact quietly_pure _
      · cases hr
        have hunderway : Underway o l₁.current l₁.state := by
          rw [hq.current]
          exact (underway_of_received h.begun rfl hnone).quiet hcourse.begun hq
        have hgoes := goes_afterPreparing document hcourse₁ hinside hunderway
        rw [hq.current] at hgoes
        exact hgoes

end Applying

/-! ## Edits -/

namespace Edit

/-- Where an edit stands that waits. -/
def Stands (o : Outset) (task : TaskId) : Edit → ServerState → Prop
  | .applying _ state, s => (∃ write, state = .writing o.id write) ∧ Underway o task s
  | .configuring id _, s => id = o.id ∧ Written o task s
  | .compiling state, s => ∃ request, state.Stands o task request s

/-- An edit that has ended well: its request is over. -/
def IsOver (o : Outset) (task : TaskId) (status : SyncStatus) (s : ServerState) : Prop :=
  status = .compiled ∧ ∃ request, AdmittedAs o task request s ∧ Concluded o request s

theorem goes_afterCompiling (h : Course o l.state) {part : ServerAct (Step Compilation CompileSummary)}
    (hp : Goes o part l (fun state s => ∃ request, state.Stands o task request s)
      fun _ s => ∃ request, AdmittedAs o task request s ∧ Concluded o request s) :
    Goes o (afterCompiling part) l (Stands o task) (IsOver o task) :=
  .andThen h hp (fun _ _ hs => hs) (p := Waits Fits) (fun _ _ => .ends) fun _ _ hpaced hd =>
    .done_of hpaced.course ⟨rfl, hd⟩

theorem goes_afterConfiguring (h : Course o l.state) (hw : Written o l.current l.state)
    {part : ServerAct (Step SettingsLookup Settings)} (hp : Proceeds part l (Waits Bare))
    (hq : Quietly o.id part l) :
    Goes o (afterConfiguring o.id part) l (Stands o l.current) (IsOver o l.current) := by
  refine .afterwards h hp hq (fun state l' hq _ => ⟨rfl, hw.quiet h.begun hq⟩) fun r l₁ hq hcourse _ => ?_
  cases r with
  | error f => exact .fails
  | ok settings =>
      have hgoes := Compilation.goes_start settings hcourse (hq.current ▸ hw.quiet h.begun hq)
      rw [hq.current] at hgoes
      exact goes_afterCompiling hcourse hgoes

theorem goes_afterApplying (document : OpenDocument) (h : Course o l.state) {part : ServerAct (Step Applying Applied)}
    (hp : Goes o part l (fun state s => (∃ write, state = .writing o.id write) ∧ Underway o l.current s)
      fun a s => a = ⟨.applied, some o.id⟩ ∧ Written o l.current s) :
    Goes o (afterApplying document part) l (Stands o l.current) (IsOver o l.current) := by
  refine .andThen h hp (fun _ _ hs => hs) (p := Waits Fits) (fun a l' => ?_) fun a l₁ hpaced hd => ?_
  · split
    · exact proceeds_afterConfiguring _ (SettingsLookup.proceeds_start document.uri)
    · exact .ends
  · obtain ⟨rfl, hw⟩ := hd
    have hgoes := goes_afterConfiguring hpaced.course (hpaced.current ▸ hw)
      (SettingsLookup.proceeds_start document.uri) (SettingsLookup.quietly_start document.uri)
    rw [hpaced.current] at hgoes
    exact hgoes

/-- An edit that begins. -/
theorem goes_start {document : OpenDocument} (h : Course o l.state) (hd : o.isSource document)
    (hnone : ∀ r, .admitted l.current o.id r ∉ o.since l.state) :
    Goes o (start document) l (Stands o l.current) (IsOver o l.current) :=
  goes_afterApplying document h (Applying.goes_start h hd hnone)

/-- An edit that goes on. -/
theorem goes_resume {state : Edit} (h : Course o l.state) (hs : state.Stands o l.current l.state)
    (hf : state.Fits l.state) (signal : Signal) :
    Goes o (resume state signal) l (Stands o l.current) (IsOver o l.current) := by
  cases state with
  | applying document state =>
      obtain ⟨⟨write, rfl⟩, hu⟩ := hs
      exact goes_afterApplying document h (Applying.goes_afterWriting h hu
        (DocumentWrite.proceeds_resume hf signal) (DocumentWrite.quietly_resume write signal))
  | configuring id state =>
      obtain ⟨rfl, hw⟩ := hs
      exact goes_afterConfiguring h hw (SettingsLookup.proceeds_resume state signal)
        (SettingsLookup.quietly_resume state signal)
  | compiling state =>
      obtain ⟨request, hs⟩ := hs
      refine goes_afterCompiling h ((Compilation.goes_resume h hs hf signal).mono ?_ ?_)
      · exact fun _ _ hs => ⟨request, hs⟩
      · exact fun _ _ hd => ⟨request, hd⟩

end Edit

end InkServer
