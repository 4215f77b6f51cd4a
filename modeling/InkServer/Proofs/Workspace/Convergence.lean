import InkServer.Proofs.Workspace.Editing
import InkServer.Proofs.Workspace.Overtaken

/-!
# Edits converge

However the edits of a workspace run into each other, once all of them have ended the report that was
delivered last is that of the latest request. Its compiler was started when the text of every edit was in the
mirror, and the client has heard exactly what the report says.
-/

namespace InkServer

open ServerState

variable {o : Outset} {s s' : ServerState}

/-! ## What is accepted was admitted -/

/-- No workspace has accepted a request that was not admitted. -/
def ServerState.Admits (s : ServerState) : Prop := ∀ w ∈ s.workspaces, w.scheduler.accepted ≤ w.scheduler.latest

theorem Workspace.Turn.accepted_le {id : WorkspaceId} {w w' : Workspace}
    {lists : List (String × List Diagnostic)} {record : List Event} (h : w.Turn s id w' lists record)
    (hw : w.scheduler.accepted ≤ w.scheduler.latest) : w'.scheduler.accepted ≤ w'.scheduler.latest := by
  cases h with
  | admits => exact Nat.le_succ_of_le hw
  | accepts request =>
      dsimp only
      rw [Scheduler.accept_snd]
      split
      · exact Nat.le_refl _
      · exact hw
  | _ => exact hw

theorem ServerState.Admits.set (hs : s.Admits) {id : WorkspaceId} {w : Workspace}
    (hw : w.scheduler.accepted ≤ w.scheduler.latest) {x : Workspace} (hx : x ∈ s.workspaces.set id w) :
    x.scheduler.accepted ≤ x.scheduler.latest := by
  rcases List.mem_or_eq_of_mem_set hx with hx | rfl
  · exact hs x hx
  · exact hw

theorem ServerState.Admits.change (hs : s.Admits) (h : Change s s') : s'.Admits := by
  cases h with
  | aside h =>
      intro w hw
      rw [h.workspaces] at hw
      exact hs w hw
  | notes | works | opens | receives | closes => exact hs
  | @registers folder w hf hr =>
      intro x hx
      rcases List.mem_append.mp hx with hx | hx
      · exact hs x hx
      · rw [List.mem_singleton.mp hx]
        unfold Workspace.ofFolder at hf
        cases hp : Uri.toPath folder.uri with
        | error e =>
            rw [hp] at hf
            cases hf
        | ok root =>
            rw [hp] at hf
            cases hf
            exact Nat.le_refl _
  | turns hw h =>
      intro x hx
      rw [moved_workspaces] at hx
      exact hs.set (h.accepted_le (hs _ (List.mem_of_getElem? hw))) hx
  | @removes uri id w hr hw =>
      intro x hx
      dsimp only at hx
      rw [moved_workspaces] at hx
      exact hs.set (w := { w.enter .removed with initializations := w.initializations + 1, published := [] })
        (hs w (List.mem_of_getElem? hw)) hx
  | @dismisses uri id w hr hw =>
      intro x hx
      dsimp only at hx
      rw [moved_workspaces] at hx
      exact hs.set (w := w.enter .removed) (hs w (List.mem_of_getElem? hw)) hx

theorem ServerState.Steps.admits {allowed : Foreign → Prop} (h : Steps allowed s s') (hs : s.Admits) : s'.Admits := by
  induction h with
  | refl => exact hs
  | tail _ h ih =>
      cases h with
      | own h => exact ih.change h
      | foreign => exact ih

namespace Server

/-! ## Before the edits -/

/-- A server that is connected to its client and has one workspace, which is ready, and nothing to do. -/
structure AwaitsEdits (id : WorkspaceId) (w : Workspace) (s : Server) : Prop where
  alone : s.state.registered.values = [id]
  workspace : s.state.workspaces[id]? = some w
  ready : w.isReady
  heard : s.state.isHeard
  tasks : s.tasks = []

/-- Where edits begin. -/
def outset (id : WorkspaceId) (w : Workspace) (s : ServerState) : Outset :=
  ⟨id, w.root, s.policy, s.events.length, w.scheduler.latest⟩

theorem since_outset (id : WorkspaceId) (w : Workspace) (s : ServerState) : (outset id w s).since s = [] :=
  List.drop_length

theorem AwaitsEdits.edited {s : ServerState} (hs : IsFresh s) (hp : ∀ p, s.publisher = some p → p.last = {})
    {setup : List (Session.Move External)} {id : WorkspaceId} {w : Workspace} (h : AwaitsEdits id w (run s setup)) :
    Edited (outset id w (run s setup).state) (run s setup) := by
  have hlawful : Lawful (run s setup) := ((lawful_ofState hs).after fun _ _ => allows_all).1
  have hsteps : Steps (fun _ => True) s (run s setup).state := steps_run hs fun _ _ => allows_all
  have hnone := since_outset id w (run s setup).state
  have hadmits : s.Admits := fun w hw => by
    rw [hs.workspaces] at hw
    cases hw
  have hagreed : s.Agreed := fun p hpub uri version ds hget => by
    rw [hp p hpub] at hget
    cases hget
  have hestablished : (run s setup).state.Established :=
    ⟨hlawful.sound, Steps.accounted hsteps hs.accounted, Steps.agreed hsteps hagreed, h.heard⟩
  have haccepted : w.scheduler.accepted ≤ w.scheduler.latest :=
    Steps.admits hsteps hadmits w (List.mem_of_getElem? h.workspace)
  have hbegun : (outset id w (run s setup).state).Begun (run s setup).state := by
    refine ⟨Nat.le_refl _, fun r hm => ?_⟩
    obtain ⟨before, since, he⟩ := List.append_of_mem (List.mem_of_mem_take hm)
    obtain ⟨w', hw', hle, _⟩ := (Steps.ran hsteps hs.sound hs.events id r before since he).latest
    rw [h.workspace] at hw'
    cases hw'
    exact hle
  have hadmissions : Admissions (outset id w (run s setup).state) [] w := by
    refine ⟨Nat.le_refl _, fun hlt => absurd hlt (Nat.lt_irrefl _), fun _ _ hm => absurd hm List.not_mem_nil,
      fun before task r after he => ?_⟩
    exact absurd (congrArg List.length he) (by simp)
  refine ⟨hlawful, ⟨hestablished, h.alone, rfl, hbegun, w, h.workspace, rfl, h.ready, haccepted, ?_, ?_⟩, ?_, ?_, ?_,
    ?_, ?_⟩
  · rw [hnone]
    exact hadmissions
  · exact fun hlt => absurd hlt (Nat.lt_irrefl _)
  · rw [h.tasks]
    exact fun _ hm => absurd hm List.not_mem_nil
  · rw [hnone]
    exact fun _ hm => absurd hm List.not_mem_nil
  · rw [h.tasks]
    exact fun _ hm => absurd hm List.not_mem_nil
  · rw [hnone]
    exact fun _ _ hm => absurd hm List.not_mem_nil
  · rw [hnone]
    exact fun _ _ hm => absurd hm List.not_mem_nil

/-! ## When all edits have ended -/

/-- Whatever was admitted is over once no edit is on its way. -/
theorem Edited.concluded {o : Outset} {s : Server} (h : Edited o s)
    (hrest : ∀ task document, .received task document ∈ o.since s.state → s.isPending task = false)
    {task : TaskId} {r : CompileRequest} (hm : .admitted task o.id r ∈ o.since s.state) : Concluded o r s.state := by
  rcases h.admitted task r hm with hc | ⟨job, run, hmem⟩
  · exact hc
  · have hstands : Edit.Stands o task (.compiling (.running job r run)) s.state := h.stands _ hmem
    obtain ⟨document, hreceived⟩ := hstands.received
    have hnone : s.task? task = none := Option.isNone_iff_eq_none.mp (by simpa [Session.isPending] using hrest task document hreceived)
    exact absurd hmem (Session.not_mem_of_task? hnone _)

/-- Every edit was compiled once none is on its way. -/
theorem Edited.compiled {o : Outset} {s : Server} (h : Edited o s)
    (hrest : ∀ task document, .received task document ∈ o.since s.state → s.isPending task = false)
    {task : TaskId} {document : OpenDocument} (hm : .received task document ∈ o.since s.state) :
    (task, .ok (.status .compiled)) ∈ s.ended ∧ ∃ r, .admitted task o.id r ∈ o.since s.state := by
  rcases h.received task document hm with ⟨state, hmem⟩ | hended
  · have hnone : s.task? task = none := Option.isNone_iff_eq_none.mp (by simpa [Session.isPending] using hrest task document hm)
    exact absurd hmem (Session.not_mem_of_task? hnone _)
  · exact hended

/-- What edits have come to: the report that was delivered last is that of the latest request, its compiler was
started when the text of every edit was in the mirror, and the client has heard what it is shown as. -/
structure Converged (o : Outset) (s : Server) (request : CompileRequest) (report : CompilerReport)
    (diagnostics : List AddressedDiagnostic) (before during after : List Event) : Prop where
  record : o.since s.state =
    before ++ .started o.id request :: (during ++ .delivered o.id request diagnostics.length :: after)
  last : ∀ r count, .delivered o.id r count ∉ after
  admitted : ∃ task, .admitted task o.id request ∈ before
  highest : ∀ task r, .admitted task o.id r ∈ o.since s.state → r.generation ≤ request.generation
  applied : ∀ task document, .received task document ∈ o.since s.state → .applied task o.id ∈ before
  compiled : ∀ task document, .received task document ∈ o.since s.state →
    (task, .ok (.status .compiled)) ∈ s.ended
  reported : .reported o.id request report ∈ during
  shown : report.shown s.state.documents.uriForPath o.root = .ok diagnostics
  heard : s.state.Tells o.id diagnostics

/-- Nothing is admitted after the compiler for the latest request was started. -/
theorem admitted_before_start {s : Server} {w : Workspace} {before rest : List Event}
    (hw : s.state.workspaces[o.id]? = some w) (he : o.since s.state = before ++ .started o.id w.latestRequest :: rest)
    (hran : s.state.Ran o.id w.latestRequest rest) {task : TaskId} {r : CompileRequest}
    (hm : .admitted task o.id r ∈ o.since s.state) : .admitted task o.id r ∈ before := by
  rw [he] at hm
  rcases List.mem_append.mp hm with hm | hm
  · exact hm
  · rcases List.mem_cons.mp hm with hm | hm
    · cases hm
    · obtain ⟨w', hw', _, hlt⟩ := hran.latest
      rw [hw] at hw'
      cases hw'
      exact absurd (hlt task r hm) (Int.lt_irrefl _)

/-- Edits have converged once none is on its way. -/
theorem Edited.converges {o : Outset} {s : Server} (h : Edited o s)
    (hran : ∀ request before rest, s.state.events = before ++ .started o.id request :: rest →
      s.state.Ran o.id request rest)
    (hrest : ∀ task document, .received task document ∈ o.since s.state → s.isPending task = false)
    {task : TaskId} {document : OpenDocument} (hm : .received task document ∈ o.since s.state) :
    ∃ request report diagnostics before during after, Converged o s request report diagnostics before during after := by
  obtain ⟨w, hw, hprogress⟩ := h.course.progress
  -- The latest request was admitted since, and it is over.
  obtain ⟨_, r, hr⟩ := h.compiled hrest hm
  have hlater : o.first < w.scheduler.latest := by
    obtain ⟨hlt, hle, _⟩ := hprogress.admissions.admitted _ r hr
    exact Int.ofNat_lt.mp (Int.lt_of_lt_of_le hlt hle)
  obtain ⟨last, hlast⟩ := hprogress.admissions.latest hlater
  have haccepted : w.scheduler.accepted = w.scheduler.latest := (h.concluded hrest hlast w hw).2 rfl
  obtain ⟨report, diagnostics, before, during, after, hsince, hreported, hnone, hshown, htells⟩ :=
    hprogress.delivered hlater haccepted
  have hrecord : s.state.events = (s.state.events.take o.mark ++ before) ++ .started o.id w.latestRequest ::
      (during ++ .delivered o.id w.latestRequest diagnostics.length :: after) := by
    rw [List.append_assoc, ← hsince]
    exact (List.take_append_drop o.mark _).symm
  have hbefore : ∀ {task r}, .admitted task o.id r ∈ o.since s.state → .admitted task o.id r ∈ before :=
    fun hm => admitted_before_start hw hsince (hran _ _ _ hrecord) hm
  have hordered : ∀ {task document}, .received task document ∈ o.since s.state →
      .applied task o.id ∈ before ∧ .received task document ∉ after := by
    intro task document hm
    obtain ⟨_, r, hr⟩ := h.compiled hrest hm
    obtain ⟨first, rest, rfl⟩ := List.append_of_mem (hbefore hr)
    rw [List.append_assoc, List.cons_append] at hsince
    obtain ⟨happlied, hreceived⟩ := hprogress.admissions.ordered first task r _ hsince
    refine ⟨List.mem_append_left _ happlied, fun hafter => hreceived document ?_⟩
    exact List.mem_append_right _ (List.mem_cons_of_mem _ (List.mem_append_right _ (List.mem_cons_of_mem _ hafter)))
  have hunreceived : ∀ task document, .received task document ∉ after := by
    intro task document hafter
    refine (hordered ?_).2 hafter
    rw [hsince]
    exact List.mem_append_right _ (List.mem_cons_of_mem _ (List.mem_append_right _ (List.mem_cons_of_mem _ hafter)))
  exact ⟨w.latestRequest, report, diagnostics, before, during, after, hsince, hnone, ⟨last, hbefore hlast⟩,
    fun task r hm => (hprogress.admissions.admitted task r hm).2.1, fun task document hm => (hordered hm).1,
    fun task document hm => (h.compiled hrest hm).1, hreported, hshown hunreceived, htells⟩

/-- However the edits of the only workspace interleave, they have converged when the last of them has ended, as
long as the directory of the mirror does not disappear and none of them fails. -/
theorem edits_converge {s : ServerState} (hs : IsFresh s) (hp : ∀ p, s.publisher = some p → p.last = {})
    {setup moves : List (Session.Move External)} {id : WorkspaceId} {w : Workspace}
    (hw : AwaitsEdits id w (run s setup))
    (hm : ∀ move ∈ moves, IsEditing (outset id w (run s setup).state) move)
    (hu : Undisturbed (outset id w (run s setup).state) (run s (setup ++ moves)))
    (hrest : ∀ task document, .received task document ∈ (outset id w (run s setup).state).since
      (run s (setup ++ moves)).state → (run s (setup ++ moves)).isPending task = false)
    (hsome : ∃ task document, .received task document ∈ (outset id w (run s setup).state).since
      (run s (setup ++ moves)).state) :
    ∃ request report diagnostics before during after, Converged (outset id w (run s setup).state)
      (run s (setup ++ moves)) request report diagnostics before during after := by
  obtain ⟨task, document, hreceived⟩ := hsome
  have hsteps : Steps (fun _ => True) s (run s (setup ++ moves)).state := steps_run hs fun _ _ => allows_all
  have hafter : run s (setup ++ moves) = (run s setup).after serverMachine External.act moves :=
    Session.after_append _ _ _
  have hedited : Edited (outset id w (run s setup).state) (run s (setup ++ moves)) := by
    rw [hafter] at hu ⊢
    exact (hw.edited hs hp).after hm hu
  exact hedited.converges (fun request before rest he => Steps.ran hsteps hs.sound hs.events id request before rest he)
    hrest hreceived

/-! ## Two edits -/

/-- A compile that is held, and one that ends at once. -/
def twoReports : List (Option Behaviour) :=
  [some { output := "ERROR: 'a.ink' line 1: old".toUTF8, status := some 1, held := true },
    some { output := "ERROR: 'a.ink' line 1: new".toUTF8, status := some 1 }]

/-- A folder is added. -/
def addFolder : List (Session.Move External) := [.outside (.asks (.add ⟨"file:///p", ""⟩)), .turn]

/-- A text is received while the compiler runs for an older one. -/
def twoEdits : List (Session.Move External) :=
  [.outside (.asks (.edit (sampleDocument 1 "One."))), .turn, .outside (.asks (.edit (sampleDocument 2 "Two."))),
    .turn, .passes 1 .go, .turn, .turn, .turn, .turn, .turn, .turn, .turn]

/-- Whether an event may have disturbed edits. -/
def mayDisturb : Event → Bool
  | .noticed _ | .missed _ => true
  | _ => false

theorem mayDisturb_of_disturbs {id : WorkspaceId} {e : Event} (h : e.disturbs id) : mayDisturb e := by
  cases e <;> first | rfl | cases h

/-- What the record of a server says since another one. -/
def recordSince (earlier later : Server) : List Event := later.state.events.drop earlier.state.events.length

variable {s t : Server} {id : WorkspaceId} {w : Workspace}

theorem exists_received_since {task : TaskId} (id : WorkspaceId) (w : Workspace)
    (h : (recordSince s t).any (receivesStory task)) :
    ∃ document, .received task document ∈ (outset id w s.state).since t.state := by
  obtain ⟨document, hm, _⟩ := exists_received h
  exact ⟨document, hm⟩

/-- Where all results are good and nothing was found missing nothing has disturbed edits. -/
theorem undisturbed_of_all (hc : (recordSince s t).all fun e => !mayDisturb e) (he : t.ended.all fun r => r.2.isOk) :
    Undisturbed (outset id w s.state) t := by
  refine ⟨fun e hm hd => ?_, fun task f document hm => ?_⟩
  · have hnone := List.all_eq_true.mp hc e hm
    rw [mayDisturb_of_disturbs hd] at hnone
    cases hnone
  · cases List.all_eq_true.mp he _ hm

theorem isEditing_twoEdits {s : ServerState} (hp : s.policy.isSource (.ofText "/p/a.ink")) (hw : w.root = .ofText "/p") :
    ∀ move ∈ twoEdits, IsEditing (outset id w s) move := by
  have hpath : Uri.toPath "file:///p/a.ink" = .ok (.ofText "/p/a.ink") := by decide +kernel
  have hinside : (Path.ofText "/p/a.ink").isInside w.root := by
    rw [hw]
    decide
  have hedits : ∀ version text, IsEditing (outset id w s) (.outside (.asks (.edit (sampleDocument version text)))) :=
    fun version text => .edits ⟨.ofText "/p/a.ink", hpath, hp, hinside⟩
  unfold twoEdits
  simp only [List.forall_mem_cons]
  exact ⟨hedits 1 "One.", .turn, hedits 2 "Two.", .turn, .passes 1 .go, .turn, .turn, .turn, .turn, .turn, .turn,
    .turn, fun _ hm => absurd hm List.not_mem_nil⟩

/-- Both texts are in the mirror before the compiler starts whose report counts. -/
theorem second_edit_converges : ∃ w request report diagnostics before during after,
    Converged (outset 0 w (run (connected twoReports) addFolder).state)
      (run (connected twoReports) (addFolder ++ twoEdits)) request report diagnostics before during after ∧
    .applied 1 0 ∈ before ∧ .applied 2 0 ∈ before := by
  have hrun : (run (connected twoReports) addFolder).state.registered.values = [0] ∧
      (run (connected twoReports) addFolder).state.workspaces[0]?.any (fun w => w.isReady && w.root = .ofText "/p") ∧
      (run (connected twoReports) addFolder).state.isHeard ∧
      (run (connected twoReports) addFolder).tasks.isEmpty ∧
      (run (connected twoReports) (addFolder ++ twoEdits)).tasks.isEmpty ∧
      (run (connected twoReports) (addFolder ++ twoEdits)).ended.all (fun t => t.2.isOk) ∧
      (recordSince (run (connected twoReports) addFolder) (run (connected twoReports) (addFolder ++ twoEdits))).all
        (fun e => !mayDisturb e) ∧
      (recordSince (run (connected twoReports) addFolder) (run (connected twoReports) (addFolder ++ twoEdits))).any
        (receivesStory 1) ∧
      (recordSince (run (connected twoReports) addFolder) (run (connected twoReports) (addFolder ++ twoEdits))).any
        (receivesStory 2) ∧
      (run (connected twoReports) addFolder).state.policy.isSource (.ofText "/p/a.ink") := by
    decide +kernel
  obtain ⟨halone, hready, hheard, hidle, hrest, hended, hcalm, hfirst, hsecond, hsource⟩ := hrun
  obtain ⟨w, hw, hw'⟩ := (Option.any_eq_true _ _).mp hready
  rw [Bool.and_eq_true, decide_eq_true_eq] at hw'
  obtain ⟨first, hfirst⟩ := exists_received_since 0 w hfirst
  obtain ⟨second, hsecond⟩ := exists_received_since 0 w hsecond
  have hawaits : AwaitsEdits 0 w (run (connected twoReports) addFolder) :=
    ⟨halone, hw, hw'.1, hheard, List.isEmpty_iff.mp hidle⟩
  obtain ⟨request, report, diagnostics, before, during, after, h⟩ :=
    edits_converge (isFresh_connected twoReports) (fun p hp => by cases hp; rfl) hawaits
      (isEditing_twoEdits hsource hw'.2) (undisturbed_of_all hcalm hended)
      (fun task _ _ => by rw [Session.isPending, Session.task?, List.isEmpty_iff.mp hrest]; rfl) ⟨1, first, hfirst⟩
  exact ⟨w, request, report, diagnostics, before, during, after, h, h.applied 1 first hfirst,
    h.applied 2 second hsecond⟩

end Server

end InkServer
