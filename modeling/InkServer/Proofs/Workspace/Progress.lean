import InkServer.Proofs.Server.Heard
import InkServer.Workspace.Compilation

/-!
# How far edits have got

While the texts of a workspace are edited and nothing else happens to it, its record tells how far the edits
have got: every request that was admitted had its text in the mirror by then, and once the latest request is
accepted its report is what the client has heard last.
-/

namespace InkServer

open ServerState

/-- The diagnostics that a report is shown as. -/
def CompilerReport.shown (report : CompilerReport) (naming : Naming) (root : Path) :
    Except Error (List AddressedDiagnostic) :=
  match report.diagnostics naming root with
  | .ok ds => .ok ds
  | .error (.unrecognized u) => (u.toDiagnostic naming root report.entry).map fun d => [d]
  | .error e => .error e

/-- The call of an edit that an event takes further. -/
def Event.call? : Event → Option TaskId
  | .received task _ | .admitted task _ _ => some task
  | _ => none

/-- Whether an event leaves open how far the edits have got. -/
def Event.isIdle : Event → Bool
  | .received _ _ | .admitted _ _ _ | .delivered _ _ _ | .published _ | .handed _ _ => false
  | _ => true

theorem Event.call?_of_isIdle {e : Event} (h : e.isIdle) : e.call? = none := by
  cases e <;> first | rfl | cases h

theorem Event.isPublication_of_isIdle {e : Event} (h : e.isIdle) : IsPublication e = false := by
  cases e <;> first | rfl | cases h

/-- The latest request that was admitted. -/
def Workspace.latestRequest (w : Workspace) : CompileRequest := ⟨w.scheduler.workspace, w.scheduler.latest⟩

/-- Where the edits of a workspace begin: what is on record by then, and the generation that was admitted
last. -/
structure Outset where
  id : WorkspaceId
  root : Path
  policy : MirrorPolicy
  mark : Nat
  first : Nat

variable {o : Outset} {s s' : ServerState} {w w' : Workspace} {past record : List Event}

/-- What is on record since the edits have begun. -/
def Outset.since (o : Outset) (s : ServerState) : List Event := s.events.drop o.mark

theorem Outset.since_of_events_eq (h : o.mark ≤ s.events.length) (he : s'.events = s.events ++ record) :
    o.since s' = o.since s ++ record := by
  rw [since, he, List.drop_append_of_le_length h]
  rfl

/-- The edits have begun: no compiler had been started before for a request that came later. -/
structure Outset.Begun (o : Outset) (s : ServerState) : Prop where
  le_length : o.mark ≤ s.events.length
  started : ∀ r : CompileRequest, .started o.id r ∈ s.events.take o.mark → r.generation ≤ o.first

theorem Outset.Begun.later (h : o.Begun s) (hp : s.events <+: s'.events) : o.Begun s' := by
  obtain ⟨record, he⟩ := hp
  refine ⟨?_, fun r hm => h.started r ?_⟩
  · rw [← he, List.length_append]
    exact Nat.le_add_right_of_le h.le_length
  · rwa [← he, List.take_append_of_le_length h.le_length] at hm

/-- The compiler for a later request was started since. -/
theorem Outset.Begun.started_since (h : o.Begun s) {r : CompileRequest} (hm : .started o.id r ∈ s.events)
    (hr : o.first < r.generation) : .started o.id r ∈ o.since s := by
  rw [← List.take_append_drop o.mark s.events] at hm
  rcases List.mem_append.mp hm with hm | hm
  · exact absurd (h.started r hm) (Int.not_le.mpr hr)
  · exact hm

/-! ## Admissions -/

/-- What the record says of the requests that were admitted. -/
structure Admissions (o : Outset) (past : List Event) (w : Workspace) : Prop where
  first_le : o.first ≤ w.scheduler.latest
  latest : o.first < w.scheduler.latest → ∃ task, .admitted task o.id w.latestRequest ∈ past
  admitted : ∀ (task : TaskId) (r : CompileRequest), .admitted task o.id r ∈ past →
    o.first < r.generation ∧ r.generation ≤ w.scheduler.latest ∧ r.workspace = w.scheduler.workspace
  ordered : ∀ before task r after, past = before ++ .admitted task o.id r :: after →
    .applied task o.id ∈ before ∧ ∀ document, .received task document ∉ after

/-- Of the requests that were admitted only one is the latest. -/
theorem Admissions.eq_latestRequest (h : Admissions o past w) {task : TaskId} {r : CompileRequest}
    (hm : .admitted task o.id r ∈ past) (hr : r.generation = w.scheduler.latest) : r = w.latestRequest := by
  obtain ⟨_, _, hw⟩ := h.admitted task r hm
  obtain ⟨workspace, generation⟩ := r
  simp only at hr hw
  rw [hr, hw]
  rfl

/-- Nothing is admitted, and nothing received by a call that was admitted. -/
theorem Admissions.append (h : Admissions o past w) (hl : w'.latestRequest = w.latestRequest)
    (ha : ∀ task r, .admitted task o.id r ∉ record)
    (hr : ∀ task document, .received task document ∈ record → ∀ r, .admitted task o.id r ∉ past) :
    Admissions o (past ++ record) w' := by
  have hworkspace : w'.scheduler.workspace = w.scheduler.workspace := congrArg CompileRequest.workspace hl
  have hlatest : w'.scheduler.latest = w.scheduler.latest :=
    Int.ofNat.inj (congrArg CompileRequest.generation hl)
  have hold : ∀ {task r}, .admitted task o.id r ∈ past ++ record → .admitted task o.id r ∈ past := by
    intro task r hm
    rcases List.mem_append.mp hm with hm | hm
    · exact hm
    · exact absurd hm (ha task r)
  refine ⟨hlatest ▸ h.first_le, fun hlt => ?_, fun task r hm => ?_, fun before task r after he => ?_⟩
  · rw [hlatest] at hlt
    obtain ⟨task, hm⟩ := h.latest hlt
    exact ⟨task, hl ▸ List.mem_append_left _ hm⟩
  · rw [hlatest, hworkspace]
    exact h.admitted task r (hold hm)
  · rcases append_eq_append_cons he with ⟨old, hpast, rfl⟩ | ⟨first, _, rfl⟩
    · obtain ⟨happlied, hreceived⟩ := h.ordered before task r old hpast
      refine ⟨happlied, fun document hm => ?_⟩
      rcases List.mem_append.mp hm with hm | hm
      · exact hreceived document hm
      · exact hr task document hm r (hpast ▸ List.mem_append_right _ List.mem_cons_self)
    · exact absurd (List.mem_append_right _ List.mem_cons_self) (ha task r)

/-- A call whose text is in the mirror is admitted. -/
theorem Admissions.admits (h : Admissions o past w) {task : TaskId} (ha : .applied task o.id ∈ past) :
    Admissions o (past ++ [.admitted task o.id w.scheduler.issue.1])
      { w with scheduler := w.scheduler.issue.2 } := by
  have hsucc : w.scheduler.issue.2.latest = w.scheduler.latest + 1 := rfl
  refine ⟨Nat.le_succ_of_le h.first_le, fun _ => ⟨task, ?_⟩, fun task' r hm => ?_, fun before task' r after he => ?_⟩
  · exact List.mem_append_right _ (List.mem_singleton_self _)
  · dsimp only
    rw [hsucc]
    have hfirst := h.first_le
    rcases List.mem_append.mp hm with hm | hm
    · obtain ⟨hlt, hle, hw⟩ := h.admitted task' r hm
      exact ⟨hlt, by omega, hw⟩
    · cases List.mem_singleton.mp hm
      refine ⟨?_, ?_, rfl⟩
      · show (o.first : Int) < w.scheduler.latest + 1
        omega
      · show (w.scheduler.latest + 1 : Int) ≤ ((w.scheduler.latest + 1 : Nat) : Int)
        omega
  · rcases append_eq_append_cons he with ⟨old, hpast, rfl⟩ | ⟨first, rfl, hnew⟩
    · obtain ⟨happlied, hreceived⟩ := h.ordered before task' r old hpast
      refine ⟨happlied, fun document hm => ?_⟩
      rcases List.mem_append.mp hm with hm | hm
      · exact hreceived document hm
      · cases List.mem_singleton.mp hm
    · cases first with
      | nil =>
          cases hnew
          refine ⟨?_, fun document => List.not_mem_nil⟩
          rwa [List.append_nil]
      | cons => simp at hnew

/-! ## Deliveries -/

/-- The report of a request was delivered last, and the client has heard what it is shown as. -/
def Delivered (o : Outset) (s : ServerState) (request : CompileRequest) : Prop :=
  ∃ report diagnostics before during after,
    o.since s =
      before ++ .started o.id request :: (during ++ .delivered o.id request diagnostics.length :: after) ∧
    .reported o.id request report ∈ during ∧
    (∀ r count, .delivered o.id r count ∉ after) ∧
    ((∀ task document, .received task document ∉ after) →
      report.shown s.documents.uriForPath o.root = .ok diagnostics) ∧
    s.Tells o.id diagnostics

/-- Nothing is delivered or published, and documents change only as texts are received. -/
theorem Delivered.append {request : CompileRequest} (h : Delivered o s request) (hacc : s.Accounted)
    (hmark : o.mark ≤ s.events.length) (he : s'.events = s.events ++ record)
    (hr : ∀ e ∈ record, e.isIdle ∨ ∃ task document, e = .received task document)
    (hd : (∀ task document, .received task document ∉ record) → s'.documents = s.documents) :
    Delivered o s' request := by
  obtain ⟨report, diagnostics, before, during, after, hsince, hreported, hlast, hshown, htells⟩ := h
  have hsilent : ∀ e ∈ record, IsPublication e = false := fun e hm => by
    rcases hr e hm with hidle | ⟨task, document, rfl⟩
    · exact Event.isPublication_of_isIdle hidle
    · rfl
  refine ⟨report, diagnostics, before, during, after ++ record, ?_, hreported, fun r count hm => ?_, fun hnone => ?_,
    htells.silent hacc he hsilent⟩
  · rw [Outset.since_of_events_eq hmark he, hsince]
    simp only [List.append_assoc, List.cons_append]
  · rcases List.mem_append.mp hm with hm | hm
    · exact hlast r count hm
    · rcases hr _ hm with hidle | ⟨_, _, heq⟩
      · cases hidle
      · cases heq
  · rw [hd fun task document hm => hnone task document (List.mem_append_right _ hm)]
    exact hshown fun task document hm => hnone task document (List.mem_append_left _ hm)

/-! ## The course of edits -/

/-- What holds of every state that a server comes to whose client hears of its diagnostics. -/
structure ServerState.Established (s : ServerState) : Prop where
  sound : s.Sound
  accounted : s.Accounted
  agreed : s.Agreed
  heard : s.isHeard

theorem ServerState.Established.leads (h : s.Established) (hl : Leads s s') : s'.Established := by
  have hsame : s'.isHeard = s.isHeard := by
    induction hl with
    | refl => rfl
    | tail _ hc ih => exact hc.isHeard.trans ih
  have hsteps : Steps (fun _ => True) s s' := hl.steps
  exact ⟨h.sound.leads hl, hsteps.accounted h.accounted, hsteps.agreed h.agreed, hsame.trans h.heard⟩

/-- How far the edits of a workspace have got. -/
structure Progress (o : Outset) (s : ServerState) (w : Workspace) : Prop where
  root : w.root = o.root
  isReady : w.isReady
  accepted_le : w.scheduler.accepted ≤ w.scheduler.latest
  admissions : Admissions o (o.since s) w
  delivered : o.first < w.scheduler.latest → w.scheduler.accepted = w.scheduler.latest →
    Delivered o s w.latestRequest

/-- A state that a server comes to by edits of its only workspace. -/
structure Course (o : Outset) (s : ServerState) : Prop where
  established : s.Established
  alone : s.registered.values = [o.id]
  policy : s.policy = o.policy
  begun : o.Begun s
  progress : ∃ w, s.workspaces[o.id]? = some w ∧ Progress o s w

/-- A workspace that is as ready as another and has got no further. -/
structure Workspace.Alike (w w' : Workspace) : Prop where
  root : w'.root = w.root
  isReady : w.isReady → w'.isReady
  latest : w'.latestRequest = w.latestRequest
  accepted : w'.scheduler.accepted = w.scheduler.accepted

theorem Workspace.Alike.latest_eq (h : w.Alike w') : w'.scheduler.latest = w.scheduler.latest :=
  Int.ofNat.inj (congrArg CompileRequest.generation h.latest)

theorem Workspace.Alike.refl (w : Workspace) : w.Alike w := ⟨rfl, fun h => h, rfl, rfl⟩

theorem Workspace.Alike.trans {w'' : Workspace} (h : w.Alike w') (h' : w'.Alike w'') : w.Alike w'' :=
  ⟨h'.root.trans h.root, fun hr => h'.isReady (h.isReady hr), h'.latest.trans h.latest,
    h'.accepted.trans h.accepted⟩

/-- Nothing happens but that texts are received. -/
theorem Course.grows (h : Course o s) (hl : Leads s s') (hp : s'.policy = s.policy)
    (hreg : s'.registered = s.registered) (he : s'.events = s.events ++ record)
    (hr : ∀ e ∈ record, e.isIdle ∨ ∃ task document, e = .received task document ∧
      ∀ r, .admitted task o.id r ∉ o.since s)
    (hd : (∀ task document, .received task document ∉ record) → s'.documents = s.documents)
    (hw : ∀ w, s.workspaces[o.id]? = some w → ∃ w', s'.workspaces[o.id]? = some w' ∧ w.Alike w') :
    Course o s' := by
  obtain ⟨w, hget, hprogress⟩ := h.progress
  obtain ⟨w', hget', ha⟩ := hw w hget
  refine ⟨h.established.leads hl, hreg ▸ h.alone, hp.trans h.policy, h.begun.later hl.later.events, w', hget', ha.root.trans hprogress.root,
    ha.isReady hprogress.isReady, ?_, ?_, fun hlt hacc => ?_⟩
  · rw [ha.accepted, ha.latest_eq]
    exact hprogress.accepted_le
  · rw [Outset.since_of_events_eq h.begun.le_length he]
    refine hprogress.admissions.append ha.latest (fun task r hm => ?_) fun task document hm => ?_
    · rcases hr _ hm with hidle | ⟨_, _, heq, _⟩
      · cases hidle
      · cases heq
    · rcases hr _ hm with hidle | ⟨_, _, heq, hnone⟩
      · cases hidle
      · cases heq
        exact hnone
  · rw [ha.latest_eq] at hlt hacc
    rw [ha.latest]
    refine (hprogress.delivered hlt (ha.accepted ▸ hacc)).append h.established.accounted h.begun.le_length he
      (fun e hm => ?_) hd
    rcases hr e hm with hidle | ⟨task, document, heq, _⟩
    · exact .inl hidle
    · exact .inr ⟨task, document, heq⟩

/-- A call whose text is in the mirror is admitted. -/
theorem Course.admits (h : Course o s) (hw : s.workspaces[o.id]? = some w) {task : TaskId}
    (ha : .applied task o.id ∈ o.since s) :
    Course o (s.moved o.id { w with scheduler := w.scheduler.issue.2 } []
      [.admitted task o.id w.scheduler.issue.1]) := by
  obtain ⟨w₀, hget, hprogress⟩ := h.progress
  rw [hw] at hget
  cases hget
  have hlt := (List.getElem?_eq_some_iff.mp hw).1
  have hevents : (s.moved o.id { w with scheduler := w.scheduler.issue.2 } []
      [.admitted task o.id w.scheduler.issue.1]).events = s.events ++ [.admitted task o.id w.scheduler.issue.1] :=
    moved_events ..
  have hsucc : w.scheduler.issue.2.latest = w.scheduler.latest + 1 := rfl
  have hle := hprogress.accepted_le
  have hl : Leads s (s.moved o.id { w with scheduler := w.scheduler.issue.2 } []
      [.admitted task o.id w.scheduler.issue.1]) := .single (.turns hw (.admits task))
  refine ⟨h.established.leads hl, ?_, ?_, h.begun.later hl.later.events,
    { w with scheduler := w.scheduler.issue.2 }, ?_, hprogress.root, hprogress.isReady, Nat.le_succ_of_le hle, ?_,
    fun _ hacc => ?_⟩
  · rw [moved_registered]
    exact h.alone
  · rw [moved_policy]
    exact h.policy
  · rw [moved_workspaces, List.getElem?_set_self hlt]
  · rw [Outset.since_of_events_eq h.begun.le_length hevents]
    exact hprogress.admissions.admits ha
  · -- What was accepted is no later than what was admitted before.
    have hacc : w.scheduler.accepted = w.scheduler.latest + 1 := hacc
    omega

/-- A report is delivered that was accepted meanwhile. -/
theorem Course.delivers (h : Course o s) (hw : s.workspaces[o.id]? = some w)
    (hstarted : .started o.id w.latestRequest ∈ o.since s) (hl : Leads s s') (hp : s'.policy = s.policy)
    (hreg : s'.registered = s.registered) (he : s'.events = s.events ++ record) (hr : ∀ e ∈ record, e.isIdle)
    {report : CompilerReport} (hreported : .reported o.id w.latestRequest report ∈ record)
    (hw' : s'.workspaces[o.id]? = some w') (hroot : w'.root = w.root) (hready : w.isReady → w'.isReady)
    (hlatest : w'.latestRequest = w.latestRequest) (hacc : w'.scheduler.accepted = w'.scheduler.latest)
    {diagnostics : List AddressedDiagnostic}
    (hshown : report.shown s'.documents.uriForPath o.root = .ok diagnostics) :
    Course o (s'.moved o.id { w' with published := (groupByUri diagnostics).keys }
      (ServerState.replacements w' diagnostics) [.delivered o.id w.latestRequest diagnostics.length]) := by
  obtain ⟨w₀, hget, hprogress⟩ := h.progress
  rw [hw] at hget
  cases hget
  have hready' := hready hprogress.isReady
  have hlt := (List.getElem?_eq_some_iff.mp hw').1
  have hestablished := h.established.leads hl
  have hcurrent : w'.scheduler.isCurrent w.latestRequest := by
    rw [Scheduler.isCurrent_iff, ← hlatest]
    rfl
  have hremoved : w'.state ≠ .removed := by
    intro hs
    simp [Workspace.isReady, hs] at hready'
  have hin : .started o.id w.latestRequest ∈ s'.events := hl.later.events.subset (List.mem_of_mem_drop hstarted)
  obtain ⟨p, published, hmoved, hpublished⟩ := moved_eq s' o.id
    { w' with published := (groupByUri diagnostics).keys } (ServerState.replacements w' diagnostics)
    [.delivered o.id w.latestRequest diagnostics.length]
  have hevents : (s'.moved o.id { w' with published := (groupByUri diagnostics).keys }
      (ServerState.replacements w' diagnostics) [.delivered o.id w.latestRequest diagnostics.length]).events =
      s.events ++ (record ++ (published ++ [.delivered o.id w.latestRequest diagnostics.length])) := by
    rw [hmoved]
    simp only [he, List.append_assoc]
  have hnew : ∀ e ∈ record ++ (published ++ [.delivered o.id w.latestRequest diagnostics.length]),
      e.isIdle ∨ IsPublication e ∨ e = .delivered o.id w.latestRequest diagnostics.length := by
    intro e hm
    rcases List.mem_append.mp hm with hm | hm
    · exact .inl (hr e hm)
    · rcases List.mem_append.mp hm with hm | hm
      · exact .inr (.inl (hpublished e hm))
      · exact .inr (.inr (List.mem_singleton.mp hm))
  have hdelivers : Leads s' (s'.moved o.id { w' with published := (groupByUri diagnostics).keys }
      (ServerState.replacements w' diagnostics) [.delivered o.id w.latestRequest diagnostics.length]) :=
    .single (.turns hw' (.delivers diagnostics hcurrent hin hremoved))
  refine ⟨hestablished.leads hdelivers, ?_, ?_, h.begun.later (hl.later.events.trans hdelivers.later.events),
    { w' with published := (groupByUri diagnostics).keys }, ?_, hroot.trans hprogress.root, hready',
    Nat.le_of_eq hacc, ?_, fun _ _ => ?_⟩
  · rw [moved_registered, hreg]
    exact h.alone
  · rw [moved_policy, hp]
    exact h.policy
  · rw [moved_workspaces, List.getElem?_set_self hlt]
  · rw [Outset.since_of_events_eq h.begun.le_length hevents]
    refine hprogress.admissions.append hlatest (fun task r hm => ?_) fun task document hm => ?_
    · rcases hnew _ hm with hidle | hpub | heq
      · cases hidle
      · cases hpub
      · cases heq
    · rcases hnew _ hm with hidle | hpub | heq
      · cases hidle
      · cases hpub
      · cases heq
  · obtain ⟨before, rest, hsince⟩ := List.append_of_mem hstarted
    refine ⟨report, diagnostics, before, rest ++ record ++ published, [], ?_, ?_, fun _ _ => List.not_mem_nil,
      fun _ => ?_, ?_⟩
    · rw [Outset.since_of_events_eq h.begun.le_length hevents, hsince]
      have hrequest : ({ w' with published := (groupByUri diagnostics).keys } : Workspace).latestRequest =
          w.latestRequest := hlatest
      rw [hrequest]
      simp only [List.append_assoc, List.cons_append]
    · exact List.mem_append_left _ (List.mem_append_right _ (hlatest ▸ hreported))
    · rw [moved_documents]
      exact hshown
    · exact tells_moved hestablished.accounted hestablished.agreed hestablished.heard hw' rfl rfl

end InkServer
