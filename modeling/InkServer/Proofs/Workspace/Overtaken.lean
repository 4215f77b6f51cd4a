import InkServer.Proofs.Server.Versions
import Mathlib.Data.List.Basic

/-!
# Compiles that are overtaken

The report of a compile is dropped if a later request of the workspace was admitted while the compiler ran.
An edit is admitted only after its text was written and its settings were fetched, so that the report of a
compile is dropped for the edits that came that far, and is published over the heads of those that are
still on their way.
-/

namespace InkServer

open ServerState

/-! ## Turns and the latest request -/

namespace Workspace.Turn

variable {s : ServerState} {id : WorkspaceId} {w w' : Workspace}
  {lists : List (String × List Diagnostic)} {record : List Event}

/-- Generations only rise. -/
theorem latest_le (h : w.Turn s id w' lists record) : w.scheduler.latest ≤ w'.scheduler.latest := by
  cases h with
  | admits => exact Nat.le_succ _
  | accepts request =>
      rw [Scheduler.accept_snd]
      split <;> exact Nat.le_refl _
  | _ => exact Nat.le_refl _

theorem latest_lt_of_admitted (h : w.Turn s id w' lists record) {task : TaskId} {request : CompileRequest}
    (hm : .admitted task id request ∈ record) : w.scheduler.latest < w'.scheduler.latest := by
  cases h with
  | admits => exact Nat.lt_succ_self _
  | _ => simp at hm

/-- Starting the compiler for a request is the last that is kept of a turn. -/
theorem of_started (h : w.Turn s id w' lists record) {request : CompileRequest} {before since : List Event}
    (hr : record = before ++ .started id request :: since) :
    since = [] ∧ request.generation = w'.scheduler.latest := by
  have hm : .started id request ∈ record := hr ▸ List.mem_append_right _ List.mem_cons_self
  cases h with
  | @starts request' m hcurrent _ =>
      have hrequest : request' = request := by
        rcases List.mem_cons.mp hm with hm | hm
        · cases hm
        · exact (Event.started.inj (List.mem_singleton.mp hm)).2.symm
      subst hrequest
      have hnot : Event.started id request' ∉ [Event.called id request' (some m)] := by simp
      obtain ⟨_, _, hsince⟩ := (List.append_cons_inj_of_notMem hnot List.not_mem_nil).mp hr
      rw [Scheduler.isCurrent_iff] at hcurrent
      exact ⟨hsince.symm, congrArg CompileRequest.generation hcurrent⟩
  | _ => simp at hm

/-- The report of a request is delivered only while the request is the latest, and that is all there is to
the turn. -/
theorem of_delivered (h : w.Turn s id w' lists record) {request : CompileRequest} {count : Nat}
    (hm : .delivered id request count ∈ record) :
    record = [.delivered id request count] ∧ request.generation = w.scheduler.latest := by
  cases h with
  | delivers diagnostics hcurrent =>
      rw [List.mem_singleton.mp hm]
      cases List.mem_singleton.mp hm
      rw [Scheduler.isCurrent_iff] at hcurrent
      exact ⟨rfl, congrArg CompileRequest.generation hcurrent⟩
  | _ => simp at hm

end Workspace.Turn

/-! ## What is on record after a start -/

namespace ServerState

variable {s s' : ServerState} {id : WorkspaceId} {request : CompileRequest} {since : List Event}

/-- What holds of a workspace after its compiler was started for a request: a request that was admitted
since is a later one, and when the report was delivered none had been. -/
structure Ran (s : ServerState) (id : WorkspaceId) (request : CompileRequest) (since : List Event) : Prop where
  latest : ∃ w, s.workspaces[id]? = some w ∧ request.generation ≤ w.scheduler.latest ∧
    ∀ task r, .admitted task id r ∈ since → request.generation < w.scheduler.latest
  delivers : ∀ during count after, since = during ++ .delivered id request count :: after →
    ∀ task r, .admitted task id r ∉ during

/-- One step after a start. -/
theorem Ran.passes (h : s.Ran id request since) {w w' : Workspace} {record : List Event}
    (hw : s.workspaces[id]? = some w) (hw' : s'.workspaces[id]? = some w')
    (hp : Workspace.Passes s id w w' record) : s'.Ran id request (since ++ record) := by
  obtain ⟨x, hx, hle, hlt⟩ := h.latest
  rw [hw] at hx
  cases hx
  have hkeeps : w'.scheduler.latest = w.scheduler.latest → (∀ e ∈ record, ∀ task r, e ≠ .admitted task id r) →
      (∀ e ∈ record, ∀ count, e ≠ .delivered id request count) → s'.Ran id request (since ++ record) := by
    intro hlatest hadmitted hdelivered
    refine ⟨⟨w', hw', hlatest ▸ hle, fun task r hm => ?_⟩, fun during count after he task r => ?_⟩
    · rcases List.mem_append.mp hm with hm | hm
      · exact hlatest ▸ hlt task r hm
      · exact absurd rfl (hadmitted _ hm task r)
    · rcases append_eq_append_cons he with ⟨old, hsince, _⟩ | ⟨_, _, hrecord⟩
      · exact h.delivers during count old hsince task r
      · have hm : .delivered id request count ∈ record := hrecord ▸ List.mem_append_right _ List.mem_cons_self
        exact absurd rfl (hdelivered _ hm count)
  cases hp with
  | rests hr => exact hkeeps rfl (fun e hm _ _ he => hr e hm (he ▸ rfl)) fun e hm _ he => hr e hm (he ▸ rfl)
  | dismisses => exact hkeeps rfl (fun _ hm => absurd hm List.not_mem_nil) fun _ hm => absurd hm List.not_mem_nil
  | @removes _ published hpub _ =>
      have hnone : ∀ e ∈ published ++ [.removed id], IsPublication e = false → e = .removed id :=
        fun e hm he => List.mem_singleton.mp (mem_record_of_mem hpub he hm)
      refine hkeeps rfl (fun e hm _ _ he => ?_) fun e hm _ he => ?_
      · cases he.symm.trans (hnone e hm (he ▸ rfl))
      · cases he.symm.trans (hnone e hm (he ▸ rfl))
  | @turns _ lists published record hpub ht =>
      have hle' : request.generation ≤ w'.scheduler.latest :=
        Int.le_trans hle (Int.ofNat_le.mpr ht.latest_le)
      refine ⟨⟨w', hw', hle', fun task r hm => ?_⟩, fun during count after he task r hm => ?_⟩
      · rcases List.mem_append.mp hm with hm | hm
        · exact Int.lt_of_lt_of_le (hlt task r hm) (Int.ofNat_le.mpr ht.latest_le)
        · have hadmitted := ht.latest_lt_of_admitted (mem_record_of_mem hpub rfl hm)
          exact Int.lt_of_le_of_lt hle (Int.ofNat_lt.mpr hadmitted)
      · rcases append_eq_append_cons he with ⟨old, hsince, _⟩ | ⟨first, rfl, hrecord⟩
        · exact h.delivers during count old hsince task r hm
        · have hdelivered : .delivered id request count ∈ published ++ record :=
            hrecord ▸ List.mem_append_right _ List.mem_cons_self
          obtain ⟨rfl, hgeneration⟩ := ht.of_delivered (mem_record_of_mem hpub rfl hdelivered)
          rcases List.mem_append.mp hm with hm | hm
          · exact absurd (hlt task r hm) (by omega)
          · have hin : Event.admitted task id r ∈ published ++ [.delivered id request count] :=
              hrecord ▸ List.mem_append_left _ hm
            cases List.mem_singleton.mp (mem_record_of_mem hpub rfl hin)

/-- The turn in which the compiler is started. -/
theorem Ran.of_passes {w w' : Workspace} {record before : List Event} (hw' : s'.workspaces[id]? = some w')
    (hp : Workspace.Passes s id w w' record) (he : record = before ++ .started id request :: since) :
    s'.Ran id request since := by
  have hm : .started id request ∈ record := he ▸ List.mem_append_right _ List.mem_cons_self
  cases hp with
  | rests hr => exact absurd rfl (hr _ hm)
  | dismisses => exact absurd hm List.not_mem_nil
  | removes hpub => cases List.mem_singleton.mp (mem_record_of_mem hpub rfl hm)
  | @turns _ lists published record hpub ht =>
      rcases append_eq_append_cons he with ⟨old, hpublished, _⟩ | ⟨first, _, hrecord⟩
      · cases hpub (.started id request) (hpublished ▸ List.mem_append_right _ List.mem_cons_self)
      · obtain ⟨rfl, hgeneration⟩ := ht.of_started hrecord
        refine ⟨⟨w', hw', Int.le_of_eq hgeneration, fun _ _ h => absurd h List.not_mem_nil⟩, ?_⟩
        intro during count after h
        exact absurd (congrArg List.length h) (by simp)

/-- After each start on record, the workspace is as it is after a start. -/
theorem Steps.ran {allowed : Foreign → Prop} (h : Steps allowed s s') (hs : s.Sound) (he : s.events = []) :
    ∀ id request before since, s'.events = before ++ .started id request :: since → s'.Ran id request since := by
  refine (Steps.keeps h hs (p := fun t => ∀ id request before since,
    t.events = before ++ .started id request :: since → t.Ran id request since)
    (fun id request before since h => ?_) (fun s s' _ hc ih id request before since h => ?_) ?_).2
  · rw [he] at h
    exact absurd (congrArg List.length h) (by simp)
  · obtain ⟨record, hevents⟩ := hc.later.events
    rcases append_eq_append_cons (hevents.trans h) with ⟨old, hold, rfl⟩ | ⟨first, _, rfl⟩
    · have hr := ih id request before old hold
      obtain ⟨w, hw, _⟩ := hr.latest
      obtain ⟨w', record', hw', he', hp⟩ := hc.passes hw
      rw [List.append_cancel_left (hevents.trans he')]
      exact hr.passes hw hw' hp
    · have hm : .started id request ∈ first ++ .started id request :: since :=
        List.mem_append_right _ List.mem_cons_self
      obtain ⟨w, hw⟩ := hc.known_of_mem hevents.symm hm rfl
      obtain ⟨w', record', hw', he', hp⟩ := hc.passes hw
      exact .of_passes hw' hp (List.append_cancel_left (hevents.trans he')).symm
  · intro s f _ _ ih id request before since h
    exact ⟨(ih id request before since h).latest, (ih id request before since h).delivers⟩

end ServerState

/-! ## Runs -/

namespace Server

/-- However a run goes, no request of a workspace is admitted between the start of a compiler and the
delivery of its report. So no edit arrived meanwhile exactly if every one that did was admitted in time, and a
version is published with the report that the client gave before the start or meanwhile. -/
theorem delivered_before_later_requests {s : ServerState} (hs : IsFresh s) {moves : List (Session.Move External)}
    {id : WorkspaceId} {request : CompileRequest} {count : Nat} {before during after : List Event}
    (he : (run s moves).state.events =
      before ++ .started id request :: (during ++ .delivered id request count :: after)) :
    (∀ task r, .admitted task id r ∉ during) ∧
      (∀ edits : TaskId → Prop,
        (∀ task document, edits task → .received task document ∉ during) ↔
          ∀ task document, edits task → .received task document ∈ during →
            ∃ r, .admitted task id r ∈ during) ∧
      ∀ p version, .published p ∈ during → p.version = some version →
        (∃ e ∈ before, e.Brings p.uri version) ∨ ∃ e ∈ during, e.Brings p.uri version := by
  have hsteps : Steps (fun _ => True) s (run s moves).state := steps_run hs fun _ _ => allows_all
  have hran := hsteps.ran hs.sound hs.events id request before _ he
  have hnone : ∀ task r, .admitted task id r ∉ during := hran.delivers during count after rfl
  refine ⟨hnone, fun edits => ⟨fun h task document ht hm => absurd hm (h task document ht), ?_⟩, ?_⟩
  · intro h task document ht hm
    obtain ⟨r, hr⟩ := h task document ht hm
    exact hnone task r hr
  · intro p version hm hv
    obtain ⟨first, last, rfl⟩ := List.append_of_mem hm
    have hpublished := (hsteps.versioned hs.versioned).published (before ++ .started id request :: first) p
      (last ++ .delivered id request count :: after) version (by rw [he]; simp) hv
    obtain ⟨e, hin, hb⟩ := hpublished
    rcases List.mem_append.mp hin with hin | hin
    · exact .inl ⟨e, hin, hb⟩
    · rcases List.mem_cons.mp hin with rfl | hin
      · obtain ⟨_, hdocument, _⟩ := hb
        cases hdocument
      · exact .inr ⟨e, List.mem_append_left _ hin, hb⟩

/-- What is on record between the first event of one kind and the next event of another. -/
def between (first next : Event → Bool) (events : List Event) : List Event :=
  ((events.dropWhile fun e => !first e).drop 1).takeWhile fun e => !next e

theorem dropWhile_eq_cons_of_any {p : Event → Bool} {events : List Event} (h : events.any p) :
    ∃ e after, (events.dropWhile fun e => !p e) = e :: after ∧ p e := by
  induction events with
  | nil => cases h
  | cons e rest ih =>
      by_cases he : p e
      · exact ⟨e, rest, by rw [List.dropWhile_cons_of_neg (by simp [he])], he⟩
      · rw [List.dropWhile_cons_of_pos (by simp [he])]
        rw [List.any_cons, Bool.eq_false_iff.mpr he, Bool.false_or] at h
        exact ih h

theorem exists_between {first next : Event → Bool} {events : List Event} (hf : events.any first)
    (hn : ((events.dropWhile fun e => !first e).drop 1).any next) :
    ∃ e e' after, first e ∧ next e' ∧
      events = (events.takeWhile fun e => !first e) ++ e :: (between first next events ++ e' :: after) := by
  obtain ⟨e, rest, hrest, he⟩ := dropWhile_eq_cons_of_any hf
  rw [hrest, List.drop_one, List.tail_cons] at hn
  obtain ⟨e', after, hafter, he'⟩ := dropWhile_eq_cons_of_any hn
  refine ⟨e, e', after, he, he', ?_⟩
  have hbetween : between first next events ++ e' :: after = rest := by
    rw [between, hrest, List.drop_one, List.tail_cons, ← hafter, List.takeWhile_append_dropWhile]
  rw [hbetween, ← hrest, List.takeWhile_append_dropWhile]

/-- Whether an event is the start of a compiler for a request. -/
def isStart (id : WorkspaceId) (request : CompileRequest) : Event → Bool
  | .started id' r => id' = id && r = request
  | _ => false

/-- Whether an event is the delivery of the report of a request. -/
def isDelivery (id : WorkspaceId) (request : CompileRequest) : Event → Bool
  | .delivered id' r _ => id' = id && r = request
  | _ => false

/-- A report that was delivered, with what is on record since its compiler was started. -/
theorem exists_delivered {events : List Event} {id : WorkspaceId} {request : CompileRequest}
    (hs : events.any (isStart id request))
    (hd : ((events.dropWhile fun e => !isStart id request e).drop 1).any (isDelivery id request)) :
    ∃ count after, events = (events.takeWhile fun e => !isStart id request e) ++ .started id request ::
      (between (isStart id request) (isDelivery id request) events ++ .delivered id request count :: after) := by
  obtain ⟨e, e', after, he, he', hevents⟩ := exists_between hs hd
  cases e with
  | started id₁ r₁ =>
      cases e' with
      | delivered id₂ r₂ count =>
          rw [isStart, Bool.and_eq_true, decide_eq_true_eq, decide_eq_true_eq] at he
          rw [isDelivery, Bool.and_eq_true, decide_eq_true_eq, decide_eq_true_eq] at he'
          rw [he.1, he.2, he'.1, he'.2] at hevents
          exact ⟨count, after, hevents⟩
      | _ => cases he'
  | _ => cases he

/-! ## Two small runs -/

/-- A server whose diagnostics are sent to a client. -/
def connected (behaviours : List (Option Behaviour)) : ServerState :=
  { sample behaviours with publisher := some { isConnected := true } }

theorem isFresh_connected (behaviours : List (Option Behaviour)) : IsFresh (connected behaviours) :=
  ⟨rfl, rfl, rfl, rfl, rfl⟩

/-- A compile that is held and finds something to report. -/
def heldReport : List (Option Behaviour) :=
  [some { output := "ERROR: 'a.ink' line 1: old".toUTF8, status := some 1, held := true }]

/-- The first request of the workspace of the sample. -/
def firstRequest : CompileRequest := ⟨"file:///p", 1⟩

/-- What is on record from the start of the compiler for the first request up to its delivery. -/
def duringFirst (events : List Event) : List Event :=
  between (isStart 0 firstRequest) (isDelivery 0 firstRequest) events

/-- Whether an event brings a version of the story of the sample. -/
def bringsStory (version : Int) (e : Event) : Bool :=
  e.document?.any fun d => d.uri = "file:///p/a.ink" && d.version = version

theorem bringsStory_iff {version : Int} {e : Event} :
    bringsStory version e ↔ e.Brings "file:///p/a.ink" version := by
  unfold bringsStory Event.Brings
  cases e.document? <;> simp

/-- Whether an event is a publication about the story of the sample with a version. -/
def publishesStory (version : Int) : Event → Bool
  | .published p => p.uri = "file:///p/a.ink" && p.version = some version
  | _ => false

theorem exists_published {version : Int} {events : List Event} (h : events.any (publishesStory version)) :
    ∃ p, .published p ∈ events ∧ p.uri = "file:///p/a.ink" ∧ p.version = some version := by
  obtain ⟨e, hm, he⟩ := List.any_eq_true.mp h
  cases e with
  | published p =>
      rw [publishesStory, Bool.and_eq_true, decide_eq_true_eq, decide_eq_true_eq] at he
      exact ⟨p, hm, he⟩
  | _ => cases he

/-- Whether a task takes in a text of the story of the sample. -/
def receivesStory (task : TaskId) : Event → Bool
  | .received task' document => task' = task && document.uri = "file:///p/a.ink"
  | _ => false

theorem exists_received {task : TaskId} {events : List Event} (h : events.any (receivesStory task)) :
    ∃ document, .received task document ∈ events ∧ document.uri = "file:///p/a.ink" := by
  obtain ⟨e, hm, he⟩ := List.any_eq_true.mp h
  cases e with
  | received task' document =>
      rw [receivesStory, Bool.and_eq_true, decide_eq_true_eq, decide_eq_true_eq] at he
      exact ⟨document, he.1 ▸ hm, he.2⟩
  | _ => cases he

/-- An edit whose compiler ends when nothing else is going on. -/
def oneEdit : List (Session.Move External) :=
  [.outside (.asks (.add ⟨"file:///p", ""⟩)), .turn,
    .outside (.asks (.edit (sampleDocument 1 "One."))), .turn, .passes 1 .go, .turn, .turn, .turn]

/-- The report of an edit is published with the version of the edit. -/
theorem report_published_with_its_version :
    ∃ before during after count, (run (connected heldReport) oneEdit).state.events =
        before ++ .started 0 firstRequest :: (during ++ .delivered 0 firstRequest count :: after) ∧
      (∀ task r, .admitted task 0 r ∉ during) ∧
      ∃ p, .published p ∈ during ∧ p.version = some 1 ∧ ∃ e ∈ before, e.Brings p.uri 1 := by
  have hrun : (run (connected heldReport) oneEdit).state.events.any (isStart 0 firstRequest) ∧
      (((run (connected heldReport) oneEdit).state.events.dropWhile fun e =>
        !isStart 0 firstRequest e).drop 1).any (isDelivery 0 firstRequest) ∧
      (duringFirst (run (connected heldReport) oneEdit).state.events).any (publishesStory 1) ∧
      !(duringFirst (run (connected heldReport) oneEdit).state.events).any (bringsStory 1) := by
    decide +kernel
  obtain ⟨hstart, hdelivery, hpublished, hbrought⟩ := hrun
  obtain ⟨count, after, he⟩ := exists_delivered hstart hdelivery
  obtain ⟨hnone, _, hversion⟩ := delivered_before_later_requests (isFresh_connected heldReport) he
  obtain ⟨p, hp, huri, hv⟩ := exists_published hpublished
  refine ⟨_, _, after, count, he, hnone, p, hp, hv, ?_⟩
  rcases hversion p 1 hp hv with hbefore | ⟨e, hm, hb⟩
  · exact hbefore
  · rw [huri, ← bringsStory_iff] at hb
    rw [Bool.not_eq_true', List.any_eq_false] at hbrought
    exact absurd hb (hbrought e hm)

/-- An edit whose compiler ends while the text of a newer one waits to be written. -/
def newerEditWaits : List (Session.Move External) :=
  [.outside (.asks (.add ⟨"file:///p", ""⟩)), .turn,
    .outside (.asks (.edit (sampleDocument 1 "One."))), .turn,
    .closes "write", .outside (.asks (.edit (sampleDocument 2 "Two."))), .turn,
    .passes 1 .go, .turn, .turn, .turn]

/-- The older report is delivered although a newer edit has arrived, and it is published with the version of
that edit, which no compiler has read. -/
theorem waiting_edit_is_overtaken :
    ∃ before during after count document p, (run (connected heldReport) newerEditWaits).state.events =
        before ++ .started 0 firstRequest :: (during ++ .delivered 0 firstRequest count :: after) ∧
      .received 2 document ∈ during ∧ .published p ∈ during ∧ p.uri = document.uri ∧ p.version = some 2 ∧
      ∀ e ∈ before, ¬ e.Brings p.uri 2 := by
  have hrun : (run (connected heldReport) newerEditWaits).state.events.any (isStart 0 firstRequest) ∧
      (((run (connected heldReport) newerEditWaits).state.events.dropWhile fun e =>
        !isStart 0 firstRequest e).drop 1).any (isDelivery 0 firstRequest) ∧
      (duringFirst (run (connected heldReport) newerEditWaits).state.events).any (publishesStory 2) ∧
      (duringFirst (run (connected heldReport) newerEditWaits).state.events).any (receivesStory 2) ∧
      !((run (connected heldReport) newerEditWaits).state.events.takeWhile fun e =>
        !isStart 0 firstRequest e).any (bringsStory 2) := by
    decide +kernel
  obtain ⟨hstart, hdelivery, hpublished, hreceived, hbrought⟩ := hrun
  obtain ⟨count, after, he⟩ := exists_delivered hstart hdelivery
  obtain ⟨p, hp, huri, hv⟩ := exists_published hpublished
  obtain ⟨document, hdocument, hstory⟩ := exists_received hreceived
  refine ⟨_, _, after, count, document, p, he, hdocument, hp, huri.trans hstory.symm, hv, fun e hm hb => ?_⟩
  rw [huri, ← bringsStory_iff] at hb
  rw [Bool.not_eq_true', List.any_eq_false] at hbrought
  exact absurd hb (hbrought e hm)

end Server

end InkServer
