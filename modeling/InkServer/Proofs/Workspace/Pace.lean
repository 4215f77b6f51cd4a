import InkServer.Proofs.Server.Operations
import InkServer.Proofs.Workspace.Quiet

/-!
# How edits keep up

Each turn of an edit keeps up with how far edits have got: what is new on record is about this edit, and a
request that is over stays so. `Goes` says that of an act, together with what holds where it waits and where it
ends well, as long as nothing disturbs edits, which is that the directory of the mirror is missing or that the
server fails at something.
-/

namespace InkServer

open ServerState ServerAct

variable {o : Outset} {s s' : ServerState} {l l₁ l₂ : Loop ServerState Operation} {τ υ α β : Type}
  {task : TaskId} {request : CompileRequest} {record : List Event}

/-! ## Undisturbed edits -/

/-- Whether an event disturbs the edits of a workspace. -/
def Event.disturbs (id : WorkspaceId) : Event → Prop
  | .noticed (.serverError _) => True
  | .missed id' => id' = id
  | _ => False

/-- Nothing has disturbed the edits. -/
def Calm (o : Outset) (s : ServerState) : Prop := ∀ e ∈ o.since s, ¬ e.disturbs o.id

theorem Outset.since_subset (h : o.Begun s) (hp : s.events <+: s'.events) : o.since s ⊆ o.since s' := by
  obtain ⟨record, he⟩ := hp
  rw [since_of_events_eq h.le_length he.symm]
  exact List.subset_append_left _ _

theorem Calm.earlier (h : Calm o s') (hb : o.Begun s) (hp : s.events <+: s'.events) : Calm o s :=
  fun e hm => h e (Outset.since_subset hb hp hm)

/-- What disturbs edits disturbs them ever after. -/
theorem not_calm_of_leads {e : Event} (hb : o.Begun s) (he : s'.events = s.events ++ record) (hm : e ∈ record)
    (hd : e.disturbs o.id) {t : ServerState} (hl : Leads s' t) : ¬ Calm o t := by
  intro hcalm
  have hbegun : o.Begun s' := hb.later ⟨record, he.symm⟩
  refine (hcalm.earlier hbegun hl.later.events) e ?_ hd
  rw [Outset.since_of_events_eq hb.le_length he]
  exact List.mem_append_right _ hm

/-! ## What is on record of an edit -/

/-- A request is over: it was overtaken, or it was accepted. -/
def Concluded (o : Outset) (request : CompileRequest) (s : ServerState) : Prop :=
  ∀ w, s.workspaces[o.id]? = some w → request.generation ≤ w.scheduler.latest ∧
    (request.generation = w.scheduler.latest → w.scheduler.accepted = w.scheduler.latest)

/-- The text of an edit was received, and no request was admitted for it. -/
structure Underway (o : Outset) (task : TaskId) (s : ServerState) : Prop where
  received : ∃ document, .received task document ∈ o.since s
  unadmitted : ∀ r, .admitted task o.id r ∉ o.since s

/-- The text of an edit is in the mirror, and no request was admitted for it. -/
structure Written (o : Outset) (task : TaskId) (s : ServerState) : Prop extends Underway o task s where
  applied : .applied task o.id ∈ o.since s

/-- An edit was admitted as a request and as no other. -/
structure AdmittedAs (o : Outset) (task : TaskId) (request : CompileRequest) (s : ServerState) : Prop where
  received : ∃ document, .received task document ∈ o.since s
  admitted : .admitted task o.id request ∈ o.since s
  only : ∀ r, .admitted task o.id r ∈ o.since s → r = request

theorem underway_of_received (hb : o.Begun s) {document : OpenDocument}
    (he : s'.events = s.events ++ [.received task document]) (hnone : ∀ r, .admitted task o.id r ∉ o.since s) :
    Underway o task s' := by
  have hsince := Outset.since_of_events_eq hb.le_length he
  refine ⟨⟨document, hsince ▸ List.mem_append_right _ (List.mem_singleton_self _)⟩, fun r hm => ?_⟩
  rw [hsince] at hm
  rcases List.mem_append.mp hm with hm | hm
  · exact hnone r hm
  · cases List.mem_singleton.mp hm

theorem Underway.append (h : Underway o task s) (hb : o.Begun s) (he : s'.events = s.events ++ record)
    (hr : ∀ r, .admitted task o.id r ∉ record) : Underway o task s' := by
  obtain ⟨document, hreceived⟩ := h.received
  have hsince := Outset.since_of_events_eq hb.le_length he
  refine ⟨⟨document, hsince ▸ List.mem_append_left _ hreceived⟩, fun r hm => ?_⟩
  rw [hsince] at hm
  exact (List.mem_append.mp hm).elim (h.unadmitted r) (hr r)

theorem Written.append (h : Written o task s) (hb : o.Begun s) (he : s'.events = s.events ++ record)
    (hr : ∀ r, .admitted task o.id r ∉ record) : Written o task s' := by
  refine ⟨h.toUnderway.append hb he hr, ?_⟩
  rw [Outset.since_of_events_eq hb.le_length he]
  exact List.mem_append_left _ h.applied

theorem AdmittedAs.append (h : AdmittedAs o task request s) (hb : o.Begun s)
    (he : s'.events = s.events ++ record) (hr : ∀ r, .admitted task o.id r ∉ record) :
    AdmittedAs o task request s' := by
  obtain ⟨document, hreceived⟩ := h.received
  have hsince := Outset.since_of_events_eq hb.le_length he
  refine ⟨⟨document, hsince ▸ List.mem_append_left _ hreceived⟩, hsince ▸ List.mem_append_left _ h.admitted,
    fun r hm => ?_⟩
  rw [hsince] at hm
  exact (List.mem_append.mp hm).elim (h.only r) fun hm => absurd hm (hr r)

/-- What is done quietly admits nothing. -/
theorem Quiet.record_admits_nothing (h : Quiet o.id l l₁) : ∃ record, l₁.state.events = l.state.events ++ record ∧
    ∀ r, .admitted task o.id r ∉ record := by
  obtain ⟨record, he, hr⟩ := h.record
  exact ⟨record, he, fun r hm => by cases hr _ hm⟩

theorem Underway.quiet (h : Underway o task l.state) (hb : o.Begun l.state) (hq : Quiet o.id l l₁) :
    Underway o task l₁.state := by
  obtain ⟨record, he, hr⟩ := hq.record_admits_nothing
  exact h.append hb he hr

theorem Written.quiet (h : Written o task l.state) (hb : o.Begun l.state) (hq : Quiet o.id l l₁) :
    Written o task l₁.state := by
  obtain ⟨record, he, hr⟩ := hq.record_admits_nothing
  exact h.append hb he hr

theorem AdmittedAs.quiet (h : AdmittedAs o task request l.state) (hb : o.Begun l.state) (hq : Quiet o.id l l₁) :
    AdmittedAs o task request l₁.state := by
  obtain ⟨record, he, hr⟩ := hq.record_admits_nothing
  exact h.append hb he hr

/-! ## Keeping up -/

/-- The turn of an edit has kept up: edits have got as far as the record tells, and what is new on it is about
this edit. -/
structure Paced (o : Outset) (l l' : Loop ServerState Operation) : Prop where
  current : l'.current = l.current
  launches : ∃ new, Launches l l' new
  record : ∃ record, l'.state.events = l.state.events ++ record ∧
    ∀ e ∈ record, ∀ task, e.call? = some task → task = l.current
  course : Course o l'.state
  concluded : ∀ request, Concluded o request l.state → Concluded o request l'.state

theorem Paced.trans (h : Paced o l l₁) (h' : Paced o l₁ l₂) : Paced o l l₂ := by
  obtain ⟨new, hnew⟩ := h.launches
  obtain ⟨new', hnew'⟩ := h'.launches
  obtain ⟨record, he, hr⟩ := h.record
  obtain ⟨record', he', hr'⟩ := h'.record
  refine ⟨h'.current.trans h.current, ⟨_, hnew.trans hnew'⟩,
    ⟨record ++ record', by rw [he', he, List.append_assoc], fun e hm task hc => ?_⟩, h'.course,
    fun request hconcluded => h'.concluded request (h.concluded request hconcluded)⟩
  rcases List.mem_append.mp hm with hm | hm
  · exact hr e hm task hc
  · rw [← h.current]
    exact hr' e hm task hc

/-- A request stays over where nothing is admitted and nothing accepted. -/
theorem Concluded.alike (h : Concluded o request s) (hlt : o.id < s.workspaces.length)
    (hw : ∀ w, s.workspaces[o.id]? = some w → ∃ w', s'.workspaces[o.id]? = some w' ∧ w.Alike w') :
    Concluded o request s' := by
  intro w' hw'
  obtain ⟨w₁, hw₁, ha⟩ := hw _ (List.getElem?_eq_getElem hlt)
  rw [hw'] at hw₁
  cases hw₁
  obtain ⟨hle, hacc⟩ := h _ (List.getElem?_eq_getElem hlt)
  rw [ha.latest_eq, ha.accepted]
  exact ⟨hle, hacc⟩

theorem Course.known (h : Course o s) : o.id < s.workspaces.length := by
  obtain ⟨w, hw, _⟩ := h.progress
  exact (List.getElem?_eq_some_iff.mp hw).1

theorem Course.quiet (h : Course o l.state) (hl : Leads l.state l₁.state) (hq : Quiet o.id l l₁) :
    Course o l₁.state := by
  obtain ⟨record, he, hr⟩ := hq.record
  exact h.grows hl hq.policy hq.registered he (fun e hm => .inl (hr e hm)) (fun _ => hq.documents) hq.workspace

theorem Paced.of_quiet (h : Course o l.state) (hl : Leads l.state l₁.state) (hq : Quiet o.id l l₁) :
    Paced o l l₁ := by
  obtain ⟨record, he, hr⟩ := hq.record
  refine ⟨hq.current, hq.launches, ⟨record, he, fun e hm task ht => ?_⟩, h.quiet hl hq,
    fun _ hc => hc.alike h.known hq.workspace⟩
  rw [Event.call?_of_isIdle (hr e hm)] at ht
  cases ht

/-- How an act of an edit goes: as long as nothing disturbs edits it keeps up, `waits` holds if it waits and
`done` if it succeeds. -/
structure Goes (o : Outset) (a : ServerAct (Step τ α)) (l : Loop ServerState Operation)
    (waits : τ → ServerState → Prop) (done : α → ServerState → Prop) : Prop where
  leads : Leads l.state (a.leaves l).state
  comes : a.Reaches l (fun state l' => Calm o l'.state → Paced o l l' ∧ waits state l'.state)
    fun r l' => Calm o l'.state → ∀ x, r = .ok x → Paced o l l' ∧ done x l'.state

variable {waits : τ → ServerState → Prop} {done : α → ServerState → Prop}

theorem Goes.mono {a : ServerAct (Step τ α)} {waits' : τ → ServerState → Prop} {done' : α → ServerState → Prop}
    (h : Goes o a l waits done) (hw : ∀ state s, waits state s → waits' state s)
    (hd : ∀ x s, done x s → done' x s) : Goes o a l waits' done' :=
  ⟨h.leads, h.comes.mono (fun _ _ h hc => ⟨(h hc).1, hw _ _ (h hc).2⟩)
    fun _ _ h hc x hx => ⟨(h hc x hx).1, hd _ _ (h hc x hx).2⟩⟩

theorem Goes.waits_of {state : τ} (h : Course o l.state) (hw : waits state l.state) :
    Goes o (pure (.waits state) : ServerAct (Step τ α)) l waits done :=
  ⟨.refl, fun _ => ⟨.of_quiet h .refl .refl, hw⟩⟩

theorem Goes.done_of {x : α} (h : Course o l.state) (hd : done x l.state) :
    Goes o (pure (.done x) : ServerAct (Step τ α)) l waits done := by
  refine ⟨.refl, fun _ x' hx => ?_⟩
  cases hx
  exact ⟨.of_quiet h .refl .refl, hd⟩

theorem Goes.fails {f : Failure} : Goes o (pure (.fail f) : ServerAct (Step τ α)) l waits done :=
  ⟨.refl, fun _ x hx => by cases hx⟩

theorem goes_state {f : ServerState → ServerAct (Step τ α)} :
    Goes o (Act.state >>= f) l waits done ↔ Goes o (f l.state) l waits done :=
  ⟨fun h => ⟨h.leads, h.comes⟩, fun h => ⟨h.leads, h.comes⟩⟩

theorem goes_self {f : TaskId → ServerAct (Step τ α)} :
    Goes o (Act.self >>= f) l waits done ↔ Goes o (f l.current) l waits done :=
  ⟨fun h => ⟨h.leads, h.comes⟩, fun h => ⟨h.leads, h.comes⟩⟩

/-- An act that keeps up, and one after it. -/
theorem Goes.after {a : ServerAct β} {f : β → ServerAct (Step τ α)} (hl : Leads l.state (a.leaves l).state)
    (hp : Paced o l (a.leaves l)) (hf : Goes o (f (a.returns l)) (a.leaves l) waits done) :
    Goes o (a >>= f) l waits done := by
  refine ⟨hl.trans hf.leads, ?_⟩
  rw [Act.reaches_bind]
  exact hf.comes.mono (fun _ _ h hc => ⟨hp.trans (h hc).1, (h hc).2⟩)
    fun _ _ h hc x hx => ⟨hp.trans (h hc x hx).1, (h hc x hx).2⟩

/-- What is done quietly first. -/
theorem Goes.quietly {a : ServerAct β} {f : β → ServerAct (Step τ α)} (h : Course o l.state)
    (hl : Leads l.state (a.leaves l).state) (hq : Quietly o.id a l)
    (hf : Goes o (f (a.returns l)) (a.leaves l) waits done) : Goes o (a >>= f) l waits done :=
  .after hl (.of_quiet h hl hq) hf

/-- A part that is done quietly. -/
theorem Goes.afterwards {part : ServerAct (Step υ β)} {wrap : υ → τ}
    {next : Except Failure β → ServerAct (Step τ α)} (h : Course o l.state)
    {p : Step υ β → ServerState → Prop} (hp : Proceeds part l p) (hq : Quietly o.id part l)
    (hw : ∀ state l', Quiet o.id l l' → p (.waits state) l'.state → waits (wrap state) l'.state)
    (hn : ∀ r l', Quiet o.id l l' → Course o l'.state → p (.ends r) l'.state → Goes o (next r) l' waits done) :
    Goes o (Act.afterwards part wrap next) l waits done := by
  obtain ⟨hl, _, hpost⟩ := hp h.established.sound
  have hcourse : Course o (part.leaves l).state := h.quiet hl hq
  refine .quietly h hl hq ?_
  cases hr : part.returns l with
  | waits state =>
      rw [hr] at hpost
      exact .waits_of hcourse (hw state _ hq hpost)
  | ends r =>
      rw [hr] at hpost
      exact hn r _ hq hcourse hpost

/-- Taking a free lock or standing in line for it. -/
theorem Goes.acquire {place : Act.LockPlace ServerState} {state : τ} {next : ServerAct (Step τ α)}
    (h : Course o l.state) (hl : ∀ lock, Leads l.state (place.set lock l.state))
    (hq : ∀ lock, Quiet o.id l { l with state := place.set lock l.state })
    (hw : ∀ l', Quiet o.id l l' → waits state l'.state)
    (hn : ∀ l', Quiet o.id l l' → Course o l'.state → Goes o next l' waits done) :
    Goes o (Act.acquire place state next) l waits done := by
  unfold Act.acquire
  rw [goes_self, goes_state]
  refine .quietly h (hl _) (hq _) ?_
  split
  · exact hn _ (hq _) (h.quiet (hl _) (hq _))
  · exact .waits_of (h.quiet (hl _) (hq _)) (hw _ (hq _))

/-- What cannot be reached undisturbed. -/
theorem reaches_of_not_calm {a : ServerAct (Step τ α)} {waits : τ → Loop ServerState Operation → Prop}
    {ends : Except Failure α → Loop ServerState Operation → Prop} (h : ¬ Calm o (a.leaves l).state) :
    a.Reaches l (fun state l' => Calm o l'.state → waits state l') fun r l' => Calm o l'.state → ends r l' := by
  unfold Act.Reaches
  split <;> exact fun hc => absurd hc h

/-- A part that goes as edits do, and what comes after it if it succeeds. -/
theorem Goes.andThen {part : ServerAct (Step υ β)} {wrap : υ → τ} {next : β → ServerAct (Step τ α)}
    {fits : υ → ServerState → Prop} {mid : β → ServerState → Prop} {p : Step τ α → ServerState → Prop}
    (h : Course o l.state) (hp : Goes o part l fits mid) (hw : ∀ state s, fits state s → waits (wrap state) s)
    (hl : ∀ x l', Proceeds (next x) l' p)
    (hn : ∀ x l', Paced o l l' → mid x l'.state → Goes o (next x) l' waits done) :
    Goes o (Act.andThen part wrap next) l waits done := by
  obtain ⟨hlead, hcomes⟩ := hp
  unfold Act.andThen Act.afterwards
  unfold Act.Reaches at hcomes
  cases hr : part.returns l with
  | waits state =>
      rw [hr] at hcomes
      refine ⟨?_, ?_⟩
      · rw [Act.leaves_bind, hr]
        exact hlead
      · rw [Act.reaches_bind, hr]
        exact fun hcalm => ⟨(hcomes hcalm).1, hw state _ (hcomes hcalm).2⟩
  | ends r =>
      rw [hr] at hcomes
      cases r with
      | error f =>
          refine ⟨?_, ?_⟩
          · rw [Act.leaves_bind, hr]
            exact hlead
          · rw [Act.reaches_bind, hr]
            exact fun _ x hx => by cases hx
      | ok x =>
          have hnext : Leads (part.leaves l).state ((next x).leaves (part.leaves l)).state :=
            (hl x _ (h.established.sound.leads hlead)).1
          refine ⟨?_, ?_⟩
          · rw [Act.leaves_bind, hr]
            exact hlead.trans hnext
          · rw [Act.reaches_bind, hr]
            by_cases hcalm : Calm o (part.leaves l).state
            · obtain ⟨hpaced, hmid⟩ := hcomes hcalm x rfl
              exact (hn x _ hpaced hmid).comes.mono (fun _ _ h hc => ⟨hpaced.trans (h hc).1, (h hc).2⟩)
                fun _ _ h hc x hx => ⟨hpaced.trans (h hc x hx).1, (h hc x hx).2⟩
            · have hbegun := h.begun.later hlead.later.events
              exact reaches_of_not_calm fun hc => hcalm (hc.earlier hbegun hnext.later.events)

theorem Goes.of_not_calm {a : ServerAct (Step τ α)} (hl : Leads l.state (a.leaves l).state)
    (h : ¬ Calm o (a.leaves l).state) : Goes o a l waits done := ⟨hl, reaches_of_not_calm h⟩

theorem goes_workspace? {id : WorkspaceId} {f : Option Workspace → ServerAct (Step τ α)} :
    Goes o (workspace? id >>= f) l waits done ↔ Goes o (f l.state.workspaces[id]?) l waits done :=
  ⟨fun h => ⟨h.leads, h.comes⟩, fun h => ⟨h.leads, h.comes⟩⟩

/-- A step that notes something and changes the state. -/
theorem goes_note_state {e : Event} {f : ServerState → ServerAct (Step τ α)} :
    Goes o (note e >>= fun _ => Act.state >>= f) l waits done ↔
      Goes o (note e >>= fun _ => f { l.state with events := l.state.events ++ [e] }) l waits done :=
  ⟨fun h => ⟨h.leads, h.comes⟩, fun h => ⟨h.leads, h.comes⟩⟩

theorem goes_note_setState {e : Event} {f : Unit → ServerAct (Step τ α)} :
    Goes o (note e >>= fun _ => Act.setState s >>= f) l waits done ↔ Goes o (Act.setState s >>= f) l waits done :=
  ⟨fun h => ⟨h.leads, h.comes⟩, fun h => ⟨h.leads, h.comes⟩⟩

theorem goes_withWorkspace {id : WorkspaceId} {w : Workspace} {absent : ServerAct (Step τ α)}
    {f : Workspace → ServerAct (Step τ α)} (hw : l.state.workspaces[id]? = some w)
    (hf : Goes o (f w) l waits done) : Goes o (withWorkspace id absent f) l waits done := by
  unfold withWorkspace
  rw [goes_workspace?, hw]
  exact hf

/-- A workspace that is ready and whose mirror is there can be compiled as it is. -/
theorem goes_ensureReady (h : Course o l.state) :
    Goes o (ensureReady o.id) l (fun _ _ => False) fun ready s => ready ∧ s.events = l.state.events := by
  obtain ⟨w, hw, hprogress⟩ := h.progress
  have hready := hprogress.isReady
  refine goes_withWorkspace hw ?_
  split
  · rename_i hs
    simp [Workspace.isReady, hs] at hready
  · rename_i hs
    simp [Workspace.isReady, hs] at hready
  · rename_i hu hp
    split
    · exact .done_of h ⟨hready, rfl⟩
    · rename_i m hm
      obtain ⟨hlead, _, hsame, hmissing⟩ := proceeds_isThere (l := l) m h.established.sound
      refine .quietly h hlead (quietly_onDisk _) ?_
      have hcourse := h.quiet hlead (quietly_onDisk m.isThere)
      split
      · exact .fails
      · exact .done_of hcourse ⟨hready, rfl⟩
      · rename_i hthere
        have hw' := hw
        rw [← hsame] at hw'
        have hmisses := leads_misses hw' hm (hmissing hthere) hu hp
        have hstart := Initialization.proceeds_start (l := { (onDisk m.isThere).leaves l with
          state := _ }) o.id (hcourse.established.sound.leads hmisses)
        refine .of_not_calm (hmisses.trans hstart.1) ?_
        exact not_calm_of_leads hcourse.begun (e := .missed o.id) rfl (List.mem_singleton_self _) rfl hstart.1

end InkServer
