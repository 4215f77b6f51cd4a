import InkServer.Proofs.Server.Change
import InkServer.Proofs.Task.Acts

/-!
# How acts of the server go

An act of the server is a number of steps. `Proceeds` says that of an act, together with what holds where it
ends; the rules below carry it from the parts of an act to the whole.
-/

namespace InkServer

/-- Whether an operation is one that the server does for its client. The others try out mirrors that belong
to nobody. -/
def Operation.isServed : Operation → Bool
  | .createMirror _ | .overlay _ _ | .writeDocument _ _ _ | .copyCreated _ _ | .deleteMirror _
  | .invoke _ _ _ _ => false
  | _ => true

namespace ServerAct

open ServerState

variable {τ υ α β : Type} {l : Loop ServerState Operation}

/-- How an act goes: the server's steps lead to where it ends, whatever operations it creates are the
server's own, and `post` holds of what it returns and where it ends. -/
def Proceeds (a : ServerAct α) (l : Loop ServerState Operation) (post : α → ServerState → Prop) : Prop :=
  l.state.Sound →
    Leads l.state (a.leaves l).state ∧ (∀ c ∈ (a.leaves l).created, c ∈ l.created ∨ c.2.isServed) ∧
      post (a.returns l) (a.leaves l).state

/-- How an act goes on whose steps count from an earlier state. -/
def ProceedsFrom (s : ServerState) (a : ServerAct α) (l : Loop ServerState Operation)
    (post : α → ServerState → Prop) : Prop :=
  s.Sound →
    Leads s (a.leaves l).state ∧ (∀ c ∈ (a.leaves l).created, c ∈ l.created ∨ c.2.isServed) ∧
      post (a.returns l) (a.leaves l).state

/-- What is to hold of an act that waits or ends. -/
def Comes (fits : τ → ServerState → Prop) (ends : Except Failure α → ServerState → Prop) :
    Step τ α → ServerState → Prop
  | .waits state, s => fits state s
  | .ends r, s => ends r s

/-- What is to hold of an act that waits. -/
abbrev Waits (fits : τ → ServerState → Prop) : Step τ α → ServerState → Prop := Comes fits fun _ _ => True

/-- A wait that was given nothing. -/
def Bare (_ : τ) (_ : ServerState) : Prop := True

/-! ## Sequences -/

variable {post : α → ServerState → Prop} {fits : τ → ServerState → Prop} {fits' : υ → ServerState → Prop}

theorem Proceeds.pure {a : α} (h : post a l.state) : Proceeds (pure a) l post :=
  fun _ => ⟨.refl, fun _ hc => .inl hc, h⟩

theorem Proceeds.ends {r : Except Failure α} : Proceeds (Pure.pure (Step.ends r)) l (Waits fits) :=
  .pure trivial

theorem Proceeds.mono {a : ServerAct α} {post' : α → ServerState → Prop} (h : Proceeds a l post)
    (hp : ∀ x s, Leads l.state s → post x s → post' x s) : Proceeds a l post' :=
  fun hs => ⟨(h hs).1, (h hs).2.1, hp _ _ (h hs).1 (h hs).2.2⟩

theorem Proceeds.bind {a : ServerAct β} {f : β → ServerAct α} {mid : β → ServerState → Prop}
    (ha : Proceeds a l mid)
    (hf : ∀ x l', Leads l.state l'.state → mid x l'.state → Proceeds (f x) l' post) :
    Proceeds (a >>= f) l post := by
  intro hs
  obtain ⟨hl, hc, hm⟩ := ha hs
  obtain ⟨hl', hc', hp⟩ := hf _ _ hl hm (hs.leads hl)
  exact ⟨hl.trans hl', fun c h => (hc' c h).elim (hc c) .inr, hp⟩

/-- What is always so may be used. -/
theorem Proceeds.of_sound {a : ServerAct α} (h : l.state.Sound → Proceeds a l post) : Proceeds a l post :=
  fun hs => h hs hs

theorem proceeds_state {f : ServerState → ServerAct α} :
    Proceeds (Act.state >>= f) l post ↔ Proceeds (f l.state) l post := Iff.rfl

theorem proceeds_self {f : TaskId → ServerAct α} :
    Proceeds (Act.self >>= f) l post ↔ Proceeds (f l.current) l post := Iff.rfl

theorem proceeds_isClosed {gate : String} {f : Bool → ServerAct α} :
    Proceeds (Act.isClosed gate >>= f) l post ↔ Proceeds (f (l.closed.contains gate)) l post := Iff.rfl

theorem proceedsFrom_self {a : ServerAct α} : ProceedsFrom l.state a l post ↔ Proceeds a l post := Iff.rfl

/-- Part of a step. -/
theorem ProceedsFrom.after {s s' : ServerState} {a : ServerAct β} {f : β → ServerAct α}
    (ha : a.leaves l = { l with state := s' })
    (hf : ProceedsFrom s (f (a.returns l)) { l with state := s' } post) :
    ProceedsFrom s (a >>= f) l post := by
  unfold ProceedsFrom at hf ⊢
  rw [Act.leaves_bind, Act.returns_bind, ha]
  exact hf

/-- The step is complete. -/
theorem Proceeds.from {s : ServerState} {a : ServerAct α} (hl : Leads s l.state)
    (h : Proceeds a l post) : ProceedsFrom s a l post := by
  intro hs
  obtain ⟨hl', hc, hp⟩ := h (hs.leads hl)
  exact ⟨hl.trans hl', hc, hp⟩

/-- What touches nothing but the state takes the step from one state to the other. -/
theorem Proceeds.of_leaves {a : ServerAct α} {s : ServerState} (hl : a.leaves l = { l with state := s })
    (hs : Leads l.state s) (hp : post (a.returns l) s) : Proceeds a l post := by
  intro _
  rw [hl]
  exact ⟨hs, fun _ hc => .inl hc, hp⟩

theorem proceeds_setState {s : ServerState} (h : Leads l.state s) :
    Proceeds (Act.setState s) l fun _ s' => s' = s :=
  .of_leaves rfl h rfl

theorem proceeds_modifyState {f : ServerState → ServerState} (h : Leads l.state (f l.state)) :
    Proceeds (Act.modifyState f) l fun _ s => s = f l.state :=
  .of_leaves rfl h rfl

/-- A change of what no workspace takes part in. -/
theorem proceeds_aside {f : ServerState → ServerState} (h : l.state.Alike (f l.state)) :
    Proceeds (Act.modifyState f) l fun _ _ => True :=
  (proceeds_modifyState (.single (.aside h))).mono fun _ _ _ _ => trivial

theorem proceeds_note {e : Event} (h : IsPlain e)
    (hm : ∀ id generation m, e = .made id generation m → l.state.IsUnclaimed m)
    (hs : ∀ id generation m, e = .superseded id generation m → l.state.HasOvertaken id generation) :
    Proceeds (note e) l fun _ s => s = { l.state with events := l.state.events ++ [e] } :=
  proceeds_modifyState (.single (.notes h hm hs))

theorem proceeds_noteCasually {e : Event} (h : IsCasual e) :
    Proceeds (note e) l fun _ s => s = { l.state with events := l.state.events ++ [e] } :=
  proceeds_modifyState (.single (.casually h))

/-- What is noted is seen at once. -/
theorem proceeds_note_state {e : Event} {f : ServerState → ServerAct α} :
    Proceeds (note e >>= fun _ => Act.state >>= f) l post ↔
      Proceeds (note e >>= fun _ => f { l.state with events := l.state.events ++ [e] }) l post := Iff.rfl

/-- A step that notes something and changes the state. -/
theorem proceeds_note_setState {e : Event} {s : ServerState} {f : Unit → ServerAct α} :
    Proceeds (note e >>= fun _ => Act.setState s >>= f) l post ↔
      Proceeds (Act.setState s >>= f) l post := Iff.rfl

theorem proceeds_tell (n : Notice) :
    Proceeds (tell n) l fun _ s => s = { l.state with events := l.state.events ++ [.noticed n] } :=
  proceeds_noteCasually rfl

/-- What the state does not notice. -/
theorem proceeds_of_state_eq {a : ServerAct α} (h : (a.leaves l).state = l.state)
    (hc : (a.leaves l).created = l.created) : Proceeds a l fun _ s => s = l.state := by
  intro _
  rw [h, hc]
  exact ⟨.refl, fun _ h => .inl h, rfl⟩

theorem proceeds_wake (task : TaskId) (signal : Signal) (turns : Nat) :
    Proceeds (Act.wake task signal turns) l fun _ s => s = l.state := proceeds_of_state_eq rfl rfl

theorem proceeds_cancel (task : TaskId) : Proceeds (Act.cancel task) l fun _ s => s = l.state :=
  proceeds_of_state_eq rfl rfl

theorem proceeds_create {operation : Operation} (h : operation.isServed) :
    Proceeds (Act.create operation) l fun _ s => s = l.state := by
  intro _
  refine ⟨.refl, fun c hc => ?_, rfl⟩
  rcases List.mem_append.mp hc with hc | hc
  · exact .inl hc
  · rw [List.mem_singleton.mp hc]
    exact .inr h

/-- What is done for one element after the other. -/
theorem Proceeds.forM {xs : List β} {f : β → ServerAct Unit}
    (hf : ∀ x ∈ xs, ∀ l', Leads l.state l'.state → Proceeds (f x) l' fun _ _ => True) :
    Proceeds (xs.forM f) l fun _ _ => True := by
  induction xs generalizing l with
  | nil => exact .pure trivial
  | cons x rest ih =>
      show Proceeds (f x >>= fun _ => rest.forM f) l fun _ _ => True
      refine (hf x List.mem_cons_self l .refl).bind fun _ l' hl _ => ih fun y hy l'' hl' => ?_
      exact hf y (List.mem_cons_of_mem _ hy) l'' (hl.trans hl')

/-! ## Waiting -/

theorem proceeds_waitAt {gate : String} {state : τ} (h : fits state l.state) :
    Proceeds (Act.waitAt gate state : ServerAct (Step τ α)) l (Waits fits) :=
  fun _ => ⟨.refl, fun _ hc => .inl hc, h⟩

theorem Proceeds.through {gate : String} {state : τ} {next : ServerAct (Step τ α)}
    (h : fits state l.state) (hn : Proceeds next l (Waits fits)) :
    Proceeds (Act.through gate state next) l (Waits fits) := by
  unfold Act.through
  rw [proceeds_isClosed]
  split
  · exact proceeds_waitAt h
  · exact hn

/-- A part of an operation and what comes after it. -/
theorem Proceeds.followed {ends : Except Failure α → ServerState → Prop}
    {part : ServerAct (Step τ α)} {wrap : τ → υ} {next : Except Failure α → ServerAct (Step υ β)}
    (hp : Proceeds part l (Comes fits ends)) (hw : ∀ state s, fits state s → fits' (wrap state) s)
    (hn : ∀ r l', Leads l.state l'.state → ends r l'.state → Proceeds (next r) l' (Waits fits')) :
    Proceeds (Act.afterwards part wrap next) l (Waits fits') := by
  unfold Act.afterwards
  refine hp.bind fun step l' hl hstep => ?_
  cases step with
  | waits state => exact .pure (hw state _ hstep)
  | ends r => exact hn r l' hl hstep

theorem Proceeds.afterwards {part : ServerAct (Step τ α)} {wrap : τ → υ}
    {next : Except Failure α → ServerAct (Step υ β)} (hp : Proceeds part l (Waits fits))
    (hw : ∀ state s, fits state s → fits' (wrap state) s)
    (hn : ∀ r l', Leads l.state l'.state → Proceeds (next r) l' (Waits fits')) :
    Proceeds (Act.afterwards part wrap next) l (Waits fits') :=
  hp.followed hw fun r l' hl _ => hn r l' hl

theorem Proceeds.andThen {part : ServerAct (Step τ α)} {wrap : τ → υ} {next : α → ServerAct (Step υ β)}
    (hp : Proceeds part l (Waits fits)) (hw : ∀ state s, fits state s → fits' (wrap state) s)
    (hn : ∀ a l', Leads l.state l'.state → Proceeds (next a) l' (Waits fits')) :
    Proceeds (Act.andThen part wrap next) l (Waits fits') := by
  refine hp.afterwards hw fun r l' hl => ?_
  cases r with
  | ok a => exact hn a l' hl
  | error f => exact .ends

theorem Proceeds.gather {operations : List Operation} {state : τ} {next : ServerAct (Step τ α)}
    (ho : ∀ o ∈ operations, o.isServed) (hf : ∀ s, Leads l.state s → fits state s)
    (hn : ∀ l', Leads l.state l'.state → Proceeds next l' (Waits fits)) :
    Proceeds (Act.gather operations state next) l (Waits fits) := by
  unfold Act.gather
  have hcreate : Proceeds (operations.mapM Act.create) l fun _ _ => True := by
    clear hf hn
    induction operations generalizing l with
    | nil => exact .pure trivial
    | cons o rest ih =>
        rw [List.mapM_cons]
        refine (proceeds_create (ho o List.mem_cons_self)).bind fun _ _ _ _ => ?_
        refine (ih fun o h => ho o (List.mem_cons_of_mem _ h)).bind fun _ _ _ _ => ?_
        exact .pure trivial
  refine hcreate.bind fun children l' hl _ => ?_
  split
  · exact hn l' hl
  · have hmodify : Proceeds (modify fun l : Loop ServerState Operation =>
        { l with gatherings := l.gatherings ++ [⟨l.current, children, false⟩] }) l' fun _ s => s = l'.state :=
      proceeds_of_state_eq rfl rfl
    refine hmodify.bind fun _ l'' _ hs => .pure ?_
    show fits state l''.state
    rw [hs]
    exact hf _ hl

/-! ## Locks -/

section Locks

variable {place : Act.LockPlace ServerState}

theorem proceeds_wakeHolder (task? : Option TaskId) :
    Proceeds (Act.wakeHolder task?) l fun _ s => s = l.state := by
  cases task? with
  | none => exact .pure rfl
  | some task => exact proceeds_wake task .go 0

theorem Proceeds.acquire {state : τ} {next : ServerAct (Step τ α)}
    (hp : ∀ lock, Leads l.state (place.set lock l.state)) (hf : ∀ s, Leads l.state s → fits state s)
    (hn : ∀ l', Leads l.state l'.state → Proceeds next l' (Waits fits)) :
    Proceeds (Act.acquire place state next) l (Waits fits) := by
  unfold Act.acquire
  rw [proceeds_self, proceeds_state]
  refine (proceeds_modifyState (hp _)).bind fun _ l₁ hl _ => ?_
  split
  · exact hn l₁ hl
  · exact .pure (hf _ hl)

theorem proceeds_unlock (hp : ∀ lock, Leads l.state (place.set lock l.state)) :
    Proceeds (Act.unlock place) l fun _ _ => True := by
  unfold Act.unlock
  rw [proceeds_state]
  refine (proceeds_modifyState (hp _)).bind fun _ l₁ _ _ => ?_
  exact (proceeds_wakeHolder _).mono fun _ _ _ _ => trivial

theorem proceeds_abandon (hp : ∀ lock, Leads l.state (place.set lock l.state)) :
    Proceeds (Act.abandon place) l fun _ _ => True := by
  unfold Act.abandon
  rw [proceeds_self, proceeds_state]
  refine (proceeds_modifyState (hp _)).bind fun _ l₁ _ _ => ?_
  exact (proceeds_wakeHolder _).mono fun _ _ _ _ => trivial

end Locks

/-! ## Workspaces -/

theorem proceeds_workspace? {id : WorkspaceId} {f : Option Workspace → ServerAct α} :
    Proceeds (workspace? id >>= f) l post ↔ Proceeds (f l.state.workspaces[id]?) l post := Iff.rfl

theorem proceeds_withWorkspace {id : WorkspaceId} {absent : ServerAct α} {f : Workspace → ServerAct α}
    (ha : Proceeds absent l post)
    (hf : ∀ w, l.state.workspaces[id]? = some w → Proceeds (f w) l post) :
    Proceeds (withWorkspace id absent f) l post := by
  unfold withWorkspace
  rw [proceeds_workspace?]
  split
  · rename_i w hw
    exact hf w hw
  · exact ha

theorem proceedsFrom_withWorkspace {s : ServerState} {id : WorkspaceId} {w : Workspace}
    {absent : ServerAct α} {f : Workspace → ServerAct α} (hw : l.state.workspaces[id]? = some w)
    (hf : ProceedsFrom s (f w) l post) : ProceedsFrom s (withWorkspace id absent f) l post := by
  have hreturns : (workspace? id).returns l = some w := hw
  unfold withWorkspace ProceedsFrom
  rw [Act.leaves_bind, Act.returns_bind, hreturns]
  exact hf

theorem modify_eq_set {ws : List Workspace} {id : WorkspaceId} {w : Workspace} (h : ws[id]? = some w)
    (f : Workspace → Workspace) : ws.modify id f = ws.set id (f w) := by
  apply List.ext_getElem?
  intro i
  rw [List.getElem?_modify]
  by_cases hi : id = i
  · subst hi
    rw [List.getElem?_set_self', h]
    simp
  · rw [List.getElem?_set_ne hi]
    simp [hi]

theorem modify_eq_self {ws : List Workspace} {id : WorkspaceId} (h : ws[id]? = none)
    (f : Workspace → Workspace) : ws.modify id f = ws := by
  apply List.ext_getElem?
  intro i
  rw [List.getElem?_modify]
  by_cases hi : id = i
  · subst hi
    rw [h]
    simp
  · simp [hi]

/-- A turn of a workspace that publishes nothing. -/
theorem moved_eq_modify {s : ServerState} {id : WorkspaceId} {w : Workspace}
    (hw : s.workspaces[id]? = some w) (f : Workspace → Workspace) (record : List Event) :
    s.moved id (f w) [] record =
      { s with workspaces := s.workspaces.modify id f, events := s.events ++ record } := by
  rw [modify_eq_set hw]
  rfl

/-- What is done to a workspace in the middle of a step. -/
theorem ProceedsFrom.updated {s : ServerState} {id : WorkspaceId} {w : Workspace} {g : Workspace → Workspace}
    {f : Unit → ServerAct α} (hw : l.state.workspaces[id]? = some w)
    (hf : ProceedsFrom s (f ()) { l with
      state := { l.state with workspaces := l.state.workspaces.set id (g w) } } post) :
    ProceedsFrom s (updateWorkspace id g >>= f) l post := by
  have hupdate : (updateWorkspace id g).leaves l = { l with
      state := { l.state with workspaces := l.state.workspaces.set id (g w) } } := by
    rw [← modify_eq_set hw]
    rfl
  exact .after hupdate hf

/-- What is done to a workspace, if it is there, is a turn that it takes. -/
theorem leads_modify {s : ServerState} {id : WorkspaceId} {f : Workspace → Workspace}
    (h : ∀ w, s.workspaces[id]? = some w → w.Turn s id (f w) [] []) :
    Leads s { s with workspaces := s.workspaces.modify id f } := by
  cases hw : s.workspaces[id]? with
  | none => rw [modify_eq_self hw]
  | some w =>
      have hmoved := moved_eq_modify hw f []
      rw [List.append_nil] at hmoved
      rw [← hmoved]
      exact .single (.turns hw (h w hw))

theorem proceeds_updateWorkspace {id : WorkspaceId} {f : Workspace → Workspace}
    (h : ∀ w, l.state.workspaces[id]? = some w → w.Turn l.state id (f w) [] []) :
    Proceeds (updateWorkspace id f) l fun _ _ => True :=
  .of_leaves rfl (leads_modify h) trivial

/-- A turn of which something is kept on record. -/
theorem leads_modify_noting {s : ServerState} {id : WorkspaceId} {w : Workspace} {f : Workspace → Workspace}
    {record : List Event} (hw : s.workspaces[id]? = some w) (h : w.Turn s id (f w) [] record) :
    Leads s { s with workspaces := s.workspaces.modify id f, events := s.events ++ record } := by
  rw [← moved_eq_modify hw]
  exact .single (.turns hw h)

theorem proceeds_noting_updateWorkspace {id : WorkspaceId} {w : Workspace} {f : Workspace → Workspace} {e : Event}
    {next : ServerAct α} (hw : l.state.workspaces[id]? = some w) (h : w.Turn l.state id (f w) [] [e])
    (hn : ∀ l', Leads l.state l'.state → e ∈ l'.state.events → Proceeds next l' post) :
    Proceeds (do
      note e
      updateWorkspace id f
      next) l post := by
  have hturn : Proceeds (do
      note e
      updateWorkspace id f) l fun _ s => e ∈ s.events :=
    .of_leaves rfl (leads_modify_noting hw h) (List.mem_append_right _ (List.mem_singleton_self _))
  exact hturn.bind fun _ l' hl hmem => hn l' hl hmem

/-! ## The disk -/

theorem leads_disk {s : ServerState} {disk : Disk} (h : s.disk.Leads s.policy disk) :
    Leads s { s with disk } := by
  induction h with
  | refl => exact .refl
  | tail _ h ih => exact ih.tail (.works h)

/-- Work on mirrors goes as it does on the disk. -/
theorem proceeds_onDisk {work : DiskWork α} {ok : α → Disk → Prop}
    (h : Mirror.Proceeds l.state.policy work l.state.disk ok) :
    Proceeds (onDisk work) l fun r s =>
      match r with
      | .ok a => ok a s.disk
      | .error f => Mirror.Leaves s.policy f s.disk := by
  refine .of_leaves (s := { l.state with disk := Work.leaves work l.state.disk }) rfl
    (leads_disk h.leads) ?_
  show match Work.returns work l.state.disk with
    | .ok a => ok a (Work.leaves work l.state.disk)
    | .error f => Mirror.Leaves l.state.policy f (Work.leaves work l.state.disk)
  unfold Mirror.Proceeds Work.Reaches at h
  cases hr : Work.returns work l.state.disk with
  | ok a => rw [hr] at h; exact h.2
  | error f => rw [hr] at h; exact h.2

/-- Work that only looks leaves everything as it is. -/
theorem proceeds_onDisk_of_looks {work : DiskWork α} (h : Work.Looks work) :
    Proceeds (onDisk work) l fun _ s => s = l.state := by
  refine proceeds_of_state_eq ?_ rfl
  show { l.state with disk := Work.leaves work l.state.disk } = l.state
  rw [h]

/-- Looking for the directory of a mirror tells whether it is missing. -/
theorem proceeds_isThere (m : Mirror) : Proceeds (onDisk m.isThere) l fun there s =>
    s = l.state ∧ (there = .ok false → m.IsMissing s.disk) := by
  intro hs
  obtain ⟨hl, hc, he⟩ := proceeds_onDisk_of_looks (Mirror.looks_isThere m) hs
  refine ⟨hl, hc, he, fun hthere => ?_⟩
  rw [he]
  exact hthere

theorem proceeds_record {m : Mirror} {entries : List MirrorEntry} :
    Proceeds (record m entries) l fun _ _ => True := proceeds_aside ⟨rfl, rfl, rfl, rfl, rfl, rfl, rfl⟩

theorem proceeds_index {m : Mirror} {f : Mirror.Index → ServerAct α} :
    Proceeds (index m >>= f) l post ↔
      Proceeds (f ((l.state.indexes.get? m.path).getD {})) l post := Iff.rfl

end ServerAct

end InkServer
