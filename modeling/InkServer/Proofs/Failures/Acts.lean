import InkServer.Proofs.Task.Acts
import InkServer.Proofs.Work
import InkServer.Server.Machine

/-!
# Which failures an act can end in

An act is harmless if nobody is woken with an error of workspaces by it, and if those whom somebody is going
to wait for are initializations that it has just created. The rules below carry this, together with which
failures the act can end in, from the parts of an act to the whole.
-/

namespace InkServer

/-! ## Failures -/

namespace Failure

/-- A failure that is no error of workspaces. -/
def IsOther (f : Failure) : Prop := f.isWorkspaceError = false

/-- No error of workspaces but that a mirror could not be made. -/
def IsOfMirror (f : Failure) : Prop := f.IsOther ∨ ∃ e, f = .mirror e

/-- No error of workspaces but that a file could not be brought into a mirror. -/
def IsOfCopy (f : Failure) : Prop := f.IsOther ∨ ∃ e, f = .copy e

/-- No error of workspaces but that a path lies in none. -/
def IsOfPlace (f : Failure) : Prop := f.IsOther ∨ ∃ p, f = .noWorkspace p

/-- No error of workspaces but that a compiler failed. -/
def IsOfCompiler (f : Failure) : Prop := f.IsOther ∨ ∃ e, f = .compiler e

end Failure

/-- What is to hold of the failure of something, if it fails. -/
def Fails {α : Type} (P : Failure → Prop) (r : Except Failure α) : Prop := ∀ f, r = .error f → P f

/-- What is to hold of the failure with which an act ends, if it ends and fails. -/
def Ends {τ α : Type} (P : Failure → Prop) : Step τ α → Prop
  | .waits _ => True
  | .ends r => Fails P r

section Fails

variable {α β : Type} {P Q : Failure → Prop}

theorem Fails.ok (a : α) : Fails P (.ok a) := fun _ h => by cases h

theorem Fails.error {f : Failure} (h : P f) : Fails P (.error f : Except Failure α) := fun _ he => Except.error.inj he ▸ h

theorem Fails.mono {r : Except Failure α} (h : Fails P r) (hpq : ∀ f, P f → Q f) : Fails Q r :=
  fun f hf => hpq f (h f hf)

theorem Fails.map {r : Except Failure α} (h : Fails P r) (g : α → β) : Fails P (r.map g) := by
  cases r with
  | ok a => exact .ok _
  | error f => exact .error (h f rfl)

end Fails

/-! ## Work on the disk -/

/-- Work that fails in some ways only. -/
def DiskWork.Failing {α : Type} (P : Failure → Prop) (work : DiskWork α) : Prop :=
  ∀ d, Fails P (Work.returns work d)

namespace DiskWork

variable {α β : Type} {P : Failure → Prop}

theorem failing_pure (a : α) : Failing P (pure a : DiskWork α) := fun _ => .ok a

theorem failing_throw {f : Failure} (h : P f) : Failing P (throw f : DiskWork α) := fun _ => .error h

theorem Failing.bind {work : DiskWork β} {next : β → DiskWork α} (h : work.Failing P)
    (hn : ∀ b, (next b).Failing P) : Failing P (work >>= next) := fun d => by
  rw [Work.returns_bind]
  split
  · exact hn _ _
  · rename_i f hf
    exact .error (h d f hf)

theorem failing_get {next : Disk → DiskWork α} (h : ∀ d, (next d).Failing P) : Failing P (get >>= next) :=
  fun d => h d d

theorem failing_modify (g : Disk → Disk) : Failing P (modify g : DiskWork Unit) := fun _ => .ok ()

theorem Failing.mapM {xs : List β} {g : β → DiskWork α} (h : ∀ x, (g x).Failing P) : (xs.mapM g).Failing P := by
  induction xs with
  | nil => exact failing_pure _
  | cons x rest ih =>
      rw [List.mapM_cons]
      exact (h x).bind fun _ => ih.bind fun _ => failing_pure _

theorem failing_telling {wrap : FileError → Failure} (hw : ∀ e, P (wrap e)) (hn : P (.file .nullCharacter))
    (work : FileWork α) : (telling wrap work).Failing P := by
  have hattempt : Failing P (attempt work) := fun _ => .ok _
  unfold telling
  refine hattempt.bind fun r => ?_
  split
  · exact failing_pure _
  · exact failing_throw hn
  · exact failing_throw (hw _)

theorem failing_plainly (work : FileWork α) : (plainly work).Failing Failure.IsOther := by
  unfold plainly
  refine failing_telling (fun e => ?_) ?_ work
  · exact rfl
  · exact rfl

end DiskWork

/-! ## Waking and creating -/

namespace Signal

/-- A signal that brings no error of workspaces. -/
def IsHarmless : Signal → Prop
  | .failed f => f.IsOther
  | _ => True

end Signal

/-- An operation that initializes a workspace. -/
def Operation.IsInitialization : Operation → Prop
  | .initialize_ _ => True
  | _ => False

/-- What became of what the tasks share: new tasks have later numbers, nobody is woken with an error of
workspaces, and whoever begins to wait for others waits for initializations that are new. -/
structure Unharmed (l l' : Loop ServerState Operation) : Prop where
  nextTask : l.nextTask ≤ l'.nextTask
  created : ∀ c ∈ l'.created, c ∈ l.created ∨ l.nextTask ≤ c.1 ∧ c.1 < l'.nextTask
  ready : ∀ w ∈ l'.ready, w ∈ l.ready ∨ w.signal.IsHarmless
  gatherings : ∀ g ∈ l'.gatherings, g ∈ l.gatherings ∨ ∀ child ∈ g.children,
    l.nextTask ≤ child ∧ child < l'.nextTask ∧
      ∀ operation, (child, operation) ∈ l'.created → (child, operation) ∈ l.created ∨ operation.IsInitialization

namespace Unharmed

variable {l l₁ l₂ : Loop ServerState Operation}

/-- What changes nothing but who is to run. -/
theorem of_ready (hn : l₁.nextTask = l.nextTask) (hc : l₁.created = l.created) (hg : l₁.gatherings = l.gatherings)
    (hr : ∀ w ∈ l₁.ready, w ∈ l.ready ∨ w.signal.IsHarmless) : Unharmed l l₁ :=
  ⟨Nat.le_of_eq hn.symm, fun _ h => .inl (hc ▸ h), hr, fun _ h => .inl (hg ▸ h)⟩

theorem refl (l : Loop ServerState Operation) : Unharmed l l := .of_ready rfl rfl rfl fun _ h => .inl h

theorem trans (h : Unharmed l l₁) (h' : Unharmed l₁ l₂) : Unharmed l l₂ := by
  refine ⟨Nat.le_trans h.nextTask h'.nextTask, fun c hc => ?_, fun w hw => ?_, fun g hg => ?_⟩
  · rcases h'.created c hc with hc | ⟨hle, hlt⟩
    · exact (h.created c hc).imp_right fun ⟨hle, hlt⟩ => ⟨hle, Nat.lt_of_lt_of_le hlt h'.nextTask⟩
    · exact .inr ⟨Nat.le_trans h.nextTask hle, hlt⟩
  · exact (h'.ready w hw).elim (h.ready w) .inr
  · rcases h'.gatherings g hg with hg | hnew
    · refine (h.gatherings g hg).imp_right fun hnew child hchild => ?_
      obtain ⟨hle, hlt, ho⟩ := hnew child hchild
      refine ⟨hle, Nat.lt_of_lt_of_le hlt h'.nextTask, fun operation hm => ?_⟩
      rcases h'.created _ hm with hm | ⟨hge, -⟩
      · exact ho operation hm
      · exact absurd hlt (Nat.not_lt.mpr hge)
    · refine .inr fun child hchild => ?_
      obtain ⟨hle, hlt, ho⟩ := hnew child hchild
      refine ⟨Nat.le_trans h.nextTask hle, hlt, fun operation hm => ?_⟩
      rcases ho operation hm with hm | ho
      · rcases h.created _ hm with hm | ⟨-, hlt'⟩
        · exact .inl hm
        · exact absurd hle (Nat.not_le.mpr hlt')
      · exact .inr ho

end Unharmed

/-! ## Acts -/

namespace ServerAct

variable {τ υ α β : Type} {P Q : Failure → Prop} {post : α → Prop}

/-- An act that does no harm and returns something with a property. -/
def Harmless (a : ServerAct α) (post : α → Prop) : Prop :=
  ∀ l, Unharmed l (a.leaves l) ∧ post (a.returns l)

namespace Harmless

theorem pure {a : α} (h : post a) : Harmless (pure a) post := fun l => ⟨.refl l, h⟩

theorem done {a : α} : Harmless (Pure.pure (Step.done a : Step τ α)) (Ends P) := .pure (Fails.ok a)

theorem waits {state : τ} : Harmless (Pure.pure (Step.waits state : Step τ α)) (Ends P) := .pure trivial

theorem fail {f : Failure} (h : P f) : Harmless (Pure.pure (Step.fail f : Step τ α)) (Ends P) := .pure (Fails.error h)

theorem mono {a : ServerAct α} {post' : α → Prop} (h : Harmless a post) (hp : ∀ x, post x → post' x) :
    Harmless a post' := fun l => ⟨(h l).1, hp _ (h l).2⟩

theorem any {a : ServerAct α} (h : Harmless a post) : Harmless a fun _ => True := h.mono fun _ _ => trivial

theorem ends_mono {a : ServerAct (Step τ α)} (h : Harmless a (Ends P)) (hpq : ∀ f, P f → Q f) :
    Harmless a (Ends Q) := by
  refine h.mono fun step hstep => ?_
  cases step with
  | waits => trivial
  | ends r => exact Fails.mono hstep hpq

theorem bind {a : ServerAct β} {f : β → ServerAct α} {mid : β → Prop} (ha : Harmless a mid)
    (hf : ∀ x, mid x → Harmless (f x) post) : Harmless (a >>= f) post := fun l =>
  ⟨(ha l).1.trans (hf _ (ha l).2 _).1, (hf _ (ha l).2 _).2⟩

/-- What touches nothing but the state. -/
theorem of_state {a : ServerAct α} (h : ∀ l, ∃ s, a.leaves l = { l with state := s }) :
    Harmless a fun _ => True := fun l => by
  obtain ⟨s, hs⟩ := h l
  exact ⟨hs ▸ .of_ready rfl rfl rfl fun _ h => .inl h, trivial⟩

end Harmless

theorem harmless_state : Harmless Act.state fun _ => True := .of_state fun l => ⟨l.state, rfl⟩

theorem harmless_self : Harmless Act.self fun _ => True := .of_state fun l => ⟨l.state, rfl⟩

theorem harmless_setState (s : ServerState) : Harmless (Act.setState s) fun _ => True := .of_state fun _ => ⟨s, rfl⟩

theorem harmless_modifyState (g : ServerState → ServerState) : Harmless (Act.modifyState g) fun _ => True :=
  .of_state fun l => ⟨g l.state, rfl⟩

theorem harmless_isClosed (gate : String) : Harmless (Act.isClosed gate) fun _ => True :=
  .of_state fun l => ⟨l.state, rfl⟩

theorem harmless_note (e : Event) : Harmless (note e) fun _ => True := harmless_modifyState _

theorem harmless_tell (n : Notice) : Harmless (tell n) fun _ => True := harmless_note _

theorem harmless_workspace? (id : WorkspaceId) : Harmless (workspace? id) fun _ => True :=
  .of_state fun l => ⟨l.state, rfl⟩

theorem harmless_updateWorkspace (id : WorkspaceId) (g : Workspace → Workspace) :
    Harmless (updateWorkspace id g) fun _ => True := harmless_modifyState _

theorem harmless_index (m : Mirror) : Harmless (index m) fun _ => True := .of_state fun l => ⟨l.state, rfl⟩

theorem harmless_record (m : Mirror) (entries : List MirrorEntry) : Harmless (record m entries) fun _ => True :=
  harmless_modifyState _

theorem harmless_onDisk {work : DiskWork α} (h : work.Failing P) : Harmless (onDisk work) (Fails P) := fun l =>
  ⟨.of_ready rfl rfl rfl fun _ hw => .inl hw, h l.state.disk⟩

theorem Harmless.withWorkspace {id : WorkspaceId} {absent : ServerAct α} {f : Workspace → ServerAct α}
    (ha : Harmless absent post) (hf : ∀ w, Harmless (f w) post) : Harmless (withWorkspace id absent f) post := by
  unfold ServerAct.withWorkspace
  refine (harmless_workspace? id).bind fun w? _ => ?_
  split
  · exact hf _
  · exact ha

theorem Harmless.forM {xs : List β} {f : β → ServerAct Unit} (hf : ∀ x, Harmless (f x) fun _ => True) :
    Harmless (xs.forM f) fun _ => True := by
  induction xs with
  | nil => exact .pure trivial
  | cons x rest ih => exact Harmless.bind (hf x) fun _ _ => ih

/-! ## Waking, cancelling and waiting -/

theorem harmless_wake {signal : Signal} (h : signal.IsHarmless) (task : TaskId) (turns : Nat) :
    Harmless (Act.wake task signal turns) fun _ => True := fun _ => by
  refine ⟨.of_ready rfl rfl rfl fun w hw => ?_, trivial⟩
  rcases List.mem_append.mp hw with hw | hw
  · exact .inl hw
  · rw [List.mem_singleton.mp hw]
    exact .inr h

theorem harmless_wake_go (task : TaskId) (turns : Nat) : Harmless (Act.wake task .go turns) fun _ => True :=
  harmless_wake (show Signal.go.IsHarmless from trivial) task turns

theorem mem_giveUp {ready : List Wake} {task : TaskId} {w : Wake} (h : w ∈ Act.giveUp ready task) :
    w ∈ ready ∨ w.signal.IsHarmless := by
  rcases List.mem_append.mp h with h | h
  · exact .inl (List.mem_filter.mp h).1
  · rw [List.mem_singleton.mp h]
    exact .inr trivial

theorem mem_foldl_giveUp {tasks : List TaskId} {ready : List Wake} {w : Wake}
    (h : w ∈ tasks.foldl Act.giveUp ready) : w ∈ ready ∨ w.signal.IsHarmless := by
  induction tasks generalizing ready with
  | nil => exact .inl h
  | cons task rest ih => exact (ih h).elim mem_giveUp .inr

theorem harmless_cancel (task : TaskId) : Harmless (Act.cancel task) fun _ => True := fun _ =>
  ⟨.of_ready rfl rfl rfl fun _ hw => mem_foldl_giveUp hw, trivial⟩

theorem harmless_waitAt (gate : String) (state : τ) :
    Harmless (Act.waitAt gate state : ServerAct (Step τ α)) (Ends P) := fun _ =>
  ⟨.of_ready rfl rfl rfl fun _ hw => .inl hw, trivial⟩

theorem Harmless.through {gate : String} {state : τ} {next : ServerAct (Step τ α)} (h : Harmless next (Ends P)) :
    Harmless (Act.through gate state next) (Ends P) := by
  unfold Act.through
  refine (harmless_isClosed gate).bind fun closed _ => ?_
  split
  · exact harmless_waitAt gate state
  · exact h

theorem Harmless.afterwards {part : ServerAct (Step τ α)} {wrap : τ → υ}
    {next : Except Failure α → ServerAct (Step υ β)} (hp : Harmless part (Ends P))
    (hn : ∀ r, Fails P r → Harmless (next r) (Ends Q)) : Harmless (Act.afterwards part wrap next) (Ends Q) := by
  unfold Act.afterwards
  refine hp.bind fun step hstep => ?_
  cases step with
  | waits state => exact .waits
  | ends r => exact hn r hstep

theorem Harmless.andThen {part : ServerAct (Step τ α)} {wrap : τ → υ} {next : α → ServerAct (Step υ β)}
    (hp : Harmless part (Ends P)) (hn : ∀ a, Harmless (next a) (Ends P)) :
    Harmless (Act.andThen part wrap next) (Ends P) := by
  refine hp.afterwards fun r hr => ?_
  cases r with
  | ok a => exact hn a
  | error f => exact .fail (hr f rfl)

section Locks

variable {place : Act.LockPlace ServerState}

theorem harmless_wakeHolder (task? : Option TaskId) : Harmless (Act.wakeHolder task?) fun _ => True := by
  cases task? with
  | none => exact .pure trivial
  | some task => exact harmless_wake_go task 0

theorem Harmless.acquire {state : τ} {next : ServerAct (Step τ α)} (h : Harmless next (Ends P)) :
    Harmless (Act.acquire place state next) (Ends P) := by
  unfold Act.acquire
  refine harmless_self.bind fun task _ => harmless_state.bind fun s _ => ?_
  refine (harmless_modifyState _).bind fun _ _ => ?_
  split
  · exact h
  · exact .waits

theorem harmless_unlock : Harmless (Act.unlock place) fun _ => True := by
  unfold Act.unlock
  exact harmless_state.bind fun s _ => (harmless_modifyState _).bind fun _ _ => harmless_wakeHolder _

theorem harmless_abandon : Harmless (Act.abandon place) fun _ => True := by
  unfold Act.abandon
  exact harmless_self.bind fun task _ => harmless_state.bind fun s _ =>
    (harmless_modifyState _).bind fun _ _ => harmless_wakeHolder _

end Locks

/-! ## Creating tasks -/

theorem harmless_create (operation : Operation) : Harmless (Act.create operation) fun _ => True := fun l => by
  refine ⟨⟨Nat.le_succ _, fun c hc => ?_, fun w hw => ?_, fun _ hg => .inl hg⟩, trivial⟩
  · rcases List.mem_append.mp hc with hc | hc
    · exact .inl hc
    · rw [List.mem_singleton.mp hc]
      exact .inr ⟨Nat.le_refl _, Nat.lt_succ_self _⟩
  · rcases List.mem_append.mp hw with hw | hw
    · exact .inl hw
    · rw [List.mem_singleton.mp hw]
      exact .inr trivial

/-- Tasks that were created one after the other have new numbers and do what they were created for. -/
theorem created_mapM_create (operations : List Operation) (l : Loop ServerState Operation) :
    let a : ServerAct (List TaskId) := operations.mapM Act.create
    Unharmed l (a.leaves l) ∧ (a.leaves l).gatherings = l.gatherings ∧
      (∀ c ∈ (a.leaves l).created, c ∈ l.created ∨ c.2 ∈ operations) ∧
      ∀ child ∈ a.returns l, l.nextTask ≤ child ∧ child < (a.leaves l).nextTask := by
  induction operations generalizing l with
  | nil => exact ⟨.refl l, rfl, fun _ h => .inl h, fun _ h => absurd h List.not_mem_nil⟩
  | cons o rest ih =>
      let l₁ := (Act.create o : ServerAct TaskId).leaves l
      have hfirst : Unharmed l l₁ := (harmless_create o l).1
      obtain ⟨hrest, hgatherings, hcreated, hchildren⟩ := ih l₁
      intro a
      have hleaves : a.leaves l = (rest.mapM Act.create : ServerAct (List TaskId)).leaves l₁ := by
        show Act.leaves ((o :: rest).mapM Act.create) l = _
        rw [List.mapM_cons]
        rfl
      have hreturns : a.returns l = l.nextTask :: (rest.mapM Act.create : ServerAct (List TaskId)).returns l₁ := by
        show Act.returns ((o :: rest).mapM Act.create) l = _
        rw [List.mapM_cons]
        rfl
      rw [hleaves, hreturns]
      refine ⟨hfirst.trans hrest, hgatherings, fun c hc => ?_, fun child hchild => ?_⟩
      · rcases hcreated c hc with hc | hc
        · rcases List.mem_append.mp hc with hc | hc
          · exact .inl hc
          · rw [List.mem_singleton.mp hc]
            exact .inr List.mem_cons_self
        · exact .inr (List.mem_cons_of_mem _ hc)
      · rcases List.mem_cons.mp hchild with rfl | hchild
        · exact ⟨Nat.le_refl _, hrest.nextTask⟩
        · exact ⟨Nat.le_of_lt (hchildren child hchild).1, (hchildren child hchild).2⟩

theorem Harmless.gather {operations : List Operation} {state : τ} {next : ServerAct (Step τ α)}
    (ho : ∀ o ∈ operations, o.IsInitialization) (hn : Harmless next (Ends P)) :
    Harmless (Act.gather operations state next) (Ends P) := fun l => by
  obtain ⟨hcreate, hgatherings, hcreated, hchildren⟩ := created_mapM_create operations l
  generalize hl : (operations.mapM Act.create : ServerAct (List TaskId)).leaves l = l₁ at *
  generalize hc : (operations.mapM Act.create : ServerAct (List TaskId)).returns l = children at *
  have hgather : Act.gather operations state next =
      (operations.mapM Act.create >>= fun children =>
        if children.isEmpty then next
        else do
          modify fun l => { l with gatherings := l.gatherings ++ [⟨l.current, children, false⟩] }
          Pure.pure (.waits state)) := rfl
  rw [hgather, Act.leaves_bind, Act.returns_bind, hl, hc]
  split
  · exact ⟨hcreate.trans (hn l₁).1, (hn l₁).2⟩
  · refine ⟨⟨hcreate.nextTask, hcreate.created, hcreate.ready, fun g hg => ?_⟩, trivial⟩
    rcases List.mem_append.mp hg with hg | hg
    · exact .inl (hgatherings ▸ hg)
    · rw [List.mem_singleton.mp hg]
      refine .inr fun child hchild => ⟨(hchildren child hchild).1, (hchildren child hchild).2, fun operation hm => ?_⟩
      exact (hcreated _ hm).imp_right (ho operation)

end ServerAct

end InkServer
