import InkServer.Client.Reception
import InkServer.Proofs.Server.Operations
import InkServer.Proofs.Task.Runs
import InkServer.Server.Run

/-!
# Runs of the server

A run begins with a server that nobody has used and goes on with any moves in any order: tasks take their
turns, requests and messages arrive, tasks are cancelled, gates let them through, and others work on the
files meanwhile. However it went, the state got there by steps of the server and of others.
-/

namespace InkServer

open ServerState ServerAct

/-! ## What others do -/

/-- What others do that the server takes no part in. -/
inductive Foreign where
  /-- Somebody works on files. -/
  | files (work : FileWork Unit)
  /-- Somebody deletes a mirror. -/
  | vanishes (mirror : Mirror)
  /-- From now on nothing can be written into mirrors, or it can again. -/
  | blocks (writeFailure : Option String)

/-- What somebody else does to the disk. -/
def Foreign.effect : Foreign → Disk → Disk
  | .files work, d => { d with files := Work.leaves work d.files }
  | .vanishes m, d =>
    { d with files := Work.leaves (FileWork.removeTree m.path) d.files, history := d.history ++ [.deleted m.path] }
  | .blocks writeFailure, d => { d with writeFailure }

/-- What may be done to a server from outside. -/
inductive External where
  /-- The server is asked to do something. -/
  | asks (operation : Operation)
  | notification (method : String) (params : Value)
  | request (method : String) (params : Value)
  | reply (index : Nat) (answer : Except Failure Value)
  /-- A folder is registered and nothing more. -/
  | registers (folder : Folder)
  | closes (uri : String)
  | invalidates
  /-- The time of a compiler is over. -/
  | expires
  /-- What no workspace takes part in becomes that of another state: settings, answers, the client and how
  compilers behave. -/
  | adjusts (other : ServerState)
  | foreign (f : Foreign)

namespace External

/-- What is done to a server from outside, as an act. -/
def act : External → ServerAct Unit
  | .asks operation => if operation.isServed then discard (Act.create operation) else pure ()
  | .notification method params => Reception.notification method params
  | .request method params => Reception.nextRequest method params
  | .reply index answer => discard (Reception.reply index answer)
  | .registers folder => discard (JointInitialization.register folder)
  | .closes uri => closeDocument uri
  | .invalidates => invalidateSettings
  | .expires => discard Invocation.expireFirst
  | .adjusts other => Act.modifyState fun s =>
    { other with
      disk := s.disk
      policy := s.policy
      workspaces := s.workspaces
      registered := s.registered
      documents := s.documents
      publisher := s.publisher
      events := s.events }
  | .foreign f => Act.modifyState fun s => { s with disk := f.effect s.disk }

end External

namespace ServerState

/-- One step of the server, or of others as far as `allowed` lets them. -/
inductive Step (allowed : Foreign → Prop) (s : ServerState) : ServerState → Prop where
  | own {s' : ServerState} (h : Change s s') : Step allowed s s'
  | foreign {f : Foreign} (h : allowed f) : Step allowed s { s with disk := f.effect s.disk }

/-- Any number of steps. -/
abbrev Steps (allowed : Foreign → Prop) : ServerState → ServerState → Prop :=
  Relation.ReflTransGen (Step allowed)

variable {allowed : Foreign → Prop} {s s' : ServerState}

theorem Leads.steps (h : Leads s s') : Steps allowed s s' := by
  induction h with
  | refl => exact .refl
  | tail _ h ih => exact ih.tail (.own h)

/-- Others make no mirrors. -/
theorem later_foreign (s : ServerState) (f : Foreign) : Later s { s with disk := f.effect s.disk } := by
  refine ⟨rfl, Nat.le_of_eq ?_, Nat.le_refl _, List.prefix_refl _, fun _ hg => hg.of_le (Nat.le_refl _) fun _ h => h⟩
  cases f <;> rfl

theorem Step.later (h : Step allowed s s') : Later s s' := by
  cases h with
  | own h => exact h.later
  | foreign => exact later_foreign s _

theorem Steps.later (h : Steps allowed s s') : Later s s' := by
  induction h with
  | refl => exact .refl _
  | tail _ h ih => exact ih.trans h.later

theorem Sound.step (hs : s.Sound) (h : Step allowed s s') : s'.Sound := by
  have hl := h.later
  cases h with
  | own h => exact hs.change h
  | foreign =>
      exact ⟨⟨hs.keyed, fun w hw m hm => (hs.made w hw m hm).later hl⟩, fun id g m hm => (hs.claimed id g m hm).later hl⟩

theorem Steps.sound (h : Steps allowed s s') (hs : s.Sound) : s'.Sound := by
  induction h with
  | refl => exact hs
  | tail _ h ih => exact ih.step h

/-- What every step of a server keeps is kept by all. -/
theorem Steps.keeps {p : ServerState → Prop} (h : Steps allowed s s') (hs : s.Sound) (hp : p s)
    (own : ∀ s s', s.Sound → Change s s' → p s → p s')
    (foreign : ∀ s f, allowed f → s.Sound → p s → p { s with disk := f.effect s.disk }) :
    s'.Sound ∧ p s' := by
  induction h with
  | refl => exact ⟨hs, hp⟩
  | tail _ h ih =>
      refine ⟨ih.1.step h, ?_⟩
      cases h with
      | own h => exact own _ _ ih.1 h ih.2
      | foreign h => exact foreign _ _ h ih.1 ih.2

end ServerState

/-! ## What arrives from outside -/

namespace Reception

variable {l : Loop ServerState Operation}

theorem proceeds_updateClient (f : Client → Client) : Proceeds (updateClient f) l fun _ _ => True :=
  proceeds_aside (by constructor <;> rfl)

theorem proceeds_handle {operation : Operation} (h : operation.isServed) :
    Proceeds (handle operation) l fun _ _ => True :=
  (proceeds_create h).bind fun _ _ _ _ => proceeds_updateClient _

theorem proceeds_changeWorkspace (f : ClientWorkspace → Except Failure ClientWorkspace) :
    Proceeds (changeWorkspace f) l fun _ _ => True := by
  unfold changeWorkspace
  rw [proceeds_state]
  split
  · exact .pure trivial
  · split
    · exact .pure trivial
    · exact (proceeds_updateClient _).bind fun _ _ _ _ => .pure trivial

theorem proceeds_takeNote (method : String) (params : Value) :
    Proceeds (takeNote method params) l fun _ _ => True := by
  unfold takeNote
  dsimp only
  split
  · exact proceeds_changeWorkspace _
  · exact proceeds_changeWorkspace _
  · exact proceeds_changeWorkspace _
  · exact proceeds_changeWorkspace _
  · exact .pure trivial

theorem proceeds_dispatch (method : String) (params : Value) :
    Proceeds (dispatch method params) l fun _ _ => True := by
  unfold dispatch
  rw [proceeds_state]
  split
  · exact proceeds_handle rfl
  · split
    · exact proceeds_invalidateSettings
    · exact .pure trivial

theorem proceeds_notification (method : String) (params : Value) :
    Proceeds (notification method params) l fun _ _ => True := by
  unfold notification
  rw [proceeds_state]
  split
  · exact proceeds_updateClient _
  · split
    · refine (proceeds_takeNote method params).bind fun r l₁ _ _ => ?_
      split
      · exact proceeds_dispatch method params
      · exact (proceeds_tell _).mono fun _ _ _ _ => trivial
    · exact .pure trivial

/-- Saying something to the client is all there is to it. -/
theorem proceeds_send (message : Value) : Proceeds (note (.sent message)) l fun _ _ => True :=
  (proceeds_noteCasually rfl).mono fun _ _ _ _ => trivial

theorem proceeds_initialize (id params : Value) :
    Proceeds (initialize_ id params) l fun _ _ => True := by
  unfold initialize_
  split
  · exact proceeds_send _
  · refine (proceeds_updateClient _).bind fun _ l₁ _ _ => ?_
    rw [proceeds_state]
    exact proceeds_send _

theorem proceeds_shutdown (id : Value) : Proceeds (shutdown id) l fun _ _ => True := by
  unfold shutdown
  rw [proceeds_state]
  have hcancel : ∀ (l : Loop ServerState Operation) task, Proceeds (Act.cancel task) l fun _ _ => True :=
    fun l task => (proceeds_cancel task).mono fun _ _ _ _ => trivial
  refine Proceeds.bind (.forM fun task _ l₁ _ => hcancel l₁ task) fun _ l₁ _ _ => ?_
  refine Proceeds.bind (.forM fun r _ l₂ _ => hcancel l₂ r.task) fun _ l₂ _ _ => ?_
  exact Proceeds.bind (proceeds_aside (by constructor <;> rfl)) fun _ _ _ _ => proceeds_send _

theorem proceeds_command (id params : Value) : Proceeds (command id params) l fun _ _ => True := by
  unfold command
  dsimp only
  rw [proceeds_state]
  split
  · exact proceeds_handle rfl
  · exact proceeds_send _

theorem proceeds_nextRequest (method : String) (params : Value) :
    Proceeds (nextRequest method params) l fun _ _ => True := by
  refine (proceeds_updateClient _).bind fun _ l₁ _ _ => ?_
  rw [proceeds_state]
  unfold request
  rw [proceeds_state]
  split
  · split
    · exact proceeds_initialize _ _
    · exact proceeds_shutdown _
    · exact proceeds_command _ _
    · exact proceeds_send _
  · exact .pure trivial

theorem proceeds_reply (index : Nat) (answer : Except Failure Value) :
    Proceeds (reply index answer) l fun _ _ => True := by
  unfold reply
  rw [proceeds_state]
  dsimp only
  split
  · exact .pure trivial
  · refine (proceeds_updateClient _).bind fun _ l₁ _ _ => ?_
    split
    · exact .pure trivial
    · refine (proceeds_updateClient _).bind fun _ l₂ _ _ => ?_
      exact (proceeds_wake _ _ _).bind fun _ _ _ _ => .pure trivial

end Reception

theorem Invocation.proceeds_expireFirst {l : Loop ServerState Operation} :
    Proceeds expireFirst l fun _ _ => True := by
  unfold expireFirst
  rw [proceeds_state]
  split
  · exact .pure trivial
  · refine Proceeds.bind (proceeds_aside (by constructor <;> rfl)) fun _ l₁ _ _ => ?_
    have hgates : ∀ f : Loop ServerState Operation → Loop ServerState Operation,
        (f l₁).state = l₁.state → (f l₁).created = l₁.created →
        Proceeds (Act.modifyLoop f) l₁ fun _ s => s = l₁.state :=
      fun f hs hc => proceeds_of_state_eq hs hc
    refine (hgates _ rfl rfl).bind fun _ l₂ _ _ => ?_
    exact (proceeds_wake _ _ _).bind fun _ _ _ _ => .pure trivial

namespace External

variable {l : Loop ServerState Operation}

theorem proceeds_discard {α : Type} {a : ServerAct α} {post : α → ServerState → Prop}
    (h : Proceeds a l post) : Proceeds (discard a) l fun _ _ => True := by
  intro hs
  obtain ⟨hl, hc, _⟩ := h hs
  exact ⟨hl, hc, trivial⟩

/-- What is done from outside goes by steps of the server, unless others do it. -/
theorem proceeds_act {e : External} (h : ∀ f, e ≠ .foreign f) : Proceeds e.act l fun _ _ => True := by
  cases e with
  | asks operation =>
      show Proceeds (if operation.isServed then discard (Act.create operation) else pure ()) l fun _ _ => True
      split
      · rename_i ho
        exact proceeds_discard (proceeds_create ho)
      · exact .pure trivial
  | notification method params => exact Reception.proceeds_notification method params
  | request method params => exact Reception.proceeds_nextRequest method params
  | reply index answer => exact proceeds_discard (Reception.proceeds_reply index answer)
  | registers folder => exact proceeds_discard (JointInitialization.proceeds_register folder)
  | closes uri => exact proceeds_closeDocument uri
  | invalidates => exact proceeds_invalidateSettings
  | expires => exact proceeds_discard Invocation.proceeds_expireFirst
  | adjusts other => exact proceeds_aside (by constructor <;> rfl)
  | foreign f => exact absurd rfl (h f)

end External

/-! ## Runs -/

namespace Server

/-- What holds of a server with its tasks at all times: all they wait with was given by the server. -/
structure Lawful (s : Server) : Prop where
  sound : s.state.Sound
  created : s.loop.created = []
  begins : ∀ task operation, (task, .created operation) ∈ s.tasks → operation.isServed
  fits : ∀ task state, (task, .waiting state) ∈ s.tasks → state.Fits s.state

/-- A server that nobody has used. -/
structure IsFresh (s : ServerState) : Prop where
  workspaces : s.workspaces = []
  registered : s.registered = {}
  documents : s.documents = {}
  events : s.events = []
  history : s.disk.history = []

theorem IsFresh.sound {s : ServerState} (h : IsFresh s) : s.Sound := by
  refine ⟨⟨fun uri id hr => ?_, fun w hw => ?_⟩, fun id g m hm => ?_⟩
  · rw [h.registered] at hr
    cases hr
  · rw [h.workspaces] at hw
    cases hw
  · rw [h.events] at hm
    cases hm

theorem lawful_ofState {s : ServerState} (h : IsFresh s) : Lawful (Session.ofState s) :=
  ⟨h.sound, rfl, fun _ _ h => absurd h List.not_mem_nil, fun _ _ h => absurd h List.not_mem_nil⟩

variable {s : Server}

/-- The tasks of a lawful server may be fewer, and its state may be a later one. -/
theorem Lawful.mono {s' : Server} (h : Lawful s) (hs : s'.state.Sound) (hl : s.state.Later s'.state)
    (hc : s'.loop.created = []) (ht : ∀ t ∈ s'.tasks, t ∈ s.tasks) : Lawful s' :=
  ⟨hs, hc, fun task operation hm => h.begins task operation (ht _ hm),
    fun task state hm => (h.fits task state (ht _ hm)).later hl⟩

/-- What was created by an act of the server is taken up. -/
theorem Lawful.adopt {l : Loop ServerState Operation} {tasks : List (TaskId × Suspended Operation Waiting)}
    (h : Lawful s) (hs : l.state.Sound) (hl : s.state.Later l.state)
    (hc : ∀ c ∈ l.created, c ∈ s.loop.created ∨ c.2.isServed) (ht : ∀ t ∈ tasks, t ∈ s.tasks) :
    Lawful (({ s with loop := l, tasks } : Server).adopt) := by
  have hserved : ∀ c ∈ l.created, c.2.isServed := fun c hm => by
    rcases hc c hm with hm | hm
    · rw [h.created] at hm
      cases hm
    · exact hm
  refine ⟨hs, rfl, fun task operation hm => ?_, fun task state hm => ?_⟩
  · rcases List.mem_append.mp hm with hm | hm
    · exact h.begins task operation (ht _ hm)
    · obtain ⟨c, hc, he⟩ := List.mem_map.mp hm
      cases he
      exact hserved c hc
  · rcases List.mem_append.mp hm with hm | hm
    · exact (h.fits task state (ht _ hm)).later hl
    · obtain ⟨c, hc, he⟩ := List.mem_map.mp hm
      cases he

/-- Doing something that goes by steps of the server. -/
theorem Lawful.act {α : Type} {a : ServerAct α} {post : α → ServerState → Prop} (h : Lawful s)
    (ha : Proceeds a s.loop post) :
    Lawful (s.act a).2 ∧ Leads s.state (s.act a).2.state := by
  obtain ⟨hl, hc, _⟩ := ha h.sound
  rw [Session.act_eq]
  exact ⟨h.adopt (h.sound.leads hl) hl.later hc fun _ h => h, hl⟩

/-- A task that went on to its next wait or its end. -/
theorem Lawful.wentOn {task : TaskId} {l : Loop ServerState Operation} {a : ServerAct (Step Waiting Result)}
    (h : Lawful s) (hs : l.state = s.state) (hcreated : l.created = [])
    (ha : Proceeds a l (Waits Waiting.Fits)) :
    a.Reaches l
      (fun state l => Lawful (s.wentOn task (.waits state) l) ∧
        Leads s.state (s.wentOn task (.waits state) l).state)
      fun r l => Lawful (s.wentOn task (.ends r) l) ∧ Leads s.state (s.wentOn task (.ends r) l).state := by
  obtain ⟨hl, hc, hp⟩ := ha (hs ▸ h.sound)
  rw [hs] at hl
  rw [hcreated, ← h.created] at hc
  have hadopt : Lawful (({ s with loop := a.leaves l, tasks := s.without task } : Server).adopt) :=
    h.adopt (h.sound.leads hl) hl.later hc fun t ht => (Session.mem_without.mp ht).1
  unfold Act.Reaches
  split
  · rename_i state hstate
    rw [hstate] at hp
    refine ⟨⟨hadopt.sound, rfl, fun task' operation hm => ?_, fun task' state' hm => ?_⟩, hl⟩
    · rcases List.mem_append.mp hm with hm | hm
      · exact hadopt.begins task' operation hm
      · cases List.mem_singleton.mp hm
    · rcases List.mem_append.mp hm with hm | hm
      · exact hadopt.fits task' state' hm
      · cases List.mem_singleton.mp hm
        exact hp
  · rename_i r _
    -- Those who wait for the task are told, and no state is touched.
    obtain ⟨hlawful, _⟩ := hadopt.act (a := Act.noteEnd task (match r with
      | .ok _ => none
      | .error f => some f)) (proceeds_of_state_eq rfl rfl)
    exact ⟨⟨hlawful.sound, hlawful.created, hlawful.begins, hlawful.fits⟩, hl⟩

/-- Taking a turn goes by steps of the server. -/
theorem Lawful.turn {outside : External → ServerAct Unit} (h : Lawful s) :
    Lawful (s.advance serverMachine outside .turn) ∧
      Leads s.state (s.advance serverMachine outside .turn).state := by
  have hready : ∀ ready, Lawful { s with loop := { s.loop with ready } } ∧
      Leads s.state ({ s with loop := { s.loop with ready } } : Server).state :=
    fun ready => ⟨⟨h.sound, h.created, h.begins, h.fits⟩, .refl⟩
  refine Session.turn_keeps (p := fun s' => Lawful s' ∧ Leads s.state s'.state) ⟨h, .refl⟩
    (fun _ _ _ _ => hready _) (fun _ _ _ _ => hready _) fun w rest x hr hx => ?_
  refine Session.run_of_reaches (p := fun s' => Lawful s' ∧ Leads s.state s'.state) hx
    ((hready rest).1.wentOn (l := { s.loop with ready := rest, current := w.task }) rfl h.created ?_)
  have hmem := Session.mem_of_task? hx
  cases x with
  | created operation => exact Waiting.proceeds_start (h.begins _ operation hmem) w.signal
  | waiting state =>
      refine Waiting.proceeds_resume ?_ w.signal
      exact h.fits _ state hmem

/-- What may happen in a run in which others do only what `allowed` lets them. -/
def Allows (allowed : Foreign → Prop) : Session.Move External → Prop
  | .outside (.foreign f) => allowed f
  | _ => True

variable {allowed : Foreign → Prop}

/-- Every move goes by steps of the server and of others. -/
theorem Lawful.advance (h : Lawful s) {move : Session.Move External} (hm : Allows allowed move) :
    Lawful (s.advance serverMachine External.act move) ∧
      Steps allowed s.state (s.advance serverMachine External.act move).state := by
  have hquiet : ∀ a : ServerAct Unit, (∀ l, (a.leaves l).state = l.state ∧ (a.leaves l).created = l.created) →
      Lawful (s.act a).2 ∧ Steps allowed s.state (s.act a).2.state := fun a ha => by
    obtain ⟨hlawful, hl⟩ := h.act (proceeds_of_state_eq (ha s.loop).1 (ha s.loop).2)
    exact ⟨hlawful, hl.steps⟩
  cases move with
  | turn =>
      obtain ⟨hlawful, hl⟩ := h.turn
      exact ⟨hlawful, hl.steps⟩
  | cancels task =>
      show Lawful (s.cancel task).2 ∧ Steps allowed s.state (s.cancel task).2.state
      unfold Session.cancel
      split
      · exact hquiet (Act.cancel task) fun l => ⟨rfl, rfl⟩
      · exact ⟨h, .refl⟩
  | passes task signal =>
      refine hquiet (Act.pass task signal) fun l => ?_
      unfold Act.pass
      rw [Act.leaves_modify]
      split <;> exact ⟨rfl, rfl⟩
  | closes gate => exact hquiet (Act.close gate) fun l => ⟨rfl, rfl⟩
  | opens gate => exact hquiet (Act.open_ gate) fun l => ⟨rfl, rfl⟩
  | outside e =>
      by_cases he : ∃ f, e = .foreign f
      · obtain ⟨f, rfl⟩ := he
        have hstep : ServerState.Step allowed s.state { s.state with disk := f.effect s.state.disk } := .foreign hm
        refine ⟨?_, .single hstep⟩
        exact h.adopt (h.sound.step hstep) hstep.later (fun _ hc => .inl hc) fun _ h => h
      · obtain ⟨hlawful, hl⟩ := h.act (External.proceeds_act fun f hf => he ⟨f, hf⟩)
        exact ⟨hlawful, hl.steps⟩

/-- A server after some moves. -/
def run (s : ServerState) (moves : List (Session.Move External)) : Server :=
  (Session.ofState s : Server).after serverMachine External.act moves

/-- However a run goes, it goes by steps of the server and of others. -/
theorem Lawful.after (h : Lawful s) {moves : List (Session.Move External)}
    (hm : ∀ move ∈ moves, Allows allowed move) :
    Lawful (s.after serverMachine External.act moves) ∧
      Steps allowed s.state (s.after serverMachine External.act moves).state := by
  induction moves generalizing s with
  | nil => exact ⟨h, .refl⟩
  | cons move rest ih =>
      obtain ⟨hlawful, hl⟩ := h.advance (hm move List.mem_cons_self)
      obtain ⟨hlawful', hl'⟩ := ih hlawful fun move hmem => hm move (List.mem_cons_of_mem _ hmem)
      exact ⟨hlawful', hl.trans hl'⟩

/-- A run of a server that nobody has used. -/
theorem steps_run {s : ServerState} (h : IsFresh s) {moves : List (Session.Move External)}
    (hm : ∀ move ∈ moves, Allows allowed move) : Steps allowed s (run s moves).state :=
  ((lawful_ofState h).after hm).2

/-- A run that goes on. -/
theorem steps_run_append {s : ServerState} (h : IsFresh s) {moves more : List (Session.Move External)}
    (hm : ∀ move ∈ moves ++ more, Allows allowed move) :
    Steps allowed (run s moves).state (run s (moves ++ more)).state := by
  have hlawful := (lawful_ofState h).after fun move hmem => hm move (List.mem_append_left _ hmem)
  unfold run
  rw [Session.after_append]
  exact (hlawful.1.after fun move hmem => hm move (List.mem_append_right _ hmem)).2

/-- Others may do whatever they can. -/
theorem allows_all {move : Session.Move External} : Allows (fun _ => True) move := by
  cases move with
  | outside e => cases e <;> trivial
  | _ => trivial

/-! ## A small server -/

/-- A server on a machine with one story in `/p`, whose mirrors go to `/m`. -/
def sample (behaviours : List (Option Behaviour)) : ServerState where
  disk := { files := ⟨⟨[(["p"], .directory), (["p", "a.ink"], .file ByteArray.empty), (["m"], .directory)]⟩⟩ }
  policy := { extensions := [".ink"], tempRoot := .ofText "/m" }
  behaviours

theorem isFresh_sample (behaviours : List (Option Behaviour)) : IsFresh (sample behaviours) :=
  ⟨rfl, rfl, rfl, rfl, rfl⟩

/-- The story of the sample with a text of the client's. -/
def sampleDocument (version : Int) (text : String) : OpenDocument := ⟨"file:///p/a.ink", version, text⟩

end Server

end InkServer
