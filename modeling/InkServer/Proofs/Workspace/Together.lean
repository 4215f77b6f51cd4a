import InkServer.Proofs.Server.Runs
import InkServer.Proofs.Workspace.Initializing
import Mathlib.Data.List.Nodup

/-!
# Workspaces that are initialized together

Several folders are registered one after the other, and then their workspaces are initialized side by side. A
folder whose mirror can be made becomes ready whatever becomes of the others, as long as every folder has a path:
one without keeps all of them from being initialized. An initialization that fails with anything but a mirror that
could not be made fails the whole call, though the others still go on.
-/

namespace InkServer

open Work ServerAct

/-! ## Registering -/

namespace ServerState

/-- A server on which nothing is removed or compiled. -/
structure IsIdle (s : ServerState) : Prop where
  known : ∀ uri id, s.registered.get? uri = some id → ∃ w, s.workspaces[id]? = some w ∧ w.uri = uri ∧
    w.state ≠ .removed ∧ w.state ≠ .compileInFlight

/-- Whether a folder can be registered, or is registered already. -/
def HasPath (s : ServerState) (folder : Folder) : Prop :=
  (∃ id, s.registered.get? folder.uri = some id) ∨ ∃ w, Workspace.ofFolder folder = .ok w

/-- What registering folders changes. -/
structure Registers (s s' : ServerState) : Prop where
  rest : s' = { s with workspaces := s'.workspaces, registered := s'.registered }
  isIdle : s.IsIdle → s'.IsIdle
  kept : ∀ uri id, s.registered.get? uri = some id → s'.registered.get? uri = some id
  came : ∀ uri id, s'.registered.get? uri = some id → s.registered.get? uri = some id ∨
    ∀ folder : Folder, folder.uri = uri → ∃ w, Workspace.ofFolder folder = .ok w

variable {s s' s'' : ServerState}

theorem Registers.refl : Registers s s := ⟨rfl, id, fun _ _ => id, fun _ _ => .inl⟩

theorem Registers.trans (h : Registers s s') (h' : Registers s' s'') : Registers s s'' := by
  refine ⟨?_, h'.isIdle ∘ h.isIdle, fun uri id hr => h'.kept uri id (h.kept uri id hr), fun uri id hr => ?_⟩
  · have hrest := h'.rest
    rw [h.rest] at hrest
    exact hrest
  · exact (h'.came uri id hr).elim (h.came uri id) .inr

theorem Registers.hasPath_iff (h : Registers s s') (folder : Folder) : s'.HasPath folder ↔ s.HasPath folder := by
  constructor
  · rintro (⟨id, hr⟩ | hp)
    · rcases h.came _ _ hr with hr | hp
      · exact .inl ⟨id, hr⟩
      · exact .inr (hp folder rfl)
    · exact .inr hp
  · rintro (⟨id, hr⟩ | hp)
    · exact .inl ⟨id, h.kept _ _ hr⟩
    · exact .inr hp

end ServerState

open ServerState

theorem Workspace.ofFolder_eq_ok {folder : Folder} {w : Workspace} (h : ofFolder folder = .ok w) :
    w.uri = folder.uri ∧ w.state = .uninitialized ∧ ∀ other : Folder, other.uri = folder.uri →
      ∃ w, ofFolder other = .ok w := by
  obtain ⟨root, hp, rfl⟩ := eq_of_ofFolder h
  refine ⟨rfl, rfl, fun other ho => ?_⟩
  unfold ofFolder
  rw [ho, hp]
  exact ⟨_, rfl⟩

namespace JointInitialization

variable {l : Loop ServerState Operation}

/-- Registering a folder that has a path. -/
theorem register_ok {folder : Folder} (h : l.state.HasPath folder) :
    ∃ id s', (register folder).returns l = .ok id ∧ (register folder).leaves l = { l with state := s' } ∧
      Registers l.state s' ∧ s'.registered.get? folder.uri = some id := by
  unfold register
  rw [Act.returns_bind, Act.leaves_bind, Act.returns_state, Act.leaves_state]
  cases hr : l.state.registered.get? folder.uri with
  | some id => exact ⟨id, l.state, rfl, rfl, .refl, hr⟩
  | none =>
      obtain ⟨w, hw⟩ := h.resolve_left fun ⟨id, hid⟩ => nomatch hr.symm.trans hid
      obtain ⟨huri, hstate, hothers⟩ := Workspace.ofFolder_eq_ok hw
      rw [hw]
      refine ⟨l.state.workspaces.length, _, rfl, rfl, ⟨rfl, fun hs => ⟨fun uri id hid => ?_⟩, fun uri id hid => ?_,
        fun uri id hid => ?_⟩, Dict.get?_insert_self _ _ _⟩
      · rw [Dict.get?_insert] at hid
        dsimp only
        split at hid
        · cases hid
          rename_i he
          rw [List.getElem?_concat_length]
          exact ⟨w, rfl, huri.trans he, by rw [hstate]; exact Lifecycle.noConfusion,
            by rw [hstate]; exact Lifecycle.noConfusion⟩
        · obtain ⟨w', hw', hrest⟩ := hs.known uri id hid
          rw [List.getElem?_append_left (List.getElem?_eq_some_iff.mp hw').1]
          exact ⟨w', hw', hrest⟩
      · rw [Dict.get?_insert_of_ne _ _ fun he => ?_]
        · exact hid
        · rw [he, hid] at hr
          cases hr
      · rw [Dict.get?_insert] at hid
        split at hid
        · rename_i he
          exact .inr fun folder' hf => hothers folder' (hf.trans he.symm)
        · exact .inl hid

/-- A folder that has no path is not registered. -/
theorem register_error {folder : Folder} (h : ¬l.state.HasPath folder) :
    ∃ e, (register folder).returns l = .error (.uri e) ∧ (register folder).leaves l = l := by
  unfold register
  rw [Act.returns_bind, Act.returns_state, Act.leaves_bind, Act.leaves_state, Act.returns_state]
  cases hr : l.state.registered.get? folder.uri with
  | some id => exact absurd (.inl ⟨id, hr⟩) h
  | none =>
      cases hw : Workspace.ofFolder folder with
      | ok w => exact absurd (.inr ⟨w, hw⟩) h
      | error e => exact ⟨e, rfl, rfl⟩

/-- Registering folders that all have a path. -/
theorem registerAll_ok {folders : List Folder} (h : ∀ f ∈ folders, l.state.HasPath f) :
    ∃ ids s', (registerAll folders).returns l = .ok ids ∧ (registerAll folders).leaves l = { l with state := s' } ∧
      Registers l.state s' ∧ List.Forall₂ (fun f id => s'.registered.get? f.uri = some id) folders ids := by
  induction folders generalizing l with
  | nil => exact ⟨[], l.state, rfl, rfl, .refl, .nil⟩
  | cons folder rest ih =>
      obtain ⟨id, s₁, hreturns, hleaves, hregisters, hid⟩ := register_ok (h folder List.mem_cons_self)
      have hrest : ∀ f ∈ rest, ({ l with state := s₁ } : Loop ServerState Operation).state.HasPath f :=
        fun f hf => (hregisters.hasPath_iff f).mpr (h f (List.mem_cons_of_mem _ hf))
      obtain ⟨ids, s₂, hreturns', hleaves', hregisters', hids⟩ := ih hrest
      refine ⟨id :: ids, s₂, ?_, ?_, hregisters.trans hregisters', .cons (hregisters'.kept _ _ hid) hids⟩
      · unfold registerAll
        rw [Act.returns_bind, hreturns, hleaves]
        dsimp only
        rw [Act.returns_bind, hreturns']
        rfl
      · unfold registerAll
        rw [Act.leaves_bind, hreturns, hleaves]
        dsimp only
        rw [Act.leaves_bind, hleaves']
        rfl

/-- A folder without a path keeps all of them from being initialized. -/
theorem registerAll_error {folders : List Folder} {folder : Folder} (hf : folder ∈ folders)
    (h : ¬l.state.HasPath folder) : ∃ e s', (registerAll folders).returns l = .error (.uri e) ∧
      (registerAll folders).leaves l = { l with state := s' } := by
  induction folders generalizing l with
  | nil => cases hf
  | cons first rest ih =>
      unfold registerAll
      rw [Act.returns_bind, Act.leaves_bind]
      by_cases hfirst : l.state.HasPath first
      · obtain ⟨id, s', hreturns, hleaves, hregisters, _⟩ := register_ok hfirst
        rw [hreturns, hleaves]
        dsimp only
        have hrest := (List.mem_cons.mp hf).resolve_left fun he => h (he ▸ hfirst)
        have hnot : ¬({ l with state := s' } : Loop ServerState Operation).state.HasPath folder :=
          fun hp => h ((hregisters.hasPath_iff folder).mp hp)
        obtain ⟨e, s'', he, hleaves'⟩ := ih hrest hnot
        rw [Act.returns_bind, he, Act.leaves_bind, hleaves']
        exact ⟨e, s'', rfl, rfl⟩
      · obtain ⟨e, he, hleaves⟩ := register_error hfirst
        rw [he, hleaves]
        exact ⟨e, l.state, rfl, rfl⟩

end JointInitialization

/-! ## Gathering -/

namespace Act

variable {σ ω : Type}

/-- Tasks that are created one after the other get numbers one after the other. -/
theorem mapM_create (operations : List ω) (l : Loop σ ω) :
    (operations.mapM create : Act σ ω (List TaskId)).returns l = List.range' l.nextTask operations.length ∧
      (operations.mapM create : Act σ ω (List TaskId)).leaves l =
        { l with
          nextTask := l.nextTask + operations.length
          created := l.created ++ (List.range' l.nextTask operations.length).zip operations
          ready := l.ready ++ (List.range' l.nextTask operations.length).map fun task => ⟨task, .go, 0⟩ } := by
  induction operations generalizing l with
  | nil => simp
  | cons operation rest ih =>
      obtain ⟨hreturns, hleaves⟩ := ih ((create operation).leaves l)
      rw [List.mapM_cons]
      constructor
      · rw [returns_bind, returns_bind, hreturns]
        simp [List.range'_succ]
      · rw [leaves_bind, leaves_bind, hleaves]
        simp [List.range'_succ, Nat.add_comm, Nat.add_left_comm]

variable {τ α : Type} {waits : τ → Loop σ ω → Prop} {ends : Except Failure α → Loop σ ω → Prop}

/-- Without operations there is nothing to wait for. -/
theorem reaches_gather_nil (state : τ) (next : Act σ ω (Step τ α)) (l : Loop σ ω) :
    (gather [] state next).Reaches l waits ends ↔ next.Reaches l waits ends := by
  unfold gather
  rw [List.mapM_nil, reaches_bind]
  rfl

theorem reaches_gather {operations : List ω} (h : operations ≠ []) (state : τ) (next : Act σ ω (Step τ α))
    (l : Loop σ ω) : (gather operations state next).Reaches l waits ends ↔
      waits state { l with
        nextTask := l.nextTask + operations.length
        created := l.created ++ (List.range' l.nextTask operations.length).zip operations
        ready := l.ready ++ (List.range' l.nextTask operations.length).map fun task => ⟨task, .go, 0⟩
        gatherings := l.gatherings ++ [⟨l.current, List.range' l.nextTask operations.length, false⟩] } := by
  obtain ⟨hreturns, hleaves⟩ := mapM_create operations l
  have hne : (List.range' l.nextTask operations.length).isEmpty = false := by
    rw [List.isEmpty_eq_false_iff, ne_eq, List.range'_eq_nil_iff, List.length_eq_zero_iff]
    exact h
  unfold gather
  rw [reaches_bind, hreturns, hleaves, hne]
  rfl

end Act

/-! ## Initializations side by side -/

namespace JointInitialization

open Initialization (Keeps Becomes Awaits Attained Makes)

/-- Where an initialization that is a task of its own has got to. -/
def Stage (good : Prop) (id : WorkspaceId) (w : Workspace) : Suspended Operation Waiting → Prop
  | .created operation => operation = .initialize_ id ∧ w.state ≠ .removed ∧ w.state ≠ .compileInFlight
  | .waiting state => ∃ i, state = .initializing i ∧ Awaits good id w i

/-- What an initialization that is a task of its own has come to. -/
def Outcome (good : Prop) (w : Workspace) (r : Except Failure Result) : Prop :=
  ∃ a : Except Failure Bool, r = a.map .truth ∧ Attained good w a

variable {good : Prop} {id : WorkspaceId} {w : Workspace} {l : Loop ServerState Operation}

theorem goes_ending {a : ServerAct (Step Initialization Bool)} (h : Initialization.Goes good id w a l) :
    (Waiting.ending a .initializing .truth).Reaches l
      (fun state l' => Keeps id l l' ∧ l.current ∈ l'.atGates.map Prod.snd ∧
        ∃ w', Becomes id w l'.state w' ∧ Stage good id w' (.waiting state))
      fun r l' => Keeps id l l' ∧ ∃ w', Becomes id w l'.state w' ∧ Outcome good w' r := by
  unfold Waiting.ending Act.andThen
  rw [Act.reaches_afterwards]
  refine h.mono (fun state l' ⟨hk, hgate, w', hw', hs⟩ => ⟨hk, hgate, w', hw', state, rfl, hs⟩)
    fun r l' ⟨hk, w', hw', hr⟩ => ?_
  cases r with
  | ok b => exact ⟨hk, w', hw', .ok b, rfl, hr⟩
  | error f => exact ⟨hk, w', hw', .error f, rfl, hr⟩

/-- A turn of an initialization that is a task of its own. -/
theorem goes_task {x : Suspended Operation Waiting} (hw : l.state.workspaces[id]? = some w) (hx : Stage good id w x)
    (hmakes : good → Makes l.state id w)
    (hover : ∀ g m documents, x = .waiting (.initializing (.overlaying id g m documents)) → good →
      Reaches (m.overlay w.root documents) l.state.disk (fun _ _ => True) fun _ _ => False) :
    (serverMachine.goesOn .go x).Reaches l
      (fun state l' => Keeps id l l' ∧ l.current ∈ l'.atGates.map Prod.snd ∧
        ∃ w', Becomes id w l'.state w' ∧ Stage good id w' (.waiting state))
      fun r l' => Keeps id l l' ∧ ∃ w', Becomes id w l'.state w' ∧ Outcome good w' r := by
  cases x with
  | created operation =>
      obtain ⟨rfl, hremoved, hcompiled⟩ := hx
      exact goes_ending (Initialization.goes_start hw hremoved hcompiled hmakes)
  | waiting state =>
      obtain ⟨i, rfl, hi⟩ := hx
      refine goes_ending (Initialization.goes_resume hw hi (fun _ _ => hmakes) fun g m documents he => ?_)
      exact hover g m documents (by rw [he])

/-! ## Waiting for all of them -/

/-- The signal that the call of all initializations has been given once one of them has ended. -/
def signalAfter (signal? : Option Signal) (left : List TaskId) (failure : Option Failure) : Option Signal :=
  match signal?, failure with
  | some σ, _ => some σ
  | none, some f => some (.failed f)
  | none, none => if left = [] then some .go else none

/-- The gathering of the initializations that have not ended, if there are any. -/
def gathering (left : List TaskId) (signal? : Option Signal) : List Gathering :=
  if left = [] then [] else [⟨0, left, signal?.isSome⟩]

/-- Noting that one of them has ended. -/
theorem leaves_noteEnd {left : List TaskId} {signal? : Option Signal} {c : TaskId}
    (hg : l.gatherings = gathering left signal?) (hc : c ∈ left) (failure : Option Failure) :
    (Act.noteEnd c failure : ServerAct Unit).leaves l =
      { l with
        gatherings := gathering (left.filter (· ≠ c)) (signalAfter signal? (left.filter (· ≠ c)) failure)
        ready := l.ready ++ (if signal?.isSome then [] else
          (signalAfter signal? (left.filter (· ≠ c)) failure).toList.map fun σ => ⟨0, σ, 1⟩) } := by
  have hne : left ≠ [] := List.ne_nil_of_mem hc
  unfold gathering at hg ⊢
  rw [if_neg hne] at hg
  unfold Act.noteEnd
  rw [Act.leaves_modify, hg]
  simp only [List.map_cons, List.map_nil, Act.Gathering.noteEnd, if_pos hc]
  generalize left.filter (· ≠ c) = rest
  unfold signalAfter
  cases signal? <;> cases failure <;> cases rest <;> simp

/-- Noting that the call itself has ended. -/
theorem leaves_noteEnd_of_not_mem {left : List TaskId} {signal? : Option Signal} {c : TaskId}
    (hg : l.gatherings = gathering left signal?) (hc : c ∉ left) (failure : Option Failure) :
    (Act.noteEnd c failure : ServerAct Unit).leaves l = l := by
  obtain ⟨state, current, nextTask, ready, created, gatherings, closed, atGates⟩ := l
  simp only at hg
  subst hg
  unfold Act.noteEnd gathering
  rw [Act.leaves_modify]
  by_cases hl : left = []
  · simp [hl]
  · simp [hl, Act.Gathering.noteEnd, hc]

/-- Which of some workspaces can be compiled. -/
def readinessOf (ids : List WorkspaceId) (s : ServerState) : Dict String Bool :=
  .ofList (ids.filterMap fun id => s.workspaces[id]?.map fun w => (w.uri, w.isReady))

/-- What the signal that the call has been given says of those that have ended. -/
def Tells (left : List TaskId) (ended : List (TaskId × Except Failure Result)) : Option Signal → Prop
  | none => left ≠ [] ∧ ∀ c r, (c, r) ∈ ended → c ≠ 0 → ∃ a, r = .ok a
  | some .go => left = [] ∧ ∀ c r, (c, r) ∈ ended → c ≠ 0 → ∃ a, r = .ok a
  | some (.failed f) => ∃ c, c ≠ 0 ∧ (c, .error f) ∈ ended
  | some _ => False

/-- What holds at all times once the folders are registered: the call waits for the initializations, each of which
is a task of its own and has a workspace of its own. -/
structure Joint (base : ServerState) (ids : List WorkspaceId) (jobs : List (TaskId × WorkspaceId))
    (good : WorkspaceId → Prop) (left : List TaskId) (signal? : Option Signal) (s : Server) : Prop where
  created : s.loop.created = []
  registered : s.state.registered = base.registered
  others : ∀ id, id ∉ jobs.map Prod.snd → s.state.workspaces[id]? = base.workspaces[id]?
  tasks : ∀ c x, (c, x) ∈ s.tasks → (c = 0 ∧ x = .waiting (.initializingAll ⟨ids⟩)) ∨
    ∃ id v w, (c, id) ∈ jobs ∧ base.workspaces[id]? = some v ∧ Becomes id v s.state w ∧ Stage (good id) id w x
  ended : ∀ c r, (c, r) ∈ s.ended →
    (c = 0 ∧ ((signal? = some .go ∧ r = .ok (.readiness (readinessOf ids s.state))) ∨
      ∃ f, signal? = some (.failed f) ∧ r = .error f)) ∨
    ∃ id v w, (c, id) ∈ jobs ∧ base.workspaces[id]? = some v ∧ Becomes id v s.state w ∧ Outcome (good id) w r
  once : ∀ c x r, (c, x) ∈ s.tasks → (c, r) ∉ s.ended
  each : ∀ c, c = 0 ∨ c ∈ jobs.map Prod.fst → (∃ x, (c, x) ∈ s.tasks) ∨ ∃ r, (c, r) ∈ s.ended
  left_iff : ∀ c, c ∈ left ↔ c ∈ jobs.map Prod.fst ∧ ∀ r, (c, r) ∉ s.ended
  gatherings : s.loop.gatherings = gathering left signal?
  tells : Tells left s.ended signal?
  wakes : ∀ wake ∈ s.loop.ready, (wake.task = 0 → some wake.signal = signal?) ∧ (wake.task ≠ 0 → wake.signal = .go)
  awake : ∀ c x, (c, x) ∈ s.tasks → c ≠ 0 ∨ signal?.isSome →
    (∃ wake ∈ s.loop.ready, wake.task = c) ∨ c ∈ s.loop.atGates.map Prod.snd
  gates : 0 ∉ s.loop.atGates.map Prod.snd

/-- Tasks and workspaces that belong together one to one. -/
structure Pairs (jobs : List (TaskId × WorkspaceId)) : Prop where
  tasks : (jobs.map Prod.fst).Nodup
  workspaces : (jobs.map Prod.snd).Nodup
  notZero : 0 ∉ jobs.map Prod.fst

theorem Pairs.ne_zero {jobs : List (TaskId × WorkspaceId)} (hj : Pairs jobs) {c : TaskId} (h : (c, id) ∈ jobs) :
    c ≠ 0 := fun he => hj.notZero (he ▸ List.mem_map_of_mem h)

theorem Pairs.ne {jobs : List (TaskId × WorkspaceId)} (hj : Pairs jobs) {c c' : TaskId} {id' : WorkspaceId}
    (h : (c, id) ∈ jobs) (h' : (c', id') ∈ jobs) (hc : c' ≠ c) : id' ≠ id := by
  rintro rfl
  exact hc (Prod.mk.inj (List.inj_on_of_nodup_map hj.workspaces h' h rfl)).1

theorem Pairs.eq {jobs : List (TaskId × WorkspaceId)} (hj : Pairs jobs) {c : TaskId} {id' : WorkspaceId}
    (h : (c, id) ∈ jobs) (h' : (c, id') ∈ jobs) : id' = id :=
  (Prod.mk.inj (List.inj_on_of_nodup_map hj.tasks h' h rfl)).2

variable {base : ServerState} {ids : List WorkspaceId} {jobs : List (TaskId × WorkspaceId)}
  {fine : WorkspaceId → Prop} {left : List TaskId} {signal? : Option Signal} {s : Server}

/-- While an initialization has not ended the call has not been told that all have. -/
theorem Joint.signal_ne_go (h : Joint base ids jobs fine left signal? s) {c : TaskId} (hc : c ∈ left) :
    signal? ≠ some .go := by
  rintro rfl
  exact List.not_mem_nil (h.tells.1 ▸ hc)

/-- The signal that is given tells of those that have ended. -/
theorem tells_signalAfter {left' : List TaskId} {ended : List (TaskId × Except Failure Result)} {c : TaskId}
    (h : Tells left ended signal?) (hgo : signal? ≠ some .go) (hc : c ≠ 0) (r : Except Failure Result) :
    Tells left' (ended ++ [(c, r)]) (signalAfter signal? left' (Session.failure? r)) := by
  cases signal? with
  | some σ =>
      cases σ with
      | go => exact absurd rfl hgo
      | failed f =>
          obtain ⟨c', hne, hm⟩ := h
          exact ⟨c', hne, List.mem_append_left _ hm⟩
      | _ => exact h.elim
  | none =>
      cases r with
      | error f => exact ⟨c, hc, List.mem_append_right _ (List.mem_singleton_self _)⟩
      | ok a =>
          have hall : ∀ c' r', (c', r') ∈ ended ++ [(c, .ok a)] → c' ≠ 0 → ∃ a, r' = .ok a := by
            intro c' r' hm hne
            rcases List.mem_append.mp hm with hm | hm
            · exact h.2 c' r' hm hne
            · cases List.mem_singleton.mp hm
              exact ⟨a, rfl⟩
          show Tells left' _ (if left' = [] then some .go else none)
          split
          · rename_i hl
            exact ⟨hl, hall⟩
          · rename_i hl
            exact ⟨hl, hall⟩

/-- What holds of everything else after an initialization went on. -/
structure Beside (base : ServerState) (ids : List WorkspaceId) (jobs : List (TaskId × WorkspaceId))
    (fine : WorkspaceId → Prop) (signal? : Option Signal) (s : Server) (c : TaskId)
    (l : Loop ServerState Operation) : Prop where
  created : l.created = []
  registered : l.state.registered = base.registered
  others : ∀ id, id ∉ jobs.map Prod.snd → l.state.workspaces[id]? = base.workspaces[id]?
  tasks : ∀ c' x, (c', x) ∈ s.without c → (c' = 0 ∧ x = .waiting (.initializingAll ⟨ids⟩)) ∨
    ∃ id v w, (c', id) ∈ jobs ∧ base.workspaces[id]? = some v ∧ Becomes id v l.state w ∧ Stage (fine id) id w x
  ended : ∀ c' r, (c', r) ∈ s.ended → (c' = 0 ∧ ∃ f, signal? = some (.failed f) ∧ r = .error f) ∨
    ∃ id v w, (c', id) ∈ jobs ∧ base.workspaces[id]? = some v ∧ Becomes id v l.state w ∧ Outcome (fine id) w r
  gatherings : l.gatherings = s.loop.gatherings
  wakes : ∀ wake ∈ l.ready, (wake.task = 0 → some wake.signal = signal?) ∧ (wake.task ≠ 0 → wake.signal = .go)
  awake : ∀ c' x, (c', x) ∈ s.without c → c' ≠ 0 ∨ signal?.isSome →
    (∃ wake ∈ l.ready, wake.task = c') ∨ c' ∈ l.atGates.map Prod.snd
  gates : 0 ∉ l.atGates.map Prod.snd

theorem Joint.beside (hj : Pairs jobs) (h : Joint base ids jobs fine left signal? s) {wake : Wake} {rest : List Wake}
    (hr : s.loop.ready = wake :: rest) {x : Suspended Operation Waiting} (hx : (wake.task, x) ∈ s.tasks)
    (hjob : (wake.task, id) ∈ jobs) (hk : Keeps id { s.loop with ready := rest, current := wake.task } l) :
    Beside base ids jobs fine signal? s wake.task l := by
  have hc := hj.ne_zero hjob
  have hleft : wake.task ∈ left := (h.left_iff _).mpr ⟨List.mem_map_of_mem hjob, fun r => h.once _ x r hx⟩
  have hother : ∀ {id' : WorkspaceId} {v w : Workspace}, id' ≠ id → Becomes id' v s.state w → Becomes id' v l.state w :=
    fun hne hb => ⟨(hk.others _ hne).trans hb.1, hb.2⟩
  have hready : l.ready = rest := hk.ready
  have hrest : ∀ w ∈ rest, w ∈ s.loop.ready := fun w hw => hr ▸ List.mem_cons_of_mem _ hw
  refine ⟨hk.created.trans h.created, hk.registered.trans h.registered, fun id' hid => ?_, fun c' x' hm => ?_,
    fun c' r' hm => ?_, hk.gatherings, fun w hw => ?_, fun c' x' hm hawake => ?_, fun hgate => ?_⟩
  · exact (hk.others id' fun he => hid (he ▸ List.mem_map_of_mem hjob)).trans (h.others id' hid)
  · obtain ⟨hm, hne⟩ := Session.mem_without.mp hm
    refine (h.tasks c' x' hm).imp_right fun ⟨id', v, w, hjob', hv, hw, hs⟩ => ?_
    exact ⟨id', v, w, hjob', hv, hother (hj.ne hjob hjob' hne) hw, hs⟩
  · rcases h.ended c' r' hm with ⟨he, ⟨hgo, _⟩ | hfailed⟩ | ⟨id', v, w, hjob', hv, hw, hs⟩
    · exact absurd hgo (h.signal_ne_go hleft)
    · exact .inl ⟨he, hfailed⟩
    · have hne : c' ≠ wake.task := fun he => h.once _ x r' hx (he ▸ hm)
      exact .inr ⟨id', v, w, hjob', hv, hother (hj.ne hjob hjob' hne) hw, hs⟩
  · exact h.wakes w (hrest w (hready ▸ hw))
  · obtain ⟨hm, hne⟩ := Session.mem_without.mp hm
    rcases h.awake c' x' hm hawake with ⟨w, hw, he⟩ | hgate
    · rw [hr] at hw
      have hw := (List.mem_cons.mp hw).resolve_left fun hfirst => hne (by rw [← he, hfirst])
      exact .inl ⟨w, hready ▸ hw, he⟩
    · exact .inr (List.map_subset Prod.snd hk.atGates.subset hgate)
  · obtain ⟨place, hp, he⟩ := List.mem_map.mp hgate
    rcases hk.arrives place hp with hold | hnew
    · exact h.gates (he ▸ List.mem_map_of_mem hold)
    · exact hc (hnew.symm.trans he)

/-- One of the initializations takes a turn. -/
theorem Joint.child (hj : Pairs jobs) (h : Joint base ids jobs fine left signal? s) {wake : Wake}
    {rest : List Wake} (hr : s.loop.ready = wake :: rest) {x : Suspended Operation Waiting}
    (hx : s.task? wake.task = some x) (hc : wake.task ≠ 0)
    (hm : ∀ id w, fine id → s.state.workspaces[id]? = some w → (wake.task, id) ∈ jobs → Makes s.state id w ∧
      ∀ g m documents, x = .waiting (.initializing (.overlaying id g m documents)) →
        Reaches (m.overlay w.root documents) s.state.disk (fun _ _ => True) fun _ _ => False) :
    ∃ left' signal', Joint base ids jobs fine left' signal'
      (({ s with loop := { s.loop with ready := rest } } : Server).run serverMachine wake.task wake.signal) := by
  have hmem := Session.mem_of_task? hx
  obtain ⟨id, v, w, hjob, hv, hw, hstage⟩ := (h.tasks _ x hmem).resolve_left fun he => hc he.1
  have hsignal : wake.signal = .go := (h.wakes wake (hr ▸ List.mem_cons_self)).2 hc
  have hleft : wake.task ∈ left := (h.left_iff _).mpr ⟨List.mem_map_of_mem hjob, fun r => h.once _ x r hmem⟩
  have hgoes := goes_task (l := { s.loop with ready := rest, current := wake.task }) hw.1 hstage
    (fun hf => (hm id w hf hw.1 hjob).1) fun g m documents he hf => (hm id w hf hw.1 hjob).2 g m documents he
  rw [hsignal]
  refine Session.run_of_reaches (p := fun s' => ∃ left' signal', Joint base ids jobs fine left' signal' s') hx ?_
  refine hgoes.mono (fun state l ⟨hk, hgate, w', hw', hs⟩ => ?_) fun r l ⟨hk, w', hw', hs⟩ => ?_
  · have hb := h.beside hj hr hmem hjob hk
    rw [Session.wentOn_waits hb.created]
    have hstays : ∀ c' r', (c', r') ∈ s.ended → c' ≠ wake.task := fun c' r' hm' he => h.once _ x r' hmem (he ▸ hm')
    refine ⟨left, signal?, hb.created, hb.registered, hb.others, fun c' x' hm' => ?_, fun c' r' hm' => ?_,
      fun c' x' r' hm' hr' => ?_, fun c' hc' => ?_, h.left_iff, hb.gatherings.trans h.gatherings, h.tells, hb.wakes,
      fun c' x' hm' hawake => ?_, hb.gates⟩
    · rcases List.mem_append.mp hm' with hm' | hm'
      · exact hb.tasks c' x' hm'
      · cases List.mem_singleton.mp hm'
        exact .inr ⟨id, v, w', hjob, hv, ⟨hw'.1, hw'.2.1.trans hw.2.1, hw'.2.2.trans hw.2.2⟩, hs⟩
    · exact (hb.ended c' r' hm').imp_left fun ⟨he, hf⟩ => ⟨he, .inr hf⟩
    · rcases List.mem_append.mp hm' with hm' | hm'
      · exact h.once c' x' r' (Session.mem_without.mp hm').1 hr'
      · cases List.mem_singleton.mp hm'
        exact h.once _ x r' hmem hr'
    · by_cases he : c' = wake.task
      · exact .inl ⟨.waiting state, he ▸ List.mem_append_right _ (List.mem_singleton_self _)⟩
      · refine (h.each c' hc').imp_left fun ⟨x', hm'⟩ => ⟨x', ?_⟩
        exact List.mem_append_left _ (Session.mem_without.mpr ⟨hm', he⟩)
    · rcases List.mem_append.mp hm' with hm' | hm'
      · exact hb.awake c' x' hm' hawake
      · cases List.mem_singleton.mp hm'
        exact .inr hgate
  · have hb := h.beside hj hr hmem hjob hk
    have hg : l.gatherings = gathering left signal? := hb.gatherings.trans h.gatherings
    rw [Session.wentOn_ends_noting hb.created, leaves_noteEnd hg hleft]
    have hstays : ∀ c' r', (c', r') ∈ s.ended → c' ≠ wake.task := fun c' r' hm' he => h.once _ x r' hmem (he ▸ hm')
    refine ⟨left.filter (· ≠ wake.task), signalAfter signal? (left.filter (· ≠ wake.task)) (Session.failure? r),
      hb.created, hb.registered, hb.others, hb.tasks, fun c' r' hm' => ?_, fun c' x' r' hm' hr' => ?_,
      fun c' hc' => ?_, fun c' => ?_, rfl, tells_signalAfter h.tells (h.signal_ne_go hleft) hc r, fun wake' hw' => ?_,
      fun c' x' hm' hawake => ?_, hb.gates⟩
    · rcases List.mem_append.mp hm' with hm' | hm'
      · refine (hb.ended c' r' hm').imp_left fun ⟨he, f, hf, hr'⟩ => ⟨he, .inr ⟨f, ?_, hr'⟩⟩
        rw [hf]
        rfl
      · cases List.mem_singleton.mp hm'
        exact .inr ⟨id, v, w', hjob, hv, ⟨hw'.1, hw'.2.1.trans hw.2.1, hw'.2.2.trans hw.2.2⟩, hs⟩
    · obtain ⟨hm', hne⟩ := Session.mem_without.mp hm'
      rcases List.mem_append.mp hr' with hr' | hr'
      · exact h.once c' x' r' hm' hr'
      · cases List.mem_singleton.mp hr'
        exact hne rfl
    · by_cases he : c' = wake.task
      · exact .inr ⟨r, he ▸ List.mem_append_right _ (List.mem_singleton_self _)⟩
      · refine (h.each c' hc').imp (fun ⟨x', hm'⟩ => ⟨x', Session.mem_without.mpr ⟨hm', he⟩⟩) fun ⟨r', hm'⟩ => ?_
        exact ⟨r', List.mem_append_left _ hm'⟩
    · rw [List.mem_filter, h.left_iff, decide_eq_true_eq]
      constructor
      · rintro ⟨⟨hjob', hno⟩, hne⟩
        refine ⟨hjob', fun r' hm' => ?_⟩
        rcases List.mem_append.mp hm' with hm' | hm'
        · exact hno r' hm'
        · cases List.mem_singleton.mp hm'
          exact hne rfl
      · rintro ⟨hjob', hno⟩
        refine ⟨⟨hjob', fun r' hm' => hno r' (List.mem_append_left _ hm')⟩, fun he => hno r ?_⟩
        exact he ▸ List.mem_append_right _ (List.mem_singleton_self _)
    · rcases List.mem_append.mp hw' with hw' | hw'
      · refine ⟨fun hz => ?_, (hb.wakes wake' hw').2⟩
        have hsignal := (hb.wakes wake' hw').1 hz
        rw [← hsignal]
        rfl
      · cases signal? with
        | some σ => cases hw'
        | none =>
            obtain ⟨σ, hσ, rfl⟩ := List.mem_map.mp hw'
            exact ⟨fun _ => (Option.mem_toList.mp hσ).symm, fun hne => absurd rfl hne⟩
    · have hold : ∀ more : List Wake, c' ≠ 0 ∨ signal?.isSome →
          (∃ w ∈ l.ready ++ more, w.task = c') ∨ c' ∈ l.atGates.map Prod.snd := fun more ha => (hb.awake c' x' hm' ha).imp_left fun ⟨w, hw, he⟩ => ⟨w, List.mem_append_left _ hw, he⟩
      by_cases hz : c' = 0
      · cases signal? with
        | some σ => exact hold _ (.inr rfl)
        | none =>
            obtain ⟨σ, hσ⟩ := Option.isSome_iff_exists.mp (hawake.resolve_left fun hne => hne hz)
            refine .inl ⟨⟨0, σ, 1⟩, List.mem_append_right _ ?_, hz.symm⟩
            exact List.mem_map_of_mem (Option.mem_toList.mpr hσ)
      · exact hold _ (.inl hz)

/-- The end of the call says nothing new of the initializations. -/
theorem tells_append_zero {ended : List (TaskId × Except Failure Result)} (h : Tells left ended signal?)
    (r : Except Failure Result) : Tells left (ended ++ [(0, r)]) signal? := by
  have hall : (∀ c r, (c, r) ∈ ended → c ≠ 0 → ∃ a, r = .ok a) → ∀ c r', (c, r') ∈ ended ++ [(0, r)] → c ≠ 0 →
      ∃ a, r' = .ok a := by
    intro hended c r' hm hne
    rcases List.mem_append.mp hm with hm | hm
    · exact hended c r' hm hne
    · cases List.mem_singleton.mp hm
      exact absurd rfl hne
  cases signal? with
  | none => exact ⟨h.1, hall h.2⟩
  | some σ =>
      cases σ with
      | go => exact ⟨h.1, hall h.2⟩
      | failed f =>
          obtain ⟨c, hne, hm⟩ := h
          exact ⟨c, hne, List.mem_append_left _ hm⟩
      | _ => exact h.elim

/-- What the call comes to once it has been given a signal. -/
theorem reaches_resume {σ : Signal} {ended : List (TaskId × Except Failure Result)}
    (h : Tells left ended (some σ)) (ids : List WorkspaceId) :
    (serverMachine.goesOn σ (.waiting (.initializingAll ⟨ids⟩))).Reaches l (fun _ _ => False) fun r l' =>
      l' = l ∧ ((some σ = some .go ∧ r = .ok (.readiness (readinessOf ids l.state))) ∨
        ∃ f, some σ = some (.failed f) ∧ r = .error f) := by
  cases σ with
  | go => exact ⟨rfl, .inl ⟨rfl, rfl⟩⟩
  | failed f => exact ⟨rfl, .inr ⟨f, rfl, rfl⟩⟩
  | _ => exact h.elim

/-- The call itself goes on. -/
theorem Joint.parent (hj : Pairs jobs) (h : Joint base ids jobs fine left signal? s) {wake : Wake} {rest : List Wake}
    (hr : s.loop.ready = wake :: rest) {x : Suspended Operation Waiting} (hx : s.task? wake.task = some x)
    (hc : wake.task = 0) :
    Joint base ids jobs fine left signal?
      (({ s with loop := { s.loop with ready := rest } } : Server).run serverMachine wake.task wake.signal) := by
  have hmem := Session.mem_of_task? hx
  have hx' : x = .waiting (.initializingAll ⟨ids⟩) := by
    rcases h.tasks _ x hmem with ⟨_, hx'⟩ | ⟨id, _, _, hjob, _⟩
    · exact hx'
    · exact absurd hc (hj.ne_zero hjob)
  subst hx'
  have hsignal : some wake.signal = signal? := (h.wakes wake (hr ▸ List.mem_cons_self)).1 hc
  have htells := h.tells
  rw [← hsignal] at htells
  refine Session.run_of_reaches (p := Joint base ids jobs fine left signal?) hx ?_
  refine (reaches_resume htells ids).mono (fun _ _ hno => hno.elim) fun r l ⟨hl, hresult⟩ => ?_
  rw [hsignal] at hresult
  have hzero : 0 ∉ left := fun hz => hj.notZero ((h.left_iff 0).mp hz).1
  have hcreated : l.created = [] := hl ▸ h.created
  have hgatherings : l.gatherings = gathering left signal? := hl ▸ h.gatherings
  have hstate : l.state = s.state := hl ▸ rfl
  have hready : l.ready = rest := hl ▸ rfl
  have hgates : l.atGates = s.loop.atGates := hl ▸ rfl
  rw [hc] at hmem ⊢
  rw [Session.wentOn_ends_noting hcreated, leaves_noteEnd_of_not_mem hgatherings hzero]
  have hrest : ∀ w ∈ l.ready, w ∈ s.loop.ready := fun w hw => hr ▸ List.mem_cons_of_mem _ (hready ▸ hw)
  have hafter : ∀ {tasks ended}, ({ loop := l, tasks, ended } : Server).state = s.state := hstate
  refine ⟨hcreated, hafter ▸ h.registered, hafter ▸ h.others,
    hafter ▸ fun c x hm => h.tasks c x (Session.mem_without.mp hm).1,
    hafter ▸ fun c r' hm => ?_, fun c x r' hm hr' => ?_, fun c hm => ?_, fun c => ?_, hgatherings,
    tells_append_zero h.tells r, fun w hw => h.wakes w (hrest w hw), fun c x hm ha => ?_, hgates ▸ h.gates⟩
  · rcases List.mem_append.mp hm with hm | hm
    · exact h.ended c r' hm
    · cases List.mem_singleton.mp hm
      exact .inl ⟨rfl, hresult⟩
  · obtain ⟨hm, hne⟩ := Session.mem_without.mp hm
    rcases List.mem_append.mp hr' with hr' | hr'
    · exact h.once c x r' hm hr'
    · cases List.mem_singleton.mp hr'
      exact hne rfl
  · by_cases hz : c = 0
    · exact .inr ⟨r, hz ▸ List.mem_append_right _ (List.mem_singleton_self _)⟩
    · refine (h.each c hm).imp (fun ⟨x', hm'⟩ => ⟨x', Session.mem_without.mpr ⟨hm', hz⟩⟩) fun ⟨r', hm'⟩ => ?_
      exact ⟨r', List.mem_append_left _ hm'⟩
  · rw [h.left_iff]
    refine and_congr_right fun hjob => ⟨fun hno r' hm => ?_, fun hno r' hm => hno r' (List.mem_append_left _ hm)⟩
    rcases List.mem_append.mp hm with hm | hm
    · exact hno r' hm
    · cases List.mem_singleton.mp hm
      exact hj.notZero hjob
  · obtain ⟨hm, hne⟩ := Session.mem_without.mp hm
    refine (h.awake c x hm ha).imp (fun ⟨w, hw, he⟩ => ⟨w, ?_, he⟩) fun hgate => hgates ▸ hgate
    rw [hr] at hw
    rw [hready]
    exact (List.mem_cons.mp hw).resolve_left fun hfirst => hne (by rw [← he, hfirst, hc])

/-- Gates and turns are none of the initializations' business. -/
theorem Joint.loop (h : Joint base ids jobs fine left signal? s) {l : Loop ServerState Operation}
    (hs : l.state = s.loop.state) (hc : l.created = []) (hg : l.gatherings = s.loop.gatherings)
    (hw : ∀ wake ∈ l.ready, (∃ w ∈ s.loop.ready, w.task = wake.task ∧ w.signal = wake.signal) ∨
      wake.task ≠ 0 ∧ wake.signal = .go)
    (ha : ∀ c x, (c, x) ∈ s.tasks → (∃ w ∈ s.loop.ready, w.task = c) ∨ c ∈ s.loop.atGates.map Prod.snd →
      (∃ w ∈ l.ready, w.task = c) ∨ c ∈ l.atGates.map Prod.snd)
    (hz : 0 ∉ l.atGates.map Prod.snd) : Joint base ids jobs fine left signal? { s with loop := l } := by
  have hstate : ({ s with loop := l } : Server).state = s.state := hs
  refine ⟨hc, ?_, ?_, ?_, ?_, h.once, h.each, h.left_iff, hg.trans h.gatherings, h.tells, fun wake hm => ?_,
    fun c x hm hawake => ha c x hm (h.awake c x hm hawake), hz⟩
  · rw [hstate]
    exact h.registered
  · rw [hstate]
    exact h.others
  · rw [hstate]
    exact h.tasks
  · rw [hstate]
    exact h.ended
  · rcases hw wake hm with ⟨w, hmem, ht, hσ⟩ | ⟨hne, hσ⟩
    · rw [← ht, ← hσ]
      exact h.wakes w hmem
    · exact ⟨fun he => absurd he hne, fun _ => hσ⟩

/-- What may happen while nobody else asks for anything: tasks take their turns, and gates are worked. -/
inductive IsOwn : Session.Move External → Prop where
  | turn : IsOwn .turn
  | passes (task : TaskId) : IsOwn (.passes task .go)
  | closes (gate : String) : IsOwn (.closes gate)
  | opens (gate : String) : IsOwn (.opens gate)

/-- Whether a mirror of a workspace could be made at a moment: the files of its directory can be copied and its open
documents be written over them. -/
structure IsMirrorable (s : Server) (id : WorkspaceId) : Prop where
  makes : ∀ w, s.state.workspaces[id]? = some w → Makes s.state id w
  overlays : ∀ c g m documents w, (c, .waiting (.initializing (.overlaying id g m documents))) ∈ s.tasks →
    s.state.workspaces[id]? = some w →
    Reaches (m.overlay w.root documents) s.state.disk (fun _ _ => True) fun _ _ => False

/-- Everything that happens keeps what holds at all times. -/
theorem Joint.advance (hj : Pairs jobs) (h : Joint base ids jobs fine left signal? s)
    (hf : ∀ id, fine id → IsMirrorable s id) {move : Session.Move External} (hm : IsOwn move) :
    ∃ left' signal', Joint base ids jobs fine left' signal' (s.advance serverMachine External.act move) := by
  have hact : ∀ a : ServerAct Unit, (a.leaves s.loop).created = [] →
      Joint base ids jobs fine left signal? { s with loop := a.leaves s.loop } →
      ∃ left' signal', Joint base ids jobs fine left' signal' (s.act a).2 := by
    intro a hc hjoint
    rw [Session.act_eq, Session.adopt_of_created_eq_nil hc]
    exact ⟨left, signal?, hjoint⟩
  cases hm with
  | turn =>
      refine Session.turn_keeps (p := fun s' => ∃ left' signal', Joint base ids jobs fine left' signal' s')
        ⟨left, signal?, h⟩ (fun w rest n hr => ?_) (fun w rest hr hx => ?_) fun w rest x hr hx => ?_
      · refine ⟨left, signal?, h.loop rfl h.created rfl (fun wake hw => ?_) (fun c x _ => Or.imp_left ?_) h.gates⟩
        · rcases List.mem_append.mp hw with hw | hw
          · exact .inl ⟨wake, hr ▸ List.mem_cons_of_mem _ hw, rfl, rfl⟩
          · cases List.mem_singleton.mp hw
            exact .inl ⟨w, hr ▸ List.mem_cons_self, rfl, rfl⟩
        · rintro ⟨wake, hw, he⟩
          rw [hr] at hw
          rcases List.mem_cons.mp hw with rfl | hw
          · exact ⟨_, List.mem_append_right _ (List.mem_singleton_self _), he⟩
          · exact ⟨wake, List.mem_append_left _ hw, he⟩
      · refine ⟨left, signal?, h.loop rfl h.created rfl (fun wake hw => ?_) (fun c x hmem => Or.imp_left ?_) h.gates⟩
        · exact .inl ⟨wake, hr ▸ List.mem_cons_of_mem _ hw, rfl, rfl⟩
        · rintro ⟨wake, hw, he⟩
          rw [hr] at hw
          rcases List.mem_cons.mp hw with rfl | hw
          · exact absurd (he ▸ hmem) (Session.not_mem_of_task? hx x)
          · exact ⟨wake, hw, he⟩
      · by_cases hc : w.task = 0
        · exact ⟨left, signal?, h.parent hj hr hx hc⟩
        · refine h.child hj hr hx hc fun id v hfine hv _ => ⟨(hf id hfine).makes v hv, fun g m documents he => ?_⟩
          exact (hf id hfine).overlays w.task g m documents v (he ▸ Session.mem_of_task? hx) hv
  | passes task =>
      by_cases hgate : s.loop.atGates.any fun w => w.2 = task
      · have hleaves : (Act.pass task .go : ServerAct Unit).leaves s.loop =
            { s.loop with
              atGates := s.loop.atGates.filter fun w => w.2 ≠ task
              ready := s.loop.ready ++ [⟨task, .go, 0⟩] } := by
          unfold Act.pass
          rw [Act.leaves_modify, if_pos hgate]
        obtain ⟨place, hplace, hp⟩ := List.any_eq_true.mp hgate
        have hp : place.2 = task := of_decide_eq_true hp
        refine hact _ (by rw [hleaves]; exact h.created) ?_
        rw [hleaves]
        refine h.loop rfl h.created rfl (fun wake hw => ?_) (fun c x _ => ?_) fun hz => ?_
        · rcases List.mem_append.mp hw with hw | hw
          · exact .inl ⟨wake, hw, rfl, rfl⟩
          · cases List.mem_singleton.mp hw
            exact .inr ⟨fun he => h.gates (List.mem_map.mpr ⟨place, hplace, hp.trans he⟩), rfl⟩
        · rintro (⟨wake, hw, he⟩ | hgate')
          · exact .inl ⟨wake, List.mem_append_left _ hw, he⟩
          · by_cases hc : c = task
            · exact .inl ⟨_, List.mem_append_right _ (List.mem_singleton_self _), hc.symm⟩
            · obtain ⟨other, hother, ho⟩ := List.mem_map.mp hgate'
              refine .inr (List.mem_map.mpr ⟨other, List.mem_filter.mpr ⟨hother, ?_⟩, ho⟩)
              rw [decide_eq_true_eq, ho]
              exact hc
        · obtain ⟨other, hother, ho⟩ := List.mem_map.mp hz
          exact h.gates (List.mem_map.mpr ⟨other, (List.mem_filter.mp hother).1, ho⟩)
      · have hleaves : (Act.pass task .go : ServerAct Unit).leaves s.loop = s.loop := by
          unfold Act.pass
          rw [Act.leaves_modify, if_neg hgate]
        refine hact _ (by rw [hleaves]; exact h.created) ?_
        rw [hleaves]
        exact h
  | closes gate =>
      exact hact (Act.close gate) h.created
        (h.loop rfl h.created rfl (fun wake hw => .inl ⟨wake, hw, rfl, rfl⟩) (fun _ _ _ => id) h.gates)
  | opens gate =>
      exact hact (Act.open_ gate) h.created
        (h.loop rfl h.created rfl (fun wake hw => .inl ⟨wake, hw, rfl, rfl⟩) (fun _ _ _ => id) h.gates)

end JointInitialization

end InkServer
