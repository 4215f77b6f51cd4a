import InkServer.Proofs.Workspace.Together

/-!
# Initializing folders

Folders are initialized by one call, and while it is under way nobody asks for anything else. The call is first about
to begin; then it has either failed, because one of the folders has no path, or it waits for the initializations of
those that are not ready yet. From then on the initializations go their own ways: a folder whose mirror can be made is
ready in the end, and the call ends with a failure exactly if one of the initializations does.
-/

namespace InkServer

namespace JointInitialization

open ServerState Work
open Initialization (Attained Becomes Makes)

variable {s₀ base : ServerState} {folders : List Folder} {folder : Folder} {ids : List WorkspaceId} {s : Server}

/-- A server that was asked to initialize folders and nothing else. -/
def asked (s : ServerState) (folders : List Folder) : Server :=
  ((Session.ofState s : Server).launch (.initializeAll folders)).2

/-! ## The call -/

/-- The call has not begun. -/
structure IsCalled (s₀ : ServerState) (folders : List Folder) (s : Server) : Prop where
  state : s.loop.state = s₀
  tasks : s.tasks = [(0, .created (.initializeAll folders))]
  ended : s.ended = []
  nextTask : s.loop.nextTask = 1
  ready : s.loop.ready = [⟨0, .go, 0⟩]
  created : s.loop.created = []
  gatherings : s.loop.gatherings = []
  atGates : s.loop.atGates = []

theorem isCalled_asked (s : ServerState) (folders : List Folder) : IsCalled s folders (asked s folders) :=
  ⟨rfl, rfl, rfl, rfl, rfl, rfl, rfl, rfl⟩

/-- The call has failed at once. -/
structure IsRefused (s : Server) : Prop where
  created : s.loop.created = []
  tasks : s.tasks = []
  ended : ∃ e, s.ended = [(0, .error (.uri e))]

/-- What the tasks share when the call begins. -/
def begun (s : Server) : Loop ServerState Operation := { s.loop with ready := [], current := 0 }

/-- The first turn of the call. -/
theorem IsCalled.turn {p : Server → Prop} (h : IsCalled s₀ folders s)
    (hp : (start folders).Reaches (begun s)
      (fun i l => p (({ s with loop := { s.loop with ready := [] } } : Server).wentOn 0 (.waits (.initializingAll i)) l))
      fun r l => p (({ s with loop := { s.loop with ready := [] } } : Server).wentOn 0
        (.ends (r.map .readiness)) l)) :
    p (s.advance serverMachine External.act .turn) := by
  have hrun : s.advance serverMachine External.act .turn =
      ({ s with loop := { s.loop with ready := [] } } : Server).run serverMachine 0 .go := by
    show (s.turn serverMachine).getD s = _
    unfold Session.turn
    rw [h.ready]
    rfl
  have hx : ({ s with loop := { s.loop with ready := [] } } : Server).task? 0 =
      some (.created (.initializeAll folders)) := by
    unfold Session.task?
    rw [h.tasks]
    rfl
  rw [hrun]
  refine Session.run_of_reaches hx ?_
  show (Waiting.ending (start folders) .initializingAll .readiness).Reaches _ _ _
  unfold Waiting.ending Act.andThen
  rw [Act.reaches_afterwards]
  refine hp.mono (fun _ _ => id) fun r l hr => ?_
  cases r <;> exact hr

theorem IsCalled.without (h : IsCalled s₀ folders s) (l : Loop ServerState Operation) :
    ({ s with loop := l } : Server).without 0 = [] := by
  unfold Session.without
  rw [h.tasks]
  rfl

/-- A call that ends at once. -/
theorem IsCalled.ends (h : IsCalled s₀ folders s) (r : Except Failure Result) (s' : ServerState) :
    ({ s with loop := { s.loop with ready := [] } } : Server).wentOn 0 (.ends r) { begun s with state := s' } =
      { loop := { begun s with state := s' }, tasks := [], ended := [(0, r)] } := by
  rw [Session.wentOn_ends (by exact h.created) (by exact h.gatherings), h.without, h.ended]
  rfl

/-- A folder without a path fails the call in its first turn. -/
theorem IsCalled.refused (h : IsCalled s₀ folders s) (hf : folder ∈ folders) (hp : ¬s₀.HasPath folder) :
    IsRefused (s.advance serverMachine External.act .turn) := by
  have hpath : ¬(begun s).state.HasPath folder := by
    show ¬s.loop.state.HasPath folder
    rw [h.state]
    exact hp
  obtain ⟨e, s', hreturns, hleaves⟩ := registerAll_error hf hpath
  refine h.turn ?_
  unfold start
  rw [Act.reaches_bind, hreturns, hleaves]
  show IsRefused (Session.wentOn _ 0 (.ends (.error (.uri e))) { begun s with state := s' })
  rw [h.ends]
  exact ⟨h.created, rfl, e, rfl⟩

/-! ## The initializations it waits for -/

/-- Whatever stands in the second of two lists that match has its counterpart in the first. -/
theorem exists_of_mem_right {α β : Type} {R : α → β → Prop} {xs : List α} {ys : List β} (h : List.Forall₂ R xs ys)
    {y : β} (hy : y ∈ ys) : ∃ x ∈ xs, R x y := by
  induction h with
  | nil => cases hy
  | cons hxy _ ih =>
      rcases List.mem_cons.mp hy with rfl | hy
      · exact ⟨_, List.mem_cons_self, hxy⟩
      · obtain ⟨x, hx, hr⟩ := ih hy
        exact ⟨x, List.mem_cons_of_mem _ hx, hr⟩

/-- The workspaces of folders that were registered, in the same order. -/
abbrev AreOf (base : ServerState) (folders : List Folder) (ids : List WorkspaceId) : Prop :=
  List.Forall₂ (fun f id => base.registered.get? f.uri = some id) folders ids

/-- Folders with different URIs have different workspaces. -/
theorem nodup_of_areOf (hs : base.IsIdle) (h : AreOf base folders ids) (hd : (folders.map Folder.uri).Nodup) :
    ids.Nodup := by
  induction h with
  | nil => exact List.nodup_nil
  | @cons f id folders ids hf hrest ih =>
      obtain ⟨hnot, hd⟩ := List.nodup_cons.mp hd
      refine List.nodup_cons.mpr ⟨fun hm => ?_, ih hd⟩
      obtain ⟨f', hf', hid⟩ := exists_of_mem_right hrest hm
      obtain ⟨w, hw, huri, _⟩ := hs.known _ _ hf
      obtain ⟨w', hw', huri', _⟩ := hs.known _ _ hid
      cases hw.symm.trans hw'
      exact hnot (List.mem_map.mpr ⟨f', hf', huri'.symm.trans huri⟩)

/-- The workspaces that are not ready. -/
def pending (base : ServerState) (ids : List WorkspaceId) : List WorkspaceId :=
  ids.filter fun id => !(base.workspaces[id]?.any Workspace.isReady)

/-- The tasks that initialize the workspaces that are not ready. -/
def jobsOf (base : ServerState) (ids : List WorkspaceId) : List (TaskId × WorkspaceId) :=
  (List.range' 1 (pending base ids).length).zip (pending base ids)

theorem map_fst_jobsOf : (jobsOf base ids).map Prod.fst = List.range' 1 (pending base ids).length :=
  List.map_fst_zip (by rw [List.length_range'])

theorem map_snd_jobsOf : (jobsOf base ids).map Prod.snd = pending base ids :=
  List.map_snd_zip (by rw [List.length_range'])

theorem pairs_jobsOf (h : ids.Nodup) : Pairs (jobsOf base ids) := by
  refine ⟨?_, ?_, ?_⟩
  · rw [map_fst_jobsOf]
    exact List.nodup_range'
  · rw [map_snd_jobsOf]
    exact h.filter _
  · rw [map_fst_jobsOf, List.mem_range'_1]
    exact fun hz => Nat.not_succ_le_zero 0 hz.1

/-- What registering the folders has come to. -/
structure Registered (s₀ : ServerState) (folders : List Folder) (base : ServerState) (ids : List WorkspaceId) :
    Prop where
  idle : base.IsIdle
  registers : s₀.Registers base
  areOf : AreOf base folders ids
  nodup : ids.Nodup

variable {fine : WorkspaceId → Prop} {l : Loop ServerState Operation}

theorem Registered.known (h : Registered s₀ folders base ids) {id : WorkspaceId} (hid : id ∈ ids) :
    ∃ w, base.workspaces[id]? = some w ∧ w.state ≠ .removed ∧ w.state ≠ .compileInFlight := by
  obtain ⟨f, _, hr⟩ := exists_of_mem_right h.areOf hid
  obtain ⟨w, hw, _, hstate⟩ := h.idle.known _ _ hr
  exact ⟨w, hw, hstate⟩

/-- Where all workspaces are ready there is nothing to wait for. -/
theorem joint_of_pending_eq_nil (h : IsCalled s₀ folders s) (hn : pending base ids = []) :
    Joint base ids (jobsOf base ids) fine [] (some .go)
      (({ s with loop := { s.loop with ready := [] } } : Server).wentOn 0
        (.ends (.ok (.readiness (readinessOf ids base)))) { begun s with state := base }) := by
  have hj : jobsOf base ids = [] := by
    unfold jobsOf
    rw [hn]
    rfl
  rw [h.ends, hj]
  have hgates : 0 ∉ s.loop.atGates.map Prod.snd := by
    rw [h.atGates]
    exact List.not_mem_nil
  refine ⟨h.created, rfl, fun _ _ => rfl, fun _ _ => nofun, fun c r hm => ?_, fun _ _ _ => nofun, fun c hc => ?_,
    fun c => ⟨nofun, fun hm => nomatch hm.1⟩, h.gatherings, ⟨rfl, fun c r hm hne => ?_⟩, fun _ => nofun,
    fun _ _ => nofun, hgates⟩
  · cases List.mem_singleton.mp hm
    exact .inl ⟨rfl, .inl ⟨rfl, rfl⟩⟩
  · cases hc.resolve_right List.not_mem_nil
    exact .inr ⟨_, List.mem_singleton_self _⟩
  · cases List.mem_singleton.mp hm
    exact absurd rfl hne

/-- What the first turn leaves behind when there is something to wait for. -/
def gathered (s : Server) (base : ServerState) (ids : List WorkspaceId) : Loop ServerState Operation :=
  let tasks := List.range' 1 (pending base ids).length
  { begun s with
    state := base
    nextTask := 1 + (pending base ids).length
    created := tasks.zip ((pending base ids).map Operation.initialize_)
    ready := tasks.map fun task => ⟨task, .go, 0⟩
    gatherings := [⟨0, tasks, false⟩] }

theorem IsCalled.gathers (h : IsCalled s₀ folders s) (hn : pending base ids ≠ [])
    {next : ServerAct (Step JointInitialization (Dict String Bool))}
    {waits : JointInitialization → Loop ServerState Operation → Prop}
    {ends : Except Failure (Dict String Bool) → Loop ServerState Operation → Prop} :
    (Act.gather ((pending base ids).map Operation.initialize_) ⟨ids⟩ next).Reaches { begun s with state := base } waits
      ends ↔ waits ⟨ids⟩ (gathered s base ids) := by
  rw [Act.reaches_gather fun he => hn (List.map_eq_nil_iff.mp he)]
  unfold gathered begun
  simp only [List.length_map, h.nextTask, h.created, h.gatherings, List.nil_append]

theorem joint_of_gathered (h : IsCalled s₀ folders s) (hr : Registered s₀ folders base ids)
    (hn : pending base ids ≠ []) :
    Joint base ids (jobsOf base ids) fine (List.range' 1 (pending base ids).length) none
      (({ s with loop := { s.loop with ready := [] } } : Server).wentOn 0 (.waits (.initializingAll ⟨ids⟩))
        (gathered s base ids)) := by
  have hlength : (pending base ids).length ≠ 0 := fun he => hn (List.length_eq_zero_iff.mp he)
  have hleft : List.range' 1 (pending base ids).length ≠ [] := fun he => hlength (List.range'_eq_nil_iff.mp he)
  have hcreated : ∀ t, t ∈ (gathered s base ids).created ↔ ∃ id, (t.1, id) ∈ jobsOf base ids ∧ t.2 = .initialize_ id := by
    intro t
    show t ∈ List.zip _ ((pending base ids).map Operation.initialize_) ↔ _
    rw [List.zip_map_right, List.mem_map]
    constructor
    · rintro ⟨⟨c, id⟩, hm, rfl⟩
      exact ⟨id, hm, rfl⟩
    · rintro ⟨id, hm, ht⟩
      exact ⟨(t.1, id), hm, Prod.ext rfl ht.symm⟩
  generalize hs' : Session.wentOn _ _ _ _ = s'
  have htasks : ∀ c x, (c, x) ∈ s'.tasks ↔ (∃ id, (c, id) ∈ jobsOf base ids ∧ x = .created (.initialize_ id)) ∨
      (c = 0 ∧ x = .waiting (.initializingAll ⟨ids⟩)) := by
    intro c x
    rw [← hs', Session.mem_wentOn, h.without]
    constructor
    · rintro (hm | ⟨t, ht, he⟩ | ⟨state, he, ht⟩)
      · cases hm
      · obtain ⟨id, hjob, ho⟩ := (hcreated t).mp ht
        obtain ⟨rfl, rfl⟩ := Prod.mk.inj he
        exact .inl ⟨id, hjob, by rw [ho]⟩
      · cases he
        exact .inr (Prod.mk.inj ht)
    · rintro (⟨id, hjob, rfl⟩ | ⟨rfl, rfl⟩)
      · exact .inr (.inl ⟨(c, .initialize_ id), (hcreated _).mpr ⟨id, hjob, rfl⟩, rfl⟩)
      · exact .inr (.inr ⟨_, rfl, rfl⟩)
  have hended : s'.ended = [] := by
    rw [← hs']
    exact h.ended
  have hloop : s'.loop = { gathered s base ids with created := [] } := by
    rw [← hs']
    rfl
  have hstate : s'.state = base := congrArg Loop.state hloop
  have hgates : s'.loop.atGates = [] := (congrArg Loop.atGates hloop).trans h.atGates
  have hready : s'.loop.ready = (List.range' 1 (pending base ids).length).map fun task => ⟨task, .go, 0⟩ :=
    congrArg Loop.ready hloop
  refine ⟨congrArg Loop.created hloop, congrArg _ hstate, fun _ _ => by rw [hstate], fun c x hm => ?_,
    fun _ _ hm => ?_, fun _ _ _ _ hm => ?_, fun c hc => .inl ?_, fun c => ?_, ?_, ⟨hleft, fun _ _ hm => ?_⟩,
    fun wake hm => ?_, fun c x hm hne => ?_, ?_⟩
  · rcases (htasks c x).mp hm with ⟨id, hjob, rfl⟩ | h0
    · have hid : id ∈ pending base ids := by
        rw [← map_snd_jobsOf]
        exact List.mem_map_of_mem hjob
      obtain ⟨w, hw, hremoved, hcompiled⟩ := hr.known (List.mem_filter.mp hid).1
      exact .inr ⟨id, w, w, hjob, hw, ⟨by rw [hstate]; exact hw, rfl, rfl⟩, rfl, hremoved, hcompiled⟩
    · exact .inl h0
  · rw [hended] at hm
    cases hm
  · rw [hended] at hm
    cases hm
  · rcases hc with rfl | hc
    · exact ⟨_, (htasks _ _).mpr (.inr ⟨rfl, rfl⟩)⟩
    · obtain ⟨⟨_, id⟩, hjob, rfl⟩ := List.mem_map.mp hc
      exact ⟨_, (htasks _ _).mpr (.inl ⟨id, hjob, rfl⟩)⟩
  · rw [map_fst_jobsOf, hended]
    exact ⟨fun hm => ⟨hm, fun _ => List.not_mem_nil⟩, And.left⟩
  · rw [hloop]
    unfold gathering
    rw [if_neg hleft]
    rfl
  · rw [hended] at hm
    cases hm
  · rw [hready] at hm
    obtain ⟨task, ht, rfl⟩ := List.mem_map.mp hm
    exact ⟨fun hz => absurd hz (Nat.one_le_iff_ne_zero.mp (List.mem_range'_1.mp ht).1), fun _ => rfl⟩
  · have hc : c ≠ 0 := hne.resolve_right nofun
    obtain ⟨id, hjob, _⟩ := ((htasks c x).mp hm).resolve_right fun h0 => hc h0.1
    refine .inl ⟨⟨c, .go, 0⟩, ?_, rfl⟩
    rw [hready, ← map_fst_jobsOf]
    exact List.mem_map.mpr ⟨c, List.mem_map_of_mem hjob, rfl⟩
  · rw [hgates]
    exact List.not_mem_nil

/-- The first turn of a call all of whose folders have a path. -/
theorem IsCalled.joined (h : IsCalled s₀ folders s) (hs : s₀.IsIdle) (hd : (folders.map Folder.uri).Nodup)
    (hp : ∀ f ∈ folders, s₀.HasPath f) : ∃ base ids, Registered s₀ folders base ids ∧ ∀ fine, ∃ left signal?,
      Joint base ids (jobsOf base ids) fine left signal? (s.advance serverMachine External.act .turn) := by
  have hstate : (begun s).state = s₀ := h.state
  obtain ⟨ids, base, hreturns, hleaves, hregisters, hareOf⟩ := registerAll_ok (hstate.symm ▸ hp)
  rw [hstate] at hregisters
  have hidle := hregisters.isIdle hs
  have hr : Registered s₀ folders base ids := ⟨hidle, hregisters, hareOf, nodup_of_areOf hidle hareOf hd⟩
  refine ⟨base, ids, hr, fun fine => ?_⟩
  refine h.turn (p := fun s' => ∃ left signal?, Joint base ids (jobsOf base ids) fine left signal? s') ?_
  unfold start
  rw [Act.reaches_bind, hreturns, hleaves]
  dsimp only
  rw [Act.reaches_bind, Act.returns_state, Act.leaves_state]
  show (Act.gather ((pending base ids).map Operation.initialize_) _ _).Reaches _ _ _
  by_cases hn : pending base ids = []
  · rw [hn, List.map_nil, Act.reaches_gather_nil]
    exact ⟨[], some .go, joint_of_pending_eq_nil h hn⟩
  · rw [h.gathers hn]
    exact ⟨_, none, joint_of_gathered h hr hn⟩

/-! ## Whatever happens -/

/-- Whether a mirror of a folder could be made at a moment, if the folder is registered by then. -/
def CanMirror (s : Server) (folder : Folder) : Prop :=
  ∀ id, s.state.registered.get? folder.uri = some id → IsMirrorable s id

/-- How far the call has got. -/
inductive Phase (s₀ : ServerState) (folders : List Folder) (good : Folder → Prop) (s : Server) : Prop where
  | called (h : IsCalled s₀ folders s)
  | refused (h : IsRefused s) (folder : Folder) (hf : folder ∈ folders) (hp : ¬s₀.HasPath folder)
  | joined (base : ServerState) (ids : List WorkspaceId) (left : List TaskId) (signal? : Option Signal)
      (hp : ∀ f ∈ folders, s₀.HasPath f) (hr : Registered s₀ folders base ids)
      (h : Joint base ids (jobsOf base ids) (fun id => ∃ f, good f ∧ base.registered.get? f.uri = some id) left signal?
        s)

/-- Before its first turn nothing that happens concerns the call. -/
theorem IsCalled.stays (h : IsCalled s₀ folders s) {move : Session.Move External} (hm : IsOwn move)
    (hne : move ≠ .turn) : IsCalled s₀ folders (s.advance serverMachine External.act move) := by
  have hact : ∀ a : ServerAct Unit, IsCalled s₀ folders { s with loop := a.leaves s.loop } →
      IsCalled s₀ folders (s.act a).2 := by
    intro a ha
    rw [Session.act_eq]
    dsimp only
    rw [Session.adopt_of_created_eq_nil ha.created]
    exact ha
  cases hm with
  | turn => exact absurd rfl hne
  | passes task =>
      refine hact (Act.pass task .go) ?_
      unfold Act.pass
      rw [Act.leaves_modify, h.atGates]
      exact h
  | closes gate =>
      exact hact (Act.close gate) ⟨h.state, h.tasks, h.ended, h.nextTask, h.ready, h.created, h.gatherings, h.atGates⟩
  | opens gate =>
      exact hact (Act.open_ gate) ⟨h.state, h.tasks, h.ended, h.nextTask, h.ready, h.created, h.gatherings, h.atGates⟩

/-- A call that has failed at once stays failed. -/
theorem IsRefused.stays (h : IsRefused s) {move : Session.Move External} (hm : IsOwn move) :
    IsRefused (s.advance serverMachine External.act move) := by
  have hact : ∀ a : ServerAct Unit, (a.leaves s.loop).created = [] → IsRefused (s.act a).2 := by
    intro a hc
    rw [Session.act_eq]
    dsimp only
    rw [Session.adopt_of_created_eq_nil hc]
    exact ⟨hc, h.tasks, h.ended⟩
  cases hm with
  | turn =>
      refine Session.turn_keeps (p := IsRefused) h (fun _ _ _ _ => ⟨h.created, h.tasks, h.ended⟩)
        (fun _ _ _ _ => ⟨h.created, h.tasks, h.ended⟩) fun w rest x _ hx => ?_
      have hmem := Session.mem_of_task? hx
      rw [h.tasks] at hmem
      cases hmem
  | passes task =>
      refine hact (Act.pass task .go) ?_
      unfold Act.pass
      rw [Act.leaves_modify]
      split <;> exact h.created
  | closes gate => exact hact (Act.close gate) h.created
  | opens gate => exact hact (Act.open_ gate) h.created

variable {good : Folder → Prop}

theorem Phase.advance (h : Phase s₀ folders good s) (hs : s₀.IsIdle) (hd : (folders.map Folder.uri).Nodup)
    (hgood : ∀ f, good f → CanMirror s f) {move : Session.Move External} (hm : IsOwn move) :
    Phase s₀ folders good (s.advance serverMachine External.act move) := by
  cases h with
  | called h =>
      by_cases hturn : move = .turn
      · subst hturn
        by_cases hp : ∀ f ∈ folders, s₀.HasPath f
        · obtain ⟨base, ids, hr, hjoint⟩ := h.joined hs hd hp
          obtain ⟨left, signal?, hjoint⟩ := hjoint _
          exact .joined base ids left signal? hp hr hjoint
        · obtain ⟨f, hf⟩ := not_forall.mp hp
          obtain ⟨hf, hp⟩ := Classical.not_imp.mp hf
          exact .refused (h.refused hf hp) f hf hp
      · exact .called (h.stays hm hturn)
  | refused h f hf hp => exact .refused (h.stays hm) f hf hp
  | joined base ids left signal? hp hr h =>
      obtain ⟨left', signal', h'⟩ := h.advance (pairs_jobsOf hr.nodup) (fun id ⟨f, hf, hid⟩ =>
        hgood f hf id (h.registered.symm ▸ hid)) hm
      exact .joined base ids left' signal' hp hr h'

theorem Phase.after (h : Phase s₀ folders good s) (hs : s₀.IsIdle) (hd : (folders.map Folder.uri).Nodup)
    {moves : List (Session.Move External)} (hm : ∀ move ∈ moves, IsOwn move)
    (hgood : ∀ f, good f → ∀ first rest, moves = first ++ rest → CanMirror (s.after serverMachine External.act first) f) :
    Phase s₀ folders good (s.after serverMachine External.act moves) := by
  induction moves generalizing s with
  | nil => exact h
  | cons move moves ih =>
      refine ih (h.advance hs hd (fun f hf => hgood f hf [] _ rfl) (hm move List.mem_cons_self))
        (fun m hmem => hm m (List.mem_cons_of_mem _ hmem)) fun f hf first rest he => ?_
      exact hgood f hf (move :: first) rest (congrArg (move :: ·) he)

/-! ## What it comes to -/

variable {jobs : List (TaskId × WorkspaceId)} {left : List TaskId} {signal? : Option Signal}

/-- Once nothing can go on, everything has ended. -/
theorem Joint.isOver (hj : Pairs jobs) (h : Joint base ids jobs fine left signal? s) (hready : s.loop.ready = [])
    (hgates : s.loop.atGates = []) {c : TaskId} (hc : c = 0 ∨ c ∈ jobs.map Prod.fst) : ∃ r, (c, r) ∈ s.ended := by
  have hasleep : ∀ c x, (c, x) ∈ s.tasks → ¬(c ≠ 0 ∨ signal?.isSome) := by
    intro c x hm ha
    have hawake := h.awake c x hm ha
    rw [hready, hgates] at hawake
    rcases hawake with ⟨_, hw, _⟩ | hgate
    · cases hw
    · cases hgate
  have hchild : ∀ c ∈ jobs.map Prod.fst, ∃ r, (c, r) ∈ s.ended := by
    intro c hc
    refine (h.each c (.inr hc)).resolve_left fun ⟨x, hm⟩ => hasleep c x hm (.inl fun hz => hj.notZero (hz ▸ hc))
  rcases hc with rfl | hc
  · refine (h.each 0 (.inl rfl)).resolve_left fun ⟨x, hm⟩ => hasleep 0 x hm (.inr ?_)
    cases signal? with
    | some σ => rfl
    | none =>
        obtain ⟨c, hc⟩ := List.exists_mem_of_ne_nil left h.tells.1
        obtain ⟨hc, hno⟩ := (h.left_iff c).mp hc
        obtain ⟨r, hr⟩ := hchild c hc
        exact absurd hr (hno r)
  · exact hchild c hc

/-- A workspace stays the workspace of its folder. -/
theorem Joint.becomes (hj : Pairs jobs) (h : Joint base ids jobs fine left signal? s) {id : WorkspaceId}
    {v : Workspace} (hv : base.workspaces[id]? = some v) : ∃ w, Becomes id v s.state w := by
  by_cases hid : id ∈ jobs.map Prod.snd
  · obtain ⟨⟨c, _⟩, hjob, rfl⟩ := List.mem_map.mp hid
    have hc := hj.ne_zero hjob
    rcases h.each c (.inr (List.mem_map_of_mem hjob)) with ⟨x, hm⟩ | ⟨r, hm⟩
    · obtain ⟨id', v', w, hjob', hv', hw, _⟩ := (h.tasks c x hm).resolve_left fun h0 => hc h0.1
      cases hj.eq hjob hjob'
      cases hv.symm.trans hv'
      exact ⟨w, hw⟩
    · obtain ⟨id', v', w, hjob', hv', hw, _⟩ := (h.ended c r hm).resolve_left fun h0 => hc h0.1
      cases hj.eq hjob hjob'
      cases hv.symm.trans hv'
      exact ⟨w, hw⟩
  · exact ⟨v, (h.others id hid).trans hv, rfl, rfl⟩

/-- A folder is registered and its workspace is ready. -/
def IsServed (s : ServerState) (folder : Folder) : Prop :=
  ∃ id w, s.registered.get? folder.uri = some id ∧ s.workspaces[id]? = some w ∧ w.state = .ready ∧ w.isReady = true

theorem Joint.isServed (h : Joint base ids (jobsOf base ids) fine left signal? s) (hr : Registered s₀ folders base ids)
    (hready : s.loop.ready = []) (hgates : s.loop.atGates = []) (hf : folder ∈ folders)
    (hfine : ∀ id, base.registered.get? folder.uri = some id → fine id) : IsServed s.state folder := by
  have hj : Pairs (jobsOf base ids) := pairs_jobsOf hr.nodup
  obtain ⟨id, hid, hregistered⟩ := exists_of_mem_right hr.areOf.flip hf
  obtain ⟨v, hv, _, hcompiled⟩ := hr.known hid
  have hregistered' : s.state.registered.get? folder.uri = some id := h.registered.symm ▸ hregistered
  by_cases hp : id ∈ pending base ids
  · rw [← map_snd_jobsOf] at hp
    obtain ⟨⟨c, _⟩, hjob, rfl⟩ := List.mem_map.mp hp
    obtain ⟨r, hm⟩ := h.isOver hj hready hgates (.inr (List.mem_map_of_mem hjob))
    obtain ⟨id', v', w, hjob', _, hw, a, _, ha⟩ := (h.ended c r hm).resolve_left fun h0 => hj.ne_zero hjob h0.1
    cases hj.eq hjob hjob'
    cases a with
    | error f => exact absurd (hfine _ hregistered) ha
    | ok b =>
        obtain ⟨hstate, hmirror⟩ := ha (hfine _ hregistered)
        refine ⟨_, w, hregistered', hw.1, hstate, ?_⟩
        unfold Workspace.isReady
        rw [hmirror, hstate]
        rfl
  · have hisReady : v.isReady = true := by
      by_contra hno
      refine hp (List.mem_filter.mpr ⟨hid, ?_⟩)
      rw [hv]
      simpa using hno
    refine ⟨id, v, hregistered', (h.others id (map_snd_jobsOf ▸ hp)).trans hv, ?_, hisReady⟩
    unfold Workspace.isReady at hisReady
    rw [Bool.and_eq_true, Bool.or_eq_true, decide_eq_true_eq, decide_eq_true_eq] at hisReady
    exact hisReady.2.resolve_right hcompiled

/-- The call reports a folder that is ready as ready. -/
theorem Joint.reports (h : Joint base ids (jobsOf base ids) fine left signal? s) (hr : Registered s₀ folders base ids)
    (hf : folder ∈ folders) (hs : IsServed s.state folder) :
    (readinessOf ids s.state).get? folder.uri = some true := by
  have hj : Pairs (jobsOf base ids) := pairs_jobsOf hr.nodup
  obtain ⟨id, w, hregistered, hw, _, hready⟩ := hs
  rw [h.registered] at hregistered
  have huri : ∀ id ∈ ids, ∀ w, s.state.workspaces[id]? = some w → base.registered.get? w.uri = some id := by
    intro id hid w hw
    obtain ⟨f, _, hf⟩ := exists_of_mem_right hr.areOf hid
    obtain ⟨v, hv, hvuri, _⟩ := hr.idle.known _ _ hf
    obtain ⟨w', hw', hwuri, _⟩ := h.becomes hj hv
    cases hw.symm.trans hw'
    rw [hwuri, hvuri]
    exact hf
  obtain ⟨id', hid, hregistered'⟩ := exists_of_mem_right hr.areOf.flip hf
  cases hregistered.symm.trans hregistered'
  obtain ⟨v, hv, hvuri, _⟩ := hr.idle.known _ _ hregistered
  obtain ⟨w', hw', hwuri, _⟩ := h.becomes hj hv
  cases hw.symm.trans hw'
  refine Dict.get?_ofList (List.mem_filterMap.mpr ⟨id, hid, ?_⟩) fun b hb => ?_
  · rw [hw, Option.map_some, hwuri, hvuri, hready]
  · obtain ⟨other, hother, he⟩ := List.mem_filterMap.mp hb
    obtain ⟨w', hw', he⟩ := Option.map_eq_some_iff.mp he
    obtain ⟨he', rfl⟩ := Prod.mk.inj he
    have hsame := huri other hother w' hw'
    rw [he', hregistered] at hsame
    cases hsame
    cases hw.symm.trans hw'
    exact hready

/-- Folders with different URIs are initialized independently of each other where all of them have a path. The call
then tells which are ready, unless an initialization fails with anything but a mirror that could not be made; and in
the end, whatever becomes of the others, a folder is ready, and is told to be, whose mirror could be made all along.
One folder without a path is enough to have none of them initialized. -/
theorem folders_are_initialized_apart {s : ServerState} {folders : List Folder} {moves : List (Session.Move External)}
    (hs : s.IsIdle) (hd : (folders.map Folder.uri).Nodup) (hm : ∀ move ∈ moves, IsOwn move) :
    let server := (asked s folders).after serverMachine External.act moves
    (∀ r, (0, r) ∈ server.ended → ((∃ ready, r = .ok (.readiness ready)) ↔
      (∀ f ∈ folders, s.HasPath f) ∧ ∀ task f, (task, .error f) ∈ server.ended → task = 0)) ∧
    (server.loop.ready = [] → server.loop.atGates = [] →
      ((∃ f ∈ folders, ¬s.HasPath f) → ∃ e, server.ended = [(0, .error (.uri e))]) ∧
      ((∀ f ∈ folders, s.HasPath f) → (∃ r, (0, r) ∈ server.ended) ∧
        ∀ f ∈ folders, (∀ first rest, moves = first ++ rest →
            CanMirror ((asked s folders).after serverMachine External.act first) f) →
          IsServed server.state f ∧
            ∀ ready, (0, .ok (.readiness ready)) ∈ server.ended → ready.get? f.uri = some true)) := by
  intro server
  have hphase : Phase s folders (fun f => ∀ first rest, moves = first ++ rest →
      CanMirror ((asked s folders).after serverMachine External.act first) f) server :=
    Phase.after (.called (isCalled_asked s folders)) hs hd hm fun _ h => h
  generalize server = server at hphase ⊢
  cases hphase with
  | called h =>
      refine ⟨fun r hr => ?_, fun hready => ?_⟩
      · rw [h.ended] at hr
        cases hr
      · rw [h.ready] at hready
        cases hready
  | refused h f hf hp =>
      obtain ⟨e, he⟩ := h.ended
      refine ⟨fun r hr => ?_, fun _ _ => ⟨fun _ => ⟨e, he⟩, fun hall => absurd (hall f hf) hp⟩⟩
      rw [he] at hr
      cases List.mem_singleton.mp hr
      exact ⟨fun ⟨_, hok⟩ => (nomatch hok), fun h => absurd (h.1 f hf) hp⟩
  | joined base ids left signal? hp hr h =>
      have hj : Pairs (jobsOf base ids) := pairs_jobsOf hr.nodup
      have hcall : ∀ r, (0, r) ∈ server.ended →
          (signal? = some .go ∧ r = .ok (.readiness (readinessOf ids server.state))) ∨
            ∃ f, signal? = some (.failed f) ∧ r = .error f := by
        intro r hm
        rcases h.ended 0 r hm with ⟨_, hresult⟩ | ⟨_, _, _, hjob, _⟩
        · exact hresult
        · exact absurd rfl (hj.ne_zero hjob)
      refine ⟨fun r hm => ?_, fun hready hgates => ⟨fun ⟨f, hf, hno⟩ => absurd (hp f hf) hno, fun _ => ⟨?_, ?_⟩⟩⟩
      · rcases hcall r hm with ⟨rfl, rfl⟩ | ⟨f, rfl, rfl⟩
        · refine ⟨fun _ => ⟨hp, fun c f hc => ?_⟩, fun _ => ⟨_, rfl⟩⟩
          by_contra hne
          obtain ⟨_, he⟩ := h.tells.2 c _ hc hne
          cases he
        · refine ⟨fun ⟨_, hok⟩ => (nomatch hok), fun ⟨_, hnone⟩ => ?_⟩
          obtain ⟨c, hne, hc⟩ := h.tells
          exact absurd (hnone c f hc) hne
      · exact h.isOver hj hready hgates (.inl rfl)
      · intro f hf hgood
        have hserved := h.isServed hr hready hgates hf fun id hid => ⟨f, hgood, hid⟩
        refine ⟨hserved, fun ready hm => ?_⟩
        rcases hcall _ hm with ⟨_, he⟩ | ⟨_, _, he⟩
        · cases he
          exact h.reports hr hf hserved
        · cases he

/-! ## A folder that is not there, and one without a path -/

/-- Whether an initialization waits to write documents. -/
def isOverlaying : Suspended Operation Waiting → Bool
  | .waiting (.initializing (.overlaying ..)) => true
  | _ => false

/-- Whether a mirror of a workspace could be made, as far as nobody waits to write documents. -/
def IsUndisturbed (s : Server) (id : WorkspaceId) : Prop :=
  (∃ w ∈ s.state.workspaces[id]?, Makes s.state id w) ∧ s.tasks.all fun t => !isOverlaying t.2

instance (s : Server) (id : WorkspaceId) : Decidable (IsUndisturbed s id) := by
  unfold IsUndisturbed Makes
  infer_instance

theorem IsUndisturbed.canMirror {id : WorkspaceId} (h : IsUndisturbed s id)
    (hr : s.state.registered.get? folder.uri = some id) : CanMirror s folder := by
  intro id' hid
  cases hr.symm.trans hid
  obtain ⟨⟨w, hw, hmakes⟩, hnone⟩ := h
  refine ⟨fun w' hw' => ?_, fun c g m documents w' hm _ => ?_⟩
  · cases hw.symm.trans hw'
    exact hmakes
  · have hno := List.all_eq_true.mp hnone _ hm
    cases hno

theorem hasPath_of_isOk {s : ServerState} (h : (Workspace.ofFolder folder).isOk) : s.HasPath folder := by
  cases hw : Workspace.ofFolder folder with
  | ok w => exact .inr ⟨w, hw⟩
  | error e =>
      rw [hw] at h
      cases h

theorem isServed_of_any {s : ServerState} (id : WorkspaceId) (hr : s.registered.get? folder.uri = some id)
    (hw : (s.workspaces[id]?).any fun w => w.state = .ready && w.isReady) : IsServed s folder := by
  cases hs : s.workspaces[id]? with
  | none =>
      rw [hs] at hw
      cases hw
  | some w =>
      rw [hs, Option.any_some, Bool.and_eq_true, decide_eq_true_eq] at hw
      exact ⟨id, w, hr, hs, hw⟩

/-- The server of the sample while it initializes its folder and others, after some turns. -/
def sampleAfter (folders : List Folder) (turns : Nat) : Server :=
  (asked (Server.sample []) folders).after serverMachine External.act (List.replicate turns .turn)

/-- A folder that is not there does not keep the one of the sample from being ready. -/
theorem missing_folder_holds_nothing_back :
    let missing : Folder := ⟨"file:///q", "q"⟩
    let story : Folder := ⟨"file:///p", "p"⟩
    (Server.sample []).IsIdle ∧ ([missing, story].map Folder.uri).Nodup ∧
      (∀ move ∈ List.replicate 5 (.turn : Session.Move External), IsOwn move) ∧
      IsServed (sampleAfter [missing, story] 5).state story ∧
      ∃ ready, (0, .ok (.readiness ready)) ∈ (sampleAfter [missing, story] 5).ended ∧
        ready.get? story.uri = some true := by
  intro missing story
  have hidle : (Server.sample []).IsIdle := ⟨fun _ _ => nofun⟩
  have hd : ([missing, story].map Folder.uri).Nodup := by decide
  have hm : ∀ move ∈ List.replicate 5 (.turn : Session.Move External), IsOwn move :=
    fun move hm => List.eq_of_mem_replicate hm ▸ .turn
  have hpaths : ∀ f ∈ [missing, story], (Server.sample []).HasPath f := by
    intro f hf
    rcases List.mem_pair.mp hf with rfl | rfl <;> exact hasPath_of_isOk (by decide +kernel)
  have hundisturbed : ∀ k < 5, IsUndisturbed (sampleAfter [missing, story] (k + 1)) 1 ∧
      (sampleAfter [missing, story] (k + 1)).state.registered.get? story.uri = some 1 := by decide +kernel
  have hmirror : ∀ first rest, List.replicate 5 (.turn : Session.Move External) = first ++ rest →
      CanMirror ((asked (Server.sample []) [missing, story]).after serverMachine External.act first) story := by
    intro first rest he
    obtain ⟨hlength, hfirst, _⟩ := List.append_eq_replicate_iff.mp he.symm
    rw [hfirst]
    cases hk : first.length with
    | zero => exact fun _ => nofun
    | succ k =>
        obtain ⟨hmakes, hregistered⟩ := hundisturbed k (by omega)
        exact hmakes.canMirror hregistered
  obtain ⟨hready, hgates⟩ : (sampleAfter [missing, story] 5).loop.ready = [] ∧
      (sampleAfter [missing, story] 5).loop.atGates = [] := by
    constructor <;> decide +kernel
  obtain ⟨htells, hends⟩ := folders_are_initialized_apart hidle hd hm
  obtain ⟨_, hends⟩ := hends hready hgates
  obtain ⟨⟨r, hr⟩, hserved⟩ := hends hpaths
  obtain ⟨hstory, htold⟩ := hserved story (by simp) hmirror
  refine ⟨hidle, hd, hm, hstory, ?_⟩
  have hoks : (sampleAfter [missing, story] 5).ended.all fun e => e.2.isOk := by decide +kernel
  have hnone : ∀ task f, (task, .error f) ∈ (sampleAfter [missing, story] 5).ended → task = 0 :=
    fun task f hf => nomatch List.all_eq_true.mp hoks _ hf
  obtain ⟨ready, rfl⟩ := (htells r hr).mpr ⟨hpaths, hnone⟩
  exact ⟨ready, hr, htold ready hr⟩

/-- Whether an operation failed because a URI stands for no path. -/
def hasNoPath : Except Failure Result → Bool
  | .error (.uri _) => true
  | _ => false

theorem exists_of_hasNoPath {r : Except Failure Result} (h : hasNoPath r = true) : ∃ e, r = .error (.uri e) := by
  unfold hasNoPath at h
  split at h
  · exact ⟨_, rfl⟩
  · cases h

/-- A folder that is no file keeps the one of the sample from being initialized, which would be ready without it. -/
theorem folder_without_path_holds_back_others :
    let remote : Folder := ⟨"http://example.org/x", "x"⟩
    let story : Folder := ⟨"file:///p", "p"⟩
    IsServed (sampleAfter [story] 4).state story ∧
      (sampleAfter [remote, story] 4).loop.ready = [] ∧ (sampleAfter [remote, story] 4).loop.atGates = [] ∧
      (∃ e, (sampleAfter [remote, story] 4).ended = [(0, .error (.uri e))]) ∧
      ¬IsServed (sampleAfter [remote, story] 4).state story := by
  intro remote story
  have hended : (sampleAfter [remote, story] 4).ended.map (fun e => (e.1, hasNoPath e.2)) = [(0, true)] := by
    decide +kernel
  have hregistered : (sampleAfter [remote, story] 4).state.registered.get? story.uri = none := by decide +kernel
  refine ⟨isServed_of_any 0 (by decide +kernel) (by decide +kernel), by decide +kernel, by decide +kernel, ?_,
    fun ⟨_, _, hr, _⟩ => by cases hregistered.symm.trans hr⟩
  obtain ⟨⟨task, r⟩, he, hr⟩ := List.map_eq_singleton_iff.mp hended
  obtain ⟨e, rfl⟩ := exists_of_hasNoPath (Prod.mk.inj hr).2
  cases (Prod.mk.inj hr).1
  exact ⟨e, he⟩

end JointInitialization

end InkServer
