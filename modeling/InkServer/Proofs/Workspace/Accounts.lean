import InkServer.Proofs.Workspace.Lifecycle
import InkServer.Proofs.Workspace.Registry
import Mathlib.Data.List.Nodup

/-!
# No mirror is forgotten

In a run in which nothing is asked for but what the registry of workspaces does, every mirror that was made is that of
one workspace, in the charge of one task that waits, or deleted. Only a task that ends in the middle of something
forgets a mirror, and only a workspace that is used again after its removal may keep one.
-/

namespace InkServer

open ServerState ServerAct

/-! ## Tasks of the registry -/

namespace Suspended

/-- Whether a task is one of the registry. -/
def isOfRegistry : Suspended Operation Waiting → Bool
  | .created operation => operation.isOfRegistry
  | .waiting state => state.isOfRegistry

/-- What a task is in charge of. -/
def charges : Suspended Operation Waiting → List Charge
  | .created _ => []
  | .waiting state => state.charges

end Suspended

namespace Waiting

variable {τ α : Type} {l : Loop ServerState Operation}

theorem ofRegistry_ending {part : ServerAct (Step τ α)} {wrap : τ → Waiting} {f : α → Result}
    (hw : ∀ state, (wrap state).isOfRegistry) :
    (ending part wrap f).Reaches l (fun state _ => state.isOfRegistry) fun _ _ => True := by
  unfold ending Act.andThen
  rw [Act.reaches_afterwards]
  unfold Act.Reaches
  split
  · exact hw _
  · rename_i r _
    cases r <;> trivial

theorem ofRegistry_withLast {uri : String} {f : WorkspaceId → ServerAct (Step Waiting Result)}
    (hf : ∀ id, (f id).Reaches l (fun state _ => state.isOfRegistry) fun _ _ => True) :
    (withLast uri f).Reaches l (fun state _ => state.isOfRegistry) fun _ _ => True := by
  unfold withLast
  rw [Act.reaches_bind, Act.returns_state, Act.leaves_state]
  split
  · exact hf _
  · trivial

/-- What begins for the registry waits for it. -/
theorem ofRegistry_start {operation : Operation} (ho : operation.isOfRegistry) (signal : Signal) :
    (start operation signal).Reaches l (fun state _ => state.isOfRegistry) fun _ _ => True := by
  unfold start
  split
  · cases operation with
    | add folder =>
        unfold begin add
        rw [Act.reaches_bind]
        split
        · trivial
        · exact ofRegistry_ending fun _ => rfl
    | initializeLast | compile => exact ofRegistry_withLast fun _ => ofRegistry_ending fun _ => rfl
    | fetchSettings | initialize_ | initializeAll | remove | shutdown | update | edit | copyAllCreated
    | compileTarget => exact ofRegistry_ending fun _ => rfl
    | _ => cases ho
  · exact ofRegistry_ending fun _ => rfl
  · trivial

theorem ofRegistry_resume {state : Waiting} (hs : state.isOfRegistry) (signal : Signal) :
    (resume state signal).Reaches l (fun state _ => state.isOfRegistry) fun _ _ => True := by
  cases state with
  | fetching | initializing | initializingAll | removing | shuttingDown | updating | editing | copyingAll | compiling
  | compilingTarget => exact ofRegistry_ending fun _ => rfl
  | _ => cases hs

end Waiting

namespace Server

/-- The tasks of a session. -/
abbrev Tasks := List (TaskId × Suspended Operation Waiting)

/-- What tasks are in charge of. -/
def Tasks.charges (tasks : Tasks) : List Charge := tasks.flatMap fun t => t.2.charges

/-- What each task is in charge of. -/
def Tasks.duties (tasks : Tasks) : List Duty := tasks.map fun t => t.2.charges

/-- Tasks of the registry, each with a number of its own. -/
structure Tasks.Enlisted (tasks : Tasks) (next : TaskId) : Prop where
  ofRegistry : ∀ t ∈ tasks, t.2.isOfRegistry
  distinct : (tasks.map Prod.fst).Nodup
  below : ∀ t ∈ tasks, t.1 < next

namespace Tasks

variable {tasks : Tasks} {next : TaskId} {l₀ l : Loop ServerState Operation} {new : List (TaskId × Operation)}

theorem flatten_duties (tasks : Tasks) : tasks.duties.flatten = tasks.charges := List.flatMap_def.symm

theorem duties_append (first last : Tasks) : (first ++ last).duties = first.duties ++ last.duties := List.map_append

/-- Tasks, and those that were created meanwhile. -/
def adopt (tasks : Tasks) (new : List (TaskId × Operation)) : Tasks :=
  tasks ++ new.map fun c => (c.1, .created c.2)

/-- A task that has not begun is in charge of nothing. -/
theorem duties_adopt (tasks : Tasks) (new : List (TaskId × Operation)) :
    (tasks.adopt new).duties = tasks.duties ++ new.map fun _ => [] := by
  unfold adopt
  rw [duties_append]
  refine congrArg (tasks.duties ++ ·) ?_
  exact List.map_map

theorem Enlisted.of_sublist {fewer : Tasks} (h : tasks.Enlisted next) (hs : fewer.Sublist tasks) :
    fewer.Enlisted next :=
  ⟨fun t ht => h.ofRegistry t (hs.subset ht), (hs.map Prod.fst).nodup h.distinct,
    fun t ht => h.below t (hs.subset ht)⟩

/-- Tasks that are created have the next numbers. -/
theorem numbers_of_creates (hc : Creates l₀ l new) :
    (new.map fun c => ((c.1, .created c.2) : TaskId × Suspended Operation Waiting)).map Prod.fst =
      List.range' l₀.nextTask new.length := by
  rw [List.map_map]
  exact hc.numbers

theorem Enlisted.adopt (h : tasks.Enlisted l₀.nextTask) (hc : Creates l₀ l new) :
    (tasks.adopt new).Enlisted l.nextTask := by
  refine ⟨fun t ht => ?_, ?_, fun t ht => ?_⟩
  · rcases List.mem_append.mp ht with ht | ht
    · exact h.ofRegistry t ht
    · obtain ⟨c, hmem, rfl⟩ := List.mem_map.mp ht
      exact hc.ofRegistry c hmem
  · unfold Tasks.adopt
    rw [List.map_append, numbers_of_creates hc]
    refine h.distinct.append List.nodup_range' fun task hold hnew => ?_
    obtain ⟨t, ht, rfl⟩ := List.mem_map.mp hold
    exact absurd (List.mem_range'_1.mp hnew).1 (Nat.not_le_of_lt (h.below t ht))
  · rw [hc.next]
    rcases List.mem_append.mp ht with ht | ht
    · exact Nat.lt_of_lt_of_le (h.below t ht) (Nat.le_add_right _ _)
    · have hmem := numbers_of_creates hc ▸ List.mem_map_of_mem (f := Prod.fst) ht
      exact (List.mem_range'_1.mp hmem).2

/-- No task that is created is one that was there before. -/
theorem not_mem_adopt (hc : Creates l₀ l new) {task : TaskId} (hb : task < l₀.nextTask) (hn : ∀ x, (task, x) ∉ tasks)
    (x : Suspended Operation Waiting) : (task, x) ∉ tasks.adopt new := by
  intro hx
  rcases List.mem_append.mp hx with hx | hx
  · exact hn x hx
  · have hmem := numbers_of_creates hc ▸ List.mem_map_of_mem (f := Prod.fst) hx
    exact absurd (List.mem_range'_1.mp hmem).1 (Nat.not_le_of_lt hb)

/-- A task that waits again. -/
theorem Enlisted.concat {task : TaskId} {state : Waiting} (h : tasks.Enlisted next) (hs : state.isOfRegistry)
    (hn : ∀ x, (task, x) ∉ tasks) (hb : task < next) : Enlisted (tasks ++ [(task, .waiting state)]) next := by
  refine ⟨fun t ht => ?_, ?_, fun t ht => ?_⟩
  · rcases List.mem_append.mp ht with ht | ht
    · exact h.ofRegistry t ht
    · cases List.mem_singleton.mp ht
      exact hs
  · rw [List.map_append]
    refine h.distinct.append (List.nodup_singleton _) fun t hold hnew => ?_
    obtain ⟨⟨t, x⟩, ht, rfl⟩ := List.mem_map.mp hold
    cases List.mem_singleton.mp hnew
    exact hn x ht
  · rcases List.mem_append.mp ht with ht | ht
    · exact h.below t ht
    · cases List.mem_singleton.mp ht
      exact hb

end Tasks

/-! ## Turns -/

/-- Some task has ended in the middle of something. -/
def Abrupt (s : Server) : Prop := ∃ t ∈ s.ended, IsAbrupt t.2

instance (s : Server) : Decidable (Abrupt s) := inferInstanceAs (Decidable (∃ t ∈ s.ended, IsAbrupt t.2))

theorem Abrupt.of_subset {s s' : Server} (h : Abrupt s) (hs : s.ended ⊆ s'.ended) : Abrupt s' := by
  obtain ⟨t, ht, habrupt⟩ := h
  exact ⟨t, hs ht, habrupt⟩

/-- The books agree with the duties of the tasks and with those that tasks dropped which ended in the middle of
something. -/
structure Accounted (B : List Duty → ServerState → Prop) (s : Server) : Prop where
  keeping : Keeping B
  created : s.loop.created = []
  enlisted : Tasks.Enlisted s.tasks s.loop.nextTask
  tally : ∃ dropped, B (dropped ++ Tasks.duties s.tasks) s.state ∧ (dropped ≠ [] → Abrupt s)

variable {B : List Duty → ServerState → Prop} {s : Server}

/-- A task, and the duties of the others. -/
theorem duties_perm_of_task? (h : (s.tasks.map Prod.fst).Nodup) {task : TaskId} {x : Suspended Operation Waiting}
    (hx : s.task? task = some x) :
    (Tasks.duties s.tasks).Perm (x.charges :: Tasks.duties (s.without task)) := by
  have hmem := Session.mem_of_task? hx
  obtain ⟨first, last, hsplit⟩ := List.append_of_mem hmem
  have hwithout : s.without task = first ++ last := by
    unfold Session.without
    rw [hsplit, List.map_append, List.map_cons] at h
    have hfirst : ∀ t ∈ first, t.1 ≠ task := fun t ht he =>
      (List.nodup_append.mp h).2.2 t.1 (List.mem_map_of_mem ht) task List.mem_cons_self he
    have hlast : ∀ t ∈ last, t.1 ≠ task := fun t ht he =>
      (List.nodup_cons.mp (List.nodup_append.mp h).2.1).1 (List.mem_map.mpr ⟨t, ht, he⟩)
    rw [hsplit, List.filter_append, List.filter_cons_of_neg (by simp),
      List.filter_eq_self.mpr fun t ht => by simpa using hfirst t ht,
      List.filter_eq_self.mpr fun t ht => by simpa using hlast t ht]
  rw [hwithout, hsplit]
  unfold Tasks.duties
  rw [List.map_append, List.map_cons, List.map_append]
  exact List.perm_middle

theorem created_of_creates {l₀ l : Loop ServerState Operation} {new : List (TaskId × Operation)}
    (hc : Creates l₀ l new) (h : l₀.created = []) : l.created = new := by
  rw [hc.created, h]
  rfl

section step

variable {l₀ l : Loop ServerState Operation} {task : TaskId} {dropped : List Duty}

/-- Tasks that were created are in charge of nothing. -/
theorem tally_adopt {tasks : Tasks} {held : List Duty} {new : List (TaskId × Operation)}
    (hm : Minds B l₀ held l) (hp : held.Perm (dropped ++ tasks.duties)) :
    B (dropped ++ (tasks.adopt new).duties) l.state := by
  have hidle : B ((new.map fun _ => []) ++ held) l.state :=
    (hm.keeping.idle_append fun d hd => (List.mem_map.mp hd).elim fun _ h => h.2.symm).mpr hm.tally
  refine hm.keeping.perm hidle ?_
  rw [Tasks.duties_adopt, ← List.append_assoc]
  exact List.perm_append_comm.trans (hp.append_right _)

/-- A task that waits again is in charge of what it waits with. -/
theorem accounted_waits {state : Waiting}
    (hm : Minds B l₀ (state.charges :: (dropped ++ Tasks.duties (s.without task))) l) (ho : state.isOfRegistry)
    (h : Tasks.Enlisted (s.without task) l₀.nextTask) (h0 : l₀.created = []) (hb : task < l₀.nextTask)
    (hd : dropped ≠ [] → Abrupt s) : Accounted B (s.wentOn task (.waits state) l) := by
  obtain ⟨new, hc⟩ := hm.creates
  have htasks : (s.wentOn task (.waits state) l).tasks =
      Tasks.adopt (s.without task) new ++ [(task, .waiting state)] := by
    rw [← created_of_creates hc h0]
    rfl
  have hgone : ∀ x, (task, x) ∉ s.without task := fun x hx => (Session.mem_without.mp hx).2 rfl
  have hnew := Tasks.not_mem_adopt hc hb hgone
  have hnext : task < l.nextTask := Nat.lt_of_lt_of_le hb (hc.next ▸ Nat.le_add_right _ _)
  refine ⟨hm.keeping, rfl, htasks ▸ (h.adopt hc).concat ho hnew hnext, dropped, ?_, hd⟩
  have hfirst : B ((state.charges :: dropped) ++ (Tasks.adopt (s.without task) new).duties) l.state :=
    tally_adopt hm (.refl _)
  refine hm.keeping.perm hfirst ?_
  rw [htasks, Tasks.duties_append, ← List.append_assoc]
  exact (List.perm_append_singleton _ _).symm

/-- A task that ends is in charge of nothing. -/
theorem accounted_ends {r : Except Failure Result} (hm : Minds B l₀ (dropped ++ Tasks.duties (s.without task)) l)
    (h : Tasks.Enlisted (s.without task) l₀.nextTask) (h0 : l₀.created = [])
    (hd : dropped ≠ [] → Abrupt (s.wentOn task (.ends r) l)) : Accounted B (s.wentOn task (.ends r) l) := by
  obtain ⟨new, hc⟩ := hm.creates
  have htasks : (s.wentOn task (.ends r) l).tasks = Tasks.adopt (s.without task) new := by
    rw [← created_of_creates hc h0]
    exact List.append_nil _
  refine ⟨hm.keeping, rfl, ?_, dropped, ?_, hd⟩
  · rw [htasks, Session.wentOn_nextTask]
    exact h.adopt hc
  · rw [htasks, Session.wentOn_state]
    exact tally_adopt hm (.refl _)

end step

/-- A task that is run goes on with its duty, and drops it only if it ends in the middle of something. -/
theorem Accounted.run (h : Accounted B s) {task : TaskId} {x : Suspended Operation Waiting} (hx : s.task? task = some x)
    (signal : Signal) : Accounted B (Session.run serverMachine s task signal) := by
  obtain ⟨dropped, hbooks, habrupt⟩ := h.tally
  have hmem := Session.mem_of_task? hx
  have ho := h.enlisted.ofRegistry _ hmem
  have hperm : (dropped ++ Tasks.duties s.tasks).Perm
      (x.charges :: (dropped ++ Tasks.duties (s.without task))) :=
    ((duties_perm_of_task? h.enlisted.distinct hx).append_left dropped).trans List.perm_middle
  have hminds : Minds B { s.loop with current := task } (x.charges :: (dropped ++ Tasks.duties (s.without task)))
      { s.loop with current := task } := ⟨h.keeping, ⟨[], .nil rfl rfl⟩, h.keeping.perm hbooks hperm⟩
  have hgoes : Minding B { s.loop with current := task } (dropped ++ Tasks.duties (s.without task)) Waiting.charges
      (serverMachine.goesOn signal x) { s.loop with current := task } ∧
      (serverMachine.goesOn signal x).Reaches { s.loop with current := task } (fun state _ => state.isOfRegistry)
        fun _ _ => True := by
    cases x with
    | created => exact ⟨Waiting.minding_start ho signal (Minds.idle_iff.mp hminds), Waiting.ofRegistry_start ho signal⟩
    | waiting => exact ⟨Waiting.minding_resume ho signal hminds, Waiting.ofRegistry_resume ho signal⟩
  have hothers : Tasks.Enlisted (s.without task) s.loop.nextTask := h.enlisted.of_sublist List.filter_sublist
  unfold Minding at hgoes
  refine Session.run_of_reaches (p := Accounted B) hx
    ((hgoes.1.and hgoes.2).mono (fun state l ⟨hm, hstate⟩ => ?_) fun r l ⟨hm, _⟩ => ?_)
  · exact accounted_waits hm hstate hothers h.created (h.enlisted.below _ hmem) habrupt
  · have hended : s.ended ⊆ (s.wentOn task (.ends r) l).ended := fun t ht => Session.mem_ended_wentOn.mpr (.inl ht)
    rcases hm with hm | ⟨hr, duty, hm⟩
    · exact accounted_ends hm hothers h.created fun hdropped => (habrupt hdropped).of_subset hended
    · have hdrops : Minds B _ ((duty :: dropped) ++ Tasks.duties (s.without task)) l := hm
      exact accounted_ends hdrops hothers h.created fun _ =>
        ⟨(task, r), Session.mem_ended_wentOn.mpr (.inr ⟨r, rfl, rfl⟩), hr⟩

end Server

/-! ## Moves -/

/-- Books that others keep who work on the disk. -/
def Tolerates (B : List Duty → ServerState → Prop) (f : Foreign) : Prop :=
  ∀ held s, B held s → B held { s with disk := f.effect s.disk }

/-- Others make no mirrors, and the record grows. -/
theorem tolerates_books (f : Foreign) : Tolerates (fun held s => s.Books held.flatten) f := fun held s h => by
  cases f with
  | files | blocks => exact h.onDisk rfl (List.prefix_refl _)
  | vanishes => exact h.onDisk rfl (List.prefix_append _ _)

namespace External

/-- Whether something from outside is for the registry, or is done by others. -/
def isOfRegistry : External → Bool
  | .asks operation => operation.isOfRegistry
  | .notification _ _ | .request _ _ => false
  | _ => true

variable {B : List Duty → ServerState → Prop} {l₀ l : Loop ServerState Operation} {held : List Duty}

theorem standingBy_reply (index : Nat) (answer : Except Failure Value) :
    StandingBy (Reception.reply index answer) l := by
  unfold Reception.reply
  rw [standingBy_state]
  dsimp only
  split
  · exact standingBy_pure _
  · refine StandingBy.bind (.aside rfl rfl rfl rfl rfl rfl) fun _ l₁ => ?_
    split
    · exact standingBy_pure _
    · refine StandingBy.bind (.aside rfl rfl rfl rfl rfl rfl) fun _ l₂ => ?_
      exact StandingBy.bind (standingBy_wake _ _ _) fun _ _ => standingBy_pure _

/-- What comes from outside changes nobody's duties. -/
theorem minds_act {e : External} (he : e.isOfRegistry) (h : Minds B l₀ held l)
    (hf : ∀ f, e = .foreign f → Tolerates B f) : Minds B l₀ held (e.act.leaves l) := by
  cases e with
  | asks operation =>
      show Minds B l₀ held ((if operation.isServed then discard (Act.create operation) else pure ()).leaves l)
      split
      · exact h.standsBy (standingBy_create he)
      · exact h
  | reply index answer => exact h.standsBy (standingBy_reply index answer)
  | registers folder => exact JointInitialization.minds_register folder h
  | closes uri => exact h.standsBy (standingBy_closeDocument uri)
  | invalidates => exact h.standsBy standingBy_invalidateSettings
  | expires => exact h.standsBy Invocation.standingBy_expireFirst
  | adjusts other => exact h.standsBy (.aside rfl rfl rfl rfl rfl rfl)
  | foreign f => exact h.moved (hf f rfl held l.state h.tally)
  | notification | request => cases he

end External

namespace Server

variable {s : Server}

/-- Whether a move is one of a run of the registry. -/
def IsOfRegistry : Session.Move External → Prop
  | .outside e => e.isOfRegistry
  | _ => True

instance : DecidablePred IsOfRegistry
  | .outside e => inferInstanceAs (Decidable e.isOfRegistry)
  | .turn | .cancels _ | .passes _ _ | .closes _ | .opens _ => .isTrue trivial

/-- Something that changes nobody's duties. -/
theorem Accounted.act {α : Type} {a : ServerAct α} (h : Accounted B s)
    (ha : ∀ held, Minds B s.loop held s.loop → Minds B s.loop held (a.leaves s.loop)) : Accounted B (s.act a).2 := by
  obtain ⟨dropped, hbooks, habrupt⟩ := h.tally
  have hminds := ha _ ⟨h.keeping, ⟨[], .nil rfl rfl⟩, hbooks⟩
  obtain ⟨new, hc⟩ := hminds.creates
  have htasks : (s.act a).2.tasks = Tasks.adopt s.tasks new := by
    rw [← created_of_creates hc h.created]
    rfl
  refine ⟨h.keeping, rfl, ?_, dropped, ?_, habrupt⟩
  · rw [htasks]
    show Tasks.Enlisted _ (a.leaves s.loop).nextTask
    exact h.enlisted.adopt hc
  · rw [htasks]
    show B _ (a.leaves s.loop).state
    exact tally_adopt hminds (.refl _)

theorem Accounted.advance (h : Accounted B s) {move : Session.Move External} (hm : IsOfRegistry move)
    (hf : ∀ f, move = .outside (.foreign f) → Tolerates B f) :
    Accounted B (s.advance serverMachine External.act move) := by
  have hquiet : ∀ a : ServerAct Unit, StandsBy s.loop (a.leaves s.loop) → Accounted B (s.act a).2 :=
    fun a ha => h.act fun _ hminds => hminds.standsBy ha
  have hready : ∀ ready, Accounted B { s with loop := { s.loop with ready } } :=
    fun ready => ⟨h.keeping, h.created, h.enlisted, h.tally⟩
  cases move with
  | turn =>
      exact Session.turn_keeps (p := Accounted B) h (fun _ _ _ _ => hready _) (fun _ _ _ _ => hready _)
        fun w rest x _ hx => (hready rest).run hx w.signal
  | cancels task =>
      show Accounted B (s.cancel task).2
      unfold Session.cancel
      split
      · exact hquiet (Act.cancel task) (standingBy_cancel task)
      · exact h
  | passes task signal =>
      refine hquiet (Act.pass task signal) ?_
      unfold Act.pass
      rw [Act.leaves_modify]
      split <;> exact .aside rfl rfl rfl rfl rfl rfl
  | closes gate => exact hquiet (Act.close gate) (.aside rfl rfl rfl rfl rfl rfl)
  | opens gate => exact hquiet (Act.open_ gate) (.aside rfl rfl rfl rfl rfl rfl)
  | outside e => exact h.act fun _ hminds => External.minds_act hm hminds fun f he => hf f (he ▸ rfl)

/-- However a run of the registry goes, the books are kept. -/
theorem Accounted.after (h : Accounted B s) {moves : List (Session.Move External)}
    (hm : ∀ move ∈ moves, IsOfRegistry move) (hf : ∀ f, .outside (.foreign f) ∈ moves → Tolerates B f) :
    Accounted B (s.after serverMachine External.act moves) := by
  induction moves generalizing s with
  | nil => exact h
  | cons move rest ih =>
      rw [Session.after_cons]
      refine ih (h.advance (hm move List.mem_cons_self) fun f he => hf f (he ▸ List.mem_cons_self)) ?_ ?_
      · exact fun move hmem => hm move (List.mem_cons_of_mem _ hmem)
      · exact fun f hmem => hf f (List.mem_cons_of_mem _ hmem)

theorem accounted_ofState {s : ServerState} (hk : Keeping B) (h : B [] s) : Accounted B (Session.ofState s) where
  keeping := hk
  created := rfl
  enlisted := ⟨fun _ ht => absurd ht List.not_mem_nil, List.nodup_nil, fun _ ht => absurd ht List.not_mem_nil⟩
  tally := ⟨[], h, fun hd => absurd rfl hd⟩

/-- At the beginning nothing has been made, and nobody is in charge of anything. -/
theorem IsFresh.custody {s : ServerState} (h : IsFresh s) (hd : s.disk.scratches = 0) : s.Custody [] := by
  have hnone : ∀ id m, ¬s.Has id m := fun id m ⟨w, hw, _⟩ => by
    rw [h.workspaces] at hw
    cases hw
  have hfree : ∀ c : Charge, c ∉ [] := fun _ => List.not_mem_nil
  refine ⟨h.sound.toPlaced, fun m hm => ?_, fun id hm => ?_, fun id m hm => ?_, fun id _ m hm => ?_, fun id m hm => ?_,
    fun m => ?_, fun m hm => ?_, fun id m hm => ?_⟩
  · exact absurd hm (hfree _)
  · exact absurd hm (hfree _)
  · exact absurd hm (hfree _)
  · exact absurd hm (hnone id m)
  · exact absurd hm (hnone id m)
  · exact Nat.zero_le 1
  · obtain ⟨k, h0, hk, _⟩ := hm
    exact absurd (Nat.lt_of_lt_of_le h0 (hd ▸ hk)) (Nat.lt_irrefl 0)
  · exact absurd hm (hnone id m)

/-! ## When all is done -/

/-- A run of the registry that is over: no task ended in the middle of something or is still in charge of anything, and
no workspace was used again after its removal. -/
structure IsSettled (s : ServerState) (moves : List (Session.Move External)) : Prop where
  numbers : s.disk.scratches = 0
  ofRegistry : ∀ move ∈ moves, IsOfRegistry move
  smooth : ¬Abrupt (run s moves)
  asleep : ¬(run s moves).state.HasWoken
  done : Tasks.charges (run s moves).tasks = []

variable {s : ServerState} {moves : List (Session.Move External)} {m : Mirror}

theorem IsSettled.custody (h : IsSettled s moves) (hs : IsFresh s) : (run s moves).state.Custody [] := by
  have hbegins : Accounted (fun held s => s.Books held.flatten) (Session.ofState s) :=
    accounted_ofState keeping_books (.inr (hs.custody h.numbers))
  obtain ⟨dropped, hbooks, habrupt⟩ := (hbegins.after h.ofRegistry fun f _ => tolerates_books f).tally
  have hnone : dropped = [] := Classical.byContradiction fun hd => h.smooth (habrupt hd)
  rw [hnone, List.nil_append, Tasks.flatten_duties] at hbooks
  have hdone : (run s moves).state.Books [] := h.done ▸ hbooks
  exact hdone.resolve_left h.asleep

/-- Nothing but workspaces keeps a mirror then. -/
theorem IsSettled.kept (h : IsSettled s moves) (hs : IsFresh s)
    (hm : m.IsMade (run s moves).state.policy (run s moves).state.disk) :
    (∃ id, (run s moves).state.Has id m) ∨ .deleted m.path ∈ (run s moves).state.disk.history :=
  ((h.custody hs).kept m hm).imp_right fun hkept => hkept.resolve_left List.not_mem_nil

/-- Once all is done, every mirror that was made is that of one registered workspace, or it was deleted. -/
theorem made_mirror_is_kept_by_one_or_deleted (hs : IsFresh s) (h : IsSettled s moves)
    (hm : m.IsMade (run s moves).state.policy (run s moves).state.disk) :
    (∃ id uri, (run s moves).state.registered.get? uri = some id ∧ (run s moves).state.Has id m ∧
        ∀ id', (run s moves).state.Has id' m → id' = id) ∨
      .deleted m.path ∈ (run s moves).state.disk.history := by
  refine (h.kept hs hm).imp_left fun ⟨id, hid⟩ => ?_
  obtain ⟨uri, hr⟩ := ((h.custody hs).registered id m hid).resolve_right fun ⟨_, hcharge⟩ =>
    List.not_mem_nil hcharge
  exact ⟨id, uri, hr, hid, fun id' hid' => (h.custody hs).apart id' id m hid' hid⟩

/-- A mirror of the sample. -/
def sampleMirror (number : Nat) : Mirror := ⟨(Path.ofText "/m").child (Mirror.scratchName number)⟩

/-- Whether a mirror was deleted. -/
def wasDeleted (m : Mirror) (d : Disk) : Bool :=
  d.history.any fun
    | .deleted path => path = m.path
    | .wrote _ _ _ => false

theorem wasDeleted_iff {d : Disk} : wasDeleted m d ↔ .deleted m.path ∈ d.history := by
  unfold wasDeleted
  rw [List.any_eq_true]
  constructor
  · rintro ⟨e, he, hd⟩
    cases e with
    | deleted path => exact of_decide_eq_true hd ▸ he
    | wrote => cases hd
  · exact fun h => ⟨_, h, decide_eq_true rfl⟩

/-- Workspaces that are all registered are not in use after a removal. -/
theorem not_hasWoken_of_registered (h : ∀ id < s.workspaces.length, ∃ uri, s.registered.get? uri = some id) :
    ¬s.HasWoken := by
  rintro ⟨id, w, hw, hgone, _⟩
  obtain ⟨uri, hr⟩ := h id (List.getElem?_eq_some_iff.mp hw).1
  exact hgone.unregistered uri hr

/-- A run that is over and in which nothing but the folder of the sample was opened. -/
theorem isSettled_of_sample {moves : List (Session.Move External)}
    (h : (∀ move ∈ moves, IsOfRegistry move) ∧ ¬Abrupt (run (sample []) moves) ∧
      Tasks.charges (run (sample []) moves).tasks = [] ∧ (run (sample []) moves).state.workspaces.length = 1 ∧
      (run (sample []) moves).state.registered.get? "file:///p" = some 0) : IsSettled (sample []) moves := by
  obtain ⟨hregistry, hsmooth, hdone, hlength, hregistered⟩ := h
  refine ⟨rfl, hregistry, hsmooth, not_hasWoken_of_registered fun id hid => ⟨"file:///p", ?_⟩, hdone⟩
  have hzero : id = 0 := Nat.lt_one_iff.mp (hlength ▸ hid)
  exact hzero ▸ hregistered

theorem isMade_sampleMirror {moves : List (Session.Move External)} {number : Nat} (h0 : 0 < number)
    (h : number ≤ (run (sample []) moves).state.disk.scratches ∧
      (run (sample []) moves).state.policy.tempRoot = .ofText "/m") :
    (sampleMirror number).IsMade (run (sample []) moves).state.policy (run (sample []) moves).state.disk := by
  refine ⟨number, h0, h.1, ?_⟩
  rw [h.2]
  rfl

/-- The folder is opened once more, which makes another mirror. -/
def reopening : List (Session.Move External) := openingFolder ++ openingFolder

/-- A mirror that was replaced is deleted, and the one in its place is kept. -/
theorem replaced_mirror_is_deleted :
    .deleted (sampleMirror 1).path ∈ (run (sample []) reopening).state.disk.history ∧
      (run (sample []) reopening).state.Has 0 (sampleMirror 2) := by
  have hsettled : IsSettled (sample []) reopening := isSettled_of_sample (by decide +kernel)
  have hmade : ∀ number, 0 < number → number ≤ 2 →
      (sampleMirror number).IsMade (run (sample []) reopening).state.policy (run (sample []) reopening).state.disk := by
    have hrun : (run (sample []) reopening).state.disk.scratches = 2 ∧
        (run (sample []) reopening).state.policy.tempRoot = .ofText "/m" := by decide +kernel
    exact fun number h0 h2 => isMade_sampleMirror h0 ⟨hrun.1 ▸ h2, hrun.2⟩
  have hrun : (∀ w ∈ (run (sample []) reopening).state.workspaces, w.mirror ≠ some (sampleMirror 1)) ∧
      ¬wasDeleted (sampleMirror 2) (run (sample []) reopening).state.disk ∧
      (run (sample []) reopening).state.workspaces.length = 1 := by decide +kernel
  obtain ⟨hfirst, hsecond, hlength⟩ := hrun
  constructor
  · refine (made_mirror_is_kept_by_one_or_deleted (isFresh_sample []) hsettled
      (hmade 1 (by decide) (by decide))).resolve_left ?_
    rintro ⟨id, _, _, ⟨w, hw, hm⟩, _⟩
    exact hfirst w (List.mem_of_getElem? hw) hm
  · obtain ⟨id, _, _, hid, _⟩ := (made_mirror_is_kept_by_one_or_deleted (isFresh_sample []) hsettled
      (hmade 2 (by decide) (by decide))).resolve_right fun hdeleted => hsecond (wasDeleted_iff.mpr hdeleted)
    have ⟨_, hw, _⟩ := hid
    have hzero : id = 0 := Nat.lt_one_iff.mp (hlength ▸ (List.getElem?_eq_some_iff.mp hw).1)
    exact hzero ▸ hid

/-- An update is still to be written when its workspace gets another mirror. -/
def lateWrite : List (Session.Move External) :=
  openingFolder ++ [.closes "write", .outside (.asks (.update (sampleDocument 1 "One."))), .turn] ++ openingFolder ++
    [.passes 1 .go, .turn]

/-- A write that comes late makes the directory of a deleted mirror anew, and nobody looks after it. -/
theorem late_write_makes_deleted_mirror_anew :
    IsSettled (sample []) lateWrite ∧ (run (sample []) lateWrite).tasks = [] ∧
      (sampleMirror 1).IsMade (run (sample []) lateWrite).state.policy (run (sample []) lateWrite).state.disk ∧
      ((run (sample []) lateWrite).state.disk.files.node? ["m", "inkls-1"]).any FileNode.isDirectory ∧
      ∀ id, ¬(run (sample []) lateWrite).state.Has id (sampleMirror 1) := by
  have hrun : (run (sample []) lateWrite).tasks.length = 0 ∧
      (1 ≤ (run (sample []) lateWrite).state.disk.scratches ∧
        (run (sample []) lateWrite).state.policy.tempRoot = .ofText "/m") ∧
      ((run (sample []) lateWrite).state.disk.files.node? ["m", "inkls-1"]).any FileNode.isDirectory ∧
      ∀ w ∈ (run (sample []) lateWrite).state.workspaces, w.mirror ≠ some (sampleMirror 1) := by decide +kernel
  obtain ⟨htasks, hmade, hthere, hnone⟩ := hrun
  refine ⟨isSettled_of_sample (by decide +kernel), List.length_eq_zero_iff.mp htasks,
    isMade_sampleMirror Nat.one_pos hmade, hthere, ?_⟩
  rintro id ⟨w, hw, hm⟩
  exact hnone w (List.mem_of_getElem? hw) hm

end Server

end InkServer
