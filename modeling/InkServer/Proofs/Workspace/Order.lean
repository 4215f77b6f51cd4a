import InkServer.Proofs.Workspace.Lifecycle
import InkServer.Proofs.Workspace.Overtaken

/-!
# In which order requests are admitted

The requests of a workspace are numbered in the order in which they are admitted. Before a trigger comes that
far its text is written, its workspace is prepared and its settings are fetched, and a trigger that has to wait
for one of these is passed by whoever does not.
-/

namespace InkServer

open ServerState

/-- The generation of a request of a workspace that is admitted. -/
def Event.generation? (id : WorkspaceId) : Event → Option Int
  | .admitted _ id' request => if id' = id then some request.generation else none
  | _ => none

/-- The generations of a workspace in the order in which its requests were admitted. -/
def generationsOf (id : WorkspaceId) (events : List Event) : List Int := events.filterMap (Event.generation? id)

/-- The first generations there are. -/
def firstGenerations (n : Nat) : List Int := (List.range' 1 n).map Int.ofNat

theorem firstGenerations_succ (n : Nat) : firstGenerations (n + 1) = firstGenerations n ++ [(n + 1 : Int)] := by
  unfold firstGenerations
  rw [List.range'_concat, List.map_append, List.map_singleton, Nat.one_mul, Nat.add_comm 1 n]
  rfl

theorem pairwise_firstGenerations (n : Nat) : (firstGenerations n).Pairwise (· < ·) := by
  unfold firstGenerations
  rw [List.pairwise_map]
  exact (List.pairwise_lt_range' 1 Nat.one_pos).imp fun h => Int.ofNat_lt.mpr h

section Events

variable {id : WorkspaceId} {e : Event} {events record : List Event}

theorem generations_append : generationsOf id (events ++ record) = generationsOf id events ++ generationsOf id record :=
  List.filterMap_append

theorem generations_cons_admitted {task : TaskId} {request : CompileRequest} :
    generationsOf id (.admitted task id request :: events) = request.generation :: generationsOf id events := by
  unfold generationsOf
  rw [List.filterMap_cons, Event.generation?, if_pos rfl]

theorem workspace?_of_generation? (h : e.generation? id ≠ none) : e.workspace? = some id := by
  cases e with
  | admitted task id' request =>
      by_cases hid : id' = id
      · rw [hid]
        rfl
      · exact absurd (if_neg hid) h
  | _ => exact absurd rfl h

theorem generations_eq_nil (h : ∀ e ∈ events, e.workspace? ≠ some id) : generationsOf id events = [] := by
  refine List.filterMap_eq_nil_iff.mpr fun e hm => ?_
  by_contra hg
  exact h e hm (workspace?_of_generation? hg)

theorem generations_of_publications (h : ∀ e ∈ events, IsPublication e) : generationsOf id events = [] := by
  refine generations_eq_nil fun e hm => ?_
  rw [Workspace.workspace?_of_isPublication (h e hm)]
  exact (Option.some_ne_none id).symm

theorem mem_generations {task : TaskId} {request : CompileRequest} (h : .admitted task id request ∈ events) :
    request.generation ∈ generationsOf id events :=
  List.mem_filterMap.mpr ⟨_, h, if_pos rfl⟩

end Events

/-! ## Requests are numbered as they are admitted -/

namespace Workspace

variable {s : ServerState} {id : WorkspaceId} {w w' : Workspace} {lists : List (String × List Diagnostic)}
  {events record : List Event}

/-- A turn admits a request with the next generation, or leaves the count alone. -/
theorem Turn.generations_eq (h : w.Turn s id w' lists record) :
    firstGenerations w'.scheduler.latest = firstGenerations w.scheduler.latest ++ generationsOf id record := by
  cases h with
  | admits task =>
      rw [generations_cons_admitted]
      exact firstGenerations_succ _
  | accepts request =>
      rw [Scheduler.accept_snd]
      split <;> exact (List.append_nil _).symm
  | _ => exact (List.append_nil _).symm

theorem Passes.generations_eq (h : w.Passes s id w' record) :
    firstGenerations w'.scheduler.latest = firstGenerations w.scheduler.latest ++ generationsOf id record := by
  cases h with
  | rests hr => rw [generations_eq_nil hr, List.append_nil]
  | dismisses => exact (List.append_nil _).symm
  | removes hp =>
      rw [generations_append, generations_of_publications hp]
      exact (List.append_nil _).symm
  | turns hp ht => rw [generations_append, generations_of_publications hp, List.nil_append, ht.generations_eq]

end Workspace

namespace ServerState

variable {s s' : ServerState}

/-- For every workspace as many requests are on record as it counts, one generation after the other. -/
def Consecutive (s : ServerState) : Prop :=
  ∀ id, generationsOf id s.events = firstGenerations (Compilation.schedulerOf s id).latest

theorem schedulerOf_of_get? {id : WorkspaceId} {w : Workspace} (hw : s.workspaces[id]? = some w) :
    Compilation.schedulerOf s id = w.scheduler := by
  rw [Compilation.schedulerOf, hw]
  rfl

theorem latest_of_not_known {id : WorkspaceId} (hk : ¬id < s.workspaces.length) :
    (Compilation.schedulerOf s id).latest = 0 := by
  rw [Compilation.schedulerOf, List.getElem?_eq_none (Nat.le_of_not_lt hk)]
  rfl

/-- A workspace that comes with a step has no requests yet. -/
theorem Change.latest_of_not_known (h : Change s s') {id : WorkspaceId} (hk : ¬id < s.workspaces.length) :
    (Compilation.schedulerOf s' id).latest = 0 := by
  cases hw : s'.workspaces[id]? with
  | none => exact ServerState.latest_of_not_known (Nat.not_lt.mpr (List.getElem?_eq_none_iff.mp hw))
  | some w =>
      obtain ⟨folder, hf⟩ := h.comes hk hw
      obtain ⟨root, _, rfl⟩ := Workspace.eq_of_ofFolder hf
      rw [schedulerOf_of_get? hw]

theorem Consecutive.change (hc : s.Consecutive) (h : Change s s') : s'.Consecutive := by
  intro id
  by_cases hk : id < s.workspaces.length
  · have hw := List.getElem?_eq_getElem hk
    obtain ⟨w', record, hw', he, hp⟩ := h.passes hw
    rw [he, generations_append, hc id, schedulerOf_of_get? hw, schedulerOf_of_get? hw', hp.generations_eq]
  · obtain ⟨record, he⟩ := h.later.events
    have hnone : ∀ e ∈ record, e.workspace? ≠ some id := by
      intro e hm hid
      obtain ⟨w, hw⟩ := h.known_of_mem he.symm hm hid
      exact hk (List.getElem?_eq_some_iff.mp hw).1
    rw [← he, generations_append, hc id, generations_eq_nil hnone, List.append_nil,
      ServerState.latest_of_not_known hk, h.latest_of_not_known hk]

theorem Steps.consecutive {allowed : Foreign → Prop} (h : Steps allowed s s') (hs : s.Sound)
    (hc : s.Consecutive) : s'.Consecutive :=
  (h.keeps hs hc (fun _ _ _ h hc => hc.change h) fun _ _ _ _ hc => hc).2

end ServerState

/-! ## Runs -/

namespace Server

variable {s : ServerState}

theorem IsFresh.consecutive (h : IsFresh s) : s.Consecutive := by
  intro id
  rw [h.events, ServerState.latest_of_not_known (by rw [h.workspaces]; exact Nat.not_lt_zero id)]
  rfl

/-- However a run goes, the generation of a request lies between those of the requests of the workspace that are
admitted before it and after it. -/
theorem generation_of_admitted (hs : IsFresh s) {moves : List (Session.Move External)} {id : WorkspaceId}
    {task : TaskId} {r : CompileRequest} {before after : List Event}
    (he : (run s moves).state.events = before ++ .admitted task id r :: after) :
    (∀ task' r', .admitted task' id r' ∈ before → r'.generation < r.generation) ∧
      ∀ task' r', .admitted task' id r' ∈ after → r.generation < r'.generation := by
  have hsteps : Steps (fun _ => True) s (run s moves).state := steps_run hs fun _ _ => allows_all
  have hsorted := hsteps.consecutive hs.sound hs.consecutive id ▸ pairwise_firstGenerations _
  rw [he, generations_append, generations_cons_admitted, List.pairwise_append, List.pairwise_cons] at hsorted
  obtain ⟨_, ⟨hafter, _⟩, hbefore⟩ := hsorted
  exact ⟨fun _ r' hm => hbefore r'.generation (mem_generations hm) r.generation List.mem_cons_self,
    fun _ r' hm => hafter r'.generation (mem_generations hm)⟩

/-- A trigger gets a smaller generation than one that arrives later exactly if it is not passed by it: the later one is
not admitted while the first, after all that was on record when it arrived, is still on its way. -/
theorem admitted_in_order_iff_not_passed (hs : IsFresh s) {moves : List (Session.Move External)} {id : WorkspaceId}
    {first later : TaskId} {r₁ r₂ : CompileRequest} {before during after : List Event}
    (he : (run s moves).state.events = before ++ (during ++ .admitted first id r₁ :: after))
    (hm : .admitted later id r₂ ∈ during ++ after) :
    r₁.generation < r₂.generation ↔ .admitted later id r₂ ∉ during := by
  rw [← List.append_assoc] at he
  obtain ⟨hbefore, hafter⟩ := generation_of_admitted hs he
  constructor
  · intro hlt hpassed
    have hgt := hbefore later r₂ (List.mem_append_right before hpassed)
    omega
  · intro hnot
    exact hafter later r₂ ((List.mem_append.mp hm).resolve_left hnot)

/-! ## Two triggers of which one waits -/

/-- A server whose client has settings for each document. -/
def configured : ServerState :=
  { sample [] with settings := { source := .answers { entries := [("*", .object [])] }, isCapable := true } }

theorem isFresh_configured : IsFresh configured := ⟨rfl, rfl, rfl, rfl, rfl⟩

/-- Another story of the sample. -/
def otherDocument (version : Int) (text : String) : OpenDocument := ⟨"file:///p/b.ink", version, text⟩

/-- As many turns as a small run needs to come to rest. -/
def settling : List (Session.Move External) := List.replicate 8 .turn

/-- A folder is added whose story is edited. -/
def storyEdited : List (Session.Move External) :=
  .outside (.asks (.add ⟨"file:///p", ""⟩)) :: settling ++
    .outside (.asks (.edit (sampleDocument 1 "One."))) :: settling

/-- Settings are slow to come, another story is edited, and then the first one again. -/
def otherWaits : List (Session.Move External) :=
  storyEdited ++ .closes "settings" :: .outside (.asks (.edit (otherDocument 1 "First."))) :: settling ++
    .outside (.asks (.edit (sampleDocument 2 "Second."))) :: settling ++ .passes 4 .go :: settling

/-- Whether an event is that a task takes in a text. -/
def isReceipt (task : TaskId) : Event → Bool
  | .received task' _ => task' = task
  | _ => false

theorem isReceipt_iff {task : TaskId} {e : Event} : isReceipt task e ↔ ∃ document, e = .received task document := by
  cases e <;> simp [isReceipt]

/-- Whether an event is that a task is admitted as a compile of the workspace of the sample. -/
def isAdmission (task : TaskId) : Event → Bool
  | .admitted task' id _ => task' = task && id = 0
  | _ => false

theorem isAdmission_iff {task : TaskId} {e : Event} : isAdmission task e ↔ ∃ request, e = .admitted task 0 request := by
  cases e <;> simp [isAdmission]

/-- The edit of which nothing is slow is admitted before the one that waits. -/
theorem first_edit_is_admitted_in_order :
    ∃ r₁ r₂, .admitted 1 0 r₁ ∈ (run configured otherWaits).state.events ∧
      .admitted 3 0 r₂ ∈ (run configured otherWaits).state.events ∧ r₁.generation < r₂.generation := by
  have hrun : (run configured otherWaits).state.events.any (isAdmission 1) ∧
      ((((run configured otherWaits).state.events.dropWhile fun e => !isAdmission 1 e).drop 1).any
        (isAdmission 3)) ∧
      !((run configured otherWaits).state.events.takeWhile fun e => !isAdmission 1 e).any (isAdmission 3) := by
    decide +kernel
  obtain ⟨hfirst, hlater, hnot⟩ := hrun
  obtain ⟨_, _, after, he₁, he₂, hevents⟩ := exists_between hfirst hlater
  obtain ⟨r₁, rfl⟩ := isAdmission_iff.mp he₁
  obtain ⟨r₂, rfl⟩ := isAdmission_iff.mp he₂
  have hr₂ : Event.admitted 3 0 r₂ ∈ between (isAdmission 1) (isAdmission 3) (run configured otherWaits).state.events ++
      .admitted 3 0 r₂ :: after := List.mem_append_right _ List.mem_cons_self
  rw [Bool.not_eq_true', List.any_eq_false] at hnot
  refine ⟨r₁, r₂, ?_, ?_, ?_⟩
  · rw [hevents]
    exact List.mem_append_right _ List.mem_cons_self
  · rw [hevents]
    exact List.mem_append_right _ (List.mem_cons_of_mem _ hr₂)
  · refine (admitted_in_order_iff_not_passed isFresh_configured (hevents.trans (List.nil_append _).symm)
      (List.mem_append_right _ hr₂)).mpr fun hm => ?_
    exact hnot _ hm (isAdmission_iff.mpr ⟨r₂, rfl⟩)

/-- An edit whose settings are slow to come is passed by one that arrives after it: the later one is received and
admitted meanwhile, and it is the earlier one whose request is the latest in the end. -/
theorem waiting_edit_is_passed :
    ∃ before during after document document' r₁ r₂, (run configured otherWaits).state.events =
        before ++ .received 3 document :: (during ++ .admitted 3 0 r₁ :: after) ∧
      .received 5 document' ∈ during ∧ .admitted 5 0 r₂ ∈ during ∧ r₂.generation < r₁.generation := by
  have hrun : (run configured otherWaits).state.events.any (isReceipt 3) ∧
      (((run configured otherWaits).state.events.dropWhile fun e => !isReceipt 3 e).drop 1).any (isAdmission 3) ∧
      (between (isReceipt 3) (isAdmission 3) (run configured otherWaits).state.events).any (isReceipt 5) ∧
      (between (isReceipt 3) (isAdmission 3) (run configured otherWaits).state.events).any (isAdmission 5) := by
    decide +kernel
  obtain ⟨hreceived, hadmitted, hother, hpasses⟩ := hrun
  obtain ⟨_, _, after, he₁, he₂, hevents⟩ := exists_between hreceived hadmitted
  obtain ⟨document, rfl⟩ := isReceipt_iff.mp he₁
  obtain ⟨r₁, rfl⟩ := isAdmission_iff.mp he₂
  obtain ⟨_, hm, he⟩ := List.any_eq_true.mp hother
  obtain ⟨document', rfl⟩ := isReceipt_iff.mp he
  obtain ⟨_, hm', he'⟩ := List.any_eq_true.mp hpasses
  obtain ⟨r₂, rfl⟩ := isAdmission_iff.mp he'
  refine ⟨_, _, after, document, document', r₁, r₂, hevents, hm, hm', ?_⟩
  rw [← List.cons_append, ← List.append_assoc] at hevents
  obtain ⟨hbefore, _⟩ := generation_of_admitted isFresh_configured hevents
  exact hbefore 5 r₂ (List.mem_append_right _ (List.mem_cons_of_mem _ hm'))

end Server

end InkServer
