import InkServer.Proofs.Workspace.Custodians

/-!
# How the registry looks after mirrors

Everything that the registry of workspaces is asked to do, followed step by step up to its next wait. Besides
initializations, only removals and the shutdown are ever in charge of a mirror: of one that they delete.
-/

namespace InkServer

open ServerState ServerAct

variable {τ υ α β : Type} {B : List Duty → ServerState → Prop} {l₀ l : Loop ServerState Operation}
  {others held : List Duty} {charge : τ → Duty} {charge' : υ → Duty} {id : WorkspaceId} {m : Mirror}

/-! ## Acts -/

/-- Something that leaves these charges, and what comes after it. -/
theorem minding_after {a : ServerAct β} {f : β → ServerAct (Step τ α)} (h : Minds B l₀ held (a.leaves l))
    (hf : ∀ x l', Minds B l₀ held l' → Minding B l₀ others charge (f x) l') :
    Minding B l₀ others charge (a >>= f) l := by
  have hafter := hf (a.returns l) _ h
  unfold Minding at hafter ⊢
  rwa [Act.reaches_bind]

theorem minds_afterwards {part : ServerAct (Step υ β)} {wrap : υ → τ} {next : Except Failure β → ServerAct (Step τ α)}
    (h : Minds B l₀ held (part.leaves l)) (hn : ∀ r l', Minds B l₀ held l' → Minds B l₀ held ((next r).leaves l')) :
    Minds B l₀ held ((Act.afterwards part wrap next).leaves l) := by
  unfold Act.afterwards
  rw [Act.leaves_bind]
  split
  · exact h
  · exact hn _ _ h

theorem minding_self {f : TaskId → ServerAct (Step τ α)} :
    Minding B l₀ others charge (Act.self >>= f) l ↔ Minding B l₀ others charge (f l.current) l := by
  unfold Minding
  exact Iff.rfl

/-! ## Folders -/

namespace JointInitialization

theorem minds_register (folder : Folder) (h : Minds B l₀ held l) : Minds B l₀ held ((register folder).leaves l) := by
  unfold register
  rw [Act.leaves_bind, Act.returns_state, Act.leaves_state]
  split
  · exact h
  · rename_i hr
    split
    · exact h
    · rename_i w hf
      exact h.moved (h.keeping.registers h.tally hf hr)

theorem minds_registerAll (folders : List Folder) (h : Minds B l₀ held l) :
    Minds B l₀ held ((registerAll folders).leaves l) := by
  induction folders generalizing l with
  | nil => exact h
  | cons folder rest ih =>
      unfold registerAll
      rw [Act.leaves_bind]
      split
      · exact minds_register folder h
      · exact ih (minds_register folder h)

theorem minds_start (folders : List Folder) (h : Minds B l₀ held l) : Minds B l₀ held ((start folders).leaves l) := by
  unfold start
  rw [Act.leaves_bind]
  split
  · exact minds_registerAll folders h
  · refine (minds_registerAll folders h).standsBy ?_
    rw [Act.leaves_bind]
    refine StandingBy.gather (fun o ho => ?_) fun l' => ?_
    · obtain ⟨_, _, rfl⟩ := List.mem_map.mp ho
      rfl
    · exact StandingBy.bind (standingBy_state.mpr (standingBy_pure _)) fun _ _ => standingBy_pure _

theorem standingBy_resume (state : JointInitialization) (signal : Signal) : StandingBy (resume state signal) l := by
  unfold resume
  split
  · exact StandingBy.bind (standingBy_state.mpr (standingBy_pure _)) fun _ _ => standingBy_pure _
  · exact standingBy_pure _
  · exact standingBy_pure _

end JointInitialization

namespace Locating

theorem standingBy_look (path : Path) : StandingBy (look path : ServerAct (Step Locating WorkspaceId)) l := by
  unfold look
  rw [standingBy_state]
  split <;> exact standingBy_pure _

theorem minds_afterRestoring (path : Path) {part : ServerAct (Step JointInitialization (Dict String Bool))}
    (h : Minds B l₀ held (part.leaves l)) : Minds B l₀ held ((afterRestoring path part).leaves l) := by
  refine minds_afterwards h fun r l' h => ?_
  cases r with
  | ok _ => exact h.standsBy (standingBy_look path)
  | error _ => exact h

theorem minds_start (path : Path) (h : Minds B l₀ held l) : Minds B l₀ held ((start path).leaves l) := by
  unfold start
  rw [Act.leaves_bind, Act.returns_state, Act.leaves_state]
  split
  · exact h
  · split
    · exact h
    · exact h.standsBy (standingBy_look path)
    · exact minds_afterRestoring path (JointInitialization.minds_start _ h)

theorem minds_resume (state : Locating) (signal : Signal) (h : Minds B l₀ held l) :
    Minds B l₀ held ((resume state signal).leaves l) :=
  minds_afterRestoring _ (h.standsBy (JointInitialization.standingBy_resume _ signal))

end Locating

/-- A workspace that was missed or whose mirror is pending is initialized. -/
theorem minding_ensureReady (id : WorkspaceId) (h : Minds B l₀ others l) :
    Minding B l₀ others Initialization.charges (ensureReady id) l := by
  refine minding_withWorkspace (fun _ => minding_ends h) fun w _ => ?_
  split
  · exact minding_ends h
  · exact Initialization.minding_start h
  · split
    · exact minding_ends h
    · refine minding_bind (standingBy_onDisk (.of_looks (Mirror.looks_isThere _))) h fun there l₁ h => ?_
      split
      · exact minding_ends h
      · exact minding_ends h
      · refine minding_bind (standingBy_note _) h fun _ l₂ h => ?_
        refine minding_bind (standingBy_updateWorkspace fun _ _ => ⟨rfl, rfl, fun _ => Lifecycle.noConfusion⟩) h
          fun _ l₃ h => ?_
        exact Initialization.minding_start h

/-! ## Documents -/

namespace Applying

/-- What a document that waits to be taken in is in charge of. -/
def charges : Applying → List Charge
  | .preparing _ _ _ state => state.charges
  | .locating _ _ | .writing _ _ => []

theorem minding_afterWriting {part : ServerAct (Step DocumentWrite MirrorEntry)} (hp : StandingBy part l)
    (h : Minds B l₀ others l) : Minding B l₀ others charges (afterWriting id part) l := by
  refine minding_afterwards (h.standsBy hp) (fun _ => rfl) fun r l₁ h => ?_
  split
  · rw [minding_self]
    exact minding_bind (standingBy_note _) h fun _ _ h => minding_ends h
  · exact minding_bind (standingBy_tell _) h fun _ _ h => minding_ends h
  · exact minding_ends h

theorem minding_afterPreparing (document : OpenDocument) (path : Path)
    {part : ServerAct (Step Initialization Bool)} (h : Minding B l₀ others Initialization.charges part l) :
    Minding B l₀ others charges (afterPreparing document path id part) l := by
  refine h.andThen (fun _ => rfl) fun ready l₁ h => ?_
  split
  · exact minding_ends h
  · rw [minding_workspace?]
    split
    · exact minding_ends h
    · exact minding_afterWriting (DocumentWrite.standingBy_start _ _) h

theorem minding_afterLocating (document : OpenDocument) (path : Path) {part : ServerAct (Step Locating WorkspaceId)}
    (h : Minds B l₀ others (part.leaves l)) : Minding B l₀ others charges (afterLocating document path part) l := by
  refine minding_afterwards h (fun _ => rfl) fun r l₁ h => ?_
  split
  · exact minding_afterPreparing document path (minding_ensureReady _ h)
  · exact minding_bind (standingBy_tell _) h fun _ _ h => minding_ends h
  · exact minding_ends h

theorem minding_start (document : OpenDocument) (h : Minds B l₀ others l) :
    Minding B l₀ others charges (start document) l := by
  unfold start
  rw [minding_self]
  refine minding_bind (standingBy_note _) h fun _ l₁ h => ?_
  rw [minding_state]
  split
  · exact minding_ends h
  · split
    · exact minding_ends h
    · refine minding_bind (.aside rfl rfl rfl rfl rfl rfl) h fun _ l₂ h => ?_
      split
      · exact minding_afterLocating document _ (Locating.minds_start _ h)
      · exact minding_ends h

theorem minding_resume (state : Applying) (signal : Signal) (h : Minds B l₀ (state.charges :: others) l) :
    Minding B l₀ others charges (resume state signal) l := by
  cases state with
  | locating document state =>
      exact minding_afterLocating document _ (Locating.minds_resume state signal (Minds.idle_iff.mp h))
  | preparing document path id state =>
      exact minding_afterPreparing document path (Initialization.minding_resume state signal h)
  | writing id state =>
      exact minding_afterWriting (DocumentWrite.standingBy_resume state signal) (Minds.idle_iff.mp h)

end Applying

/-! ## Compiles -/

namespace Compilation

/-- What a compile that waits is in charge of. -/
def charges : Compilation → List Charge
  | .preparing _ state => state.charges
  | .running _ _ _ => []

theorem minding_afterRunning (job : CompileJob) (request : CompileRequest)
    {part : ServerAct (Step (Scheduler.Run Invocation) (Scheduler.Conclusion CompilerReport Nat))}
    (hp : StandingBy part l) (h : Minds B l₀ others l) :
    Minding B l₀ others charges (afterRunning job request part) l := by
  refine minding_afterwards (h.standsBy hp) (fun _ => rfl) fun r l₁ h => ?_
  cases r <;> exact minding_ends h

theorem minding_afterPreparing (job : CompileJob) {part : ServerAct (Step Initialization Bool)}
    (h : Minding B l₀ others Initialization.charges part l) :
    Minding B l₀ others charges (afterPreparing job part) l := by
  refine h.andThen (fun _ => rfl) fun ready l₁ h => ?_
  split
  · refine minding_withWorkspace (fun _ => minding_ends h) fun _ _ => ?_
    refine minding_bind (standingBy_admission job) h fun request l₂ h => ?_
    exact minding_afterRunning job request (standingBy_run job request) h
  · rw [minding_state]
    exact minding_ends h

theorem minding_start (id : WorkspaceId) (settings : Settings) (entry : Option Path) (h : Minds B l₀ others l) :
    Minding B l₀ others charges (start id settings entry) l := by
  unfold start
  split
  · exact minding_ends h
  · exact minding_afterPreparing _ (minding_ensureReady id h)

theorem minding_resume (state : Compilation) (signal : Signal) (h : Minds B l₀ (state.charges :: others) l) :
    Minding B l₀ others charges (resume state signal) l := by
  cases state with
  | preparing job state => exact minding_afterPreparing job (Initialization.minding_resume state signal h)
  | running job request state =>
      exact minding_afterRunning job request (standingBy_resumeRun job state signal) (Minds.idle_iff.mp h)

end Compilation

/-! ## Edits -/

namespace Edit

/-- What an edit that waits is in charge of. -/
def charges : Edit → List Charge
  | .applying _ state => state.charges
  | .configuring _ _ => []
  | .compiling state => state.charges

theorem minding_afterCompiling {part : ServerAct (Step Compilation CompileSummary)}
    (h : Minding B l₀ others Compilation.charges part l) : Minding B l₀ others charges (afterCompiling part) l :=
  h.andThen (fun _ => rfl) fun _ _ h => minding_ends h

theorem minding_afterConfiguring {part : ServerAct (Step SettingsLookup Settings)} (hp : StandingBy part l)
    (h : Minds B l₀ others l) : Minding B l₀ others charges (afterConfiguring id part) l := by
  refine minding_afterwards (h.standsBy hp) (fun _ => rfl) fun r l₁ h => ?_
  cases r with
  | ok settings => exact minding_afterCompiling (Compilation.minding_start id settings none h)
  | error f => exact minding_ends h

theorem minding_afterApplying (document : OpenDocument) {part : ServerAct (Step Applying Applied)}
    (h : Minding B l₀ others Applying.charges part l) :
    Minding B l₀ others charges (afterApplying document part) l := by
  refine h.andThen (fun _ => rfl) fun a l₁ h => ?_
  split
  · exact minding_afterConfiguring (SettingsLookup.standingBy_start _) h
  · exact minding_ends h

theorem minding_start (document : OpenDocument) (h : Minds B l₀ others l) :
    Minding B l₀ others charges (start document) l :=
  minding_afterApplying document (Applying.minding_start document h)

theorem minding_resume (state : Edit) (signal : Signal) (h : Minds B l₀ (state.charges :: others) l) :
    Minding B l₀ others charges (resume state signal) l := by
  cases state with
  | applying document state => exact minding_afterApplying document (Applying.minding_resume state signal h)
  | configuring id state =>
      exact minding_afterConfiguring (SettingsLookup.standingBy_resume state signal) (Minds.idle_iff.mp h)
  | compiling state => exact minding_afterCompiling (Compilation.minding_resume state signal h)

end Edit

/-! ## Commands -/

namespace TargetCompile

/-- What the compile of a target that waits is in charge of. -/
def charges : TargetCompile → List Charge
  | .applying _ state => state.charges
  | .preparing _ _ state => state.charges
  | .compiling state => state.charges
  | .restoring _ | .choosing _ _ | .locating _ _ | .configuring _ _ _ => []

theorem minding_afterCompiling {part : ServerAct (Step Compilation CompileSummary)}
    (h : Minding B l₀ others Compilation.charges part l) : Minding B l₀ others charges (afterCompiling part) l :=
  h.andThen (fun _ => rfl) fun _ _ h => minding_ends h

theorem minding_afterConfiguring (entry : Option Path) {part : ServerAct (Step SettingsLookup Settings)}
    (hp : StandingBy part l) (h : Minds B l₀ others l) :
    Minding B l₀ others charges (afterConfiguring id entry part) l := by
  refine minding_afterwards (h.standsBy hp) (fun _ => rfl) fun r l₁ h => ?_
  cases r with
  | ok settings => exact minding_afterCompiling (Compilation.minding_start id settings entry h)
  | error f => exact minding_ends h

theorem minding_compile (uri : String) (id : WorkspaceId) (h : Minds B l₀ others l) :
    Minding B l₀ others charges (compile uri id) l := by
  unfold compile
  split
  · exact minding_ends h
  · rw [minding_workspace?]
    exact minding_afterConfiguring _ (SettingsLookup.standingBy_start uri) h

theorem minding_afterPreparing (uri : String) {part : ServerAct (Step Initialization Bool)}
    (h : Minding B l₀ others Initialization.charges part l) :
    Minding B l₀ others charges (afterPreparing uri id part) l := by
  refine h.andThen (fun _ => rfl) fun ready l₁ h => ?_
  split
  · exact minding_compile uri id h
  · exact minding_bind (standingBy_tell _) h fun _ _ h => minding_ends h

theorem minding_afterLocating (uri : String) {part : ServerAct (Step Locating WorkspaceId)}
    (h : Minds B l₀ others (part.leaves l)) : Minding B l₀ others charges (afterLocating uri part) l := by
  refine minding_afterwards h (fun _ => rfl) fun r l₁ h => ?_
  split
  · exact minding_afterPreparing uri (minding_ensureReady _ h)
  · exact minding_bind (standingBy_tell _) h fun _ _ h => minding_ends h
  · exact minding_ends h

theorem minding_afterApplying (uri : String) {part : ServerAct (Step Applying Applied)}
    (h : Minding B l₀ others Applying.charges part l) : Minding B l₀ others charges (afterApplying uri part) l := by
  refine h.andThen (fun _ => rfl) fun a l₁ h => ?_
  split
  · exact minding_compile uri _ h
  · exact minding_ends h

theorem minding_compileTarget (target : DocumentTarget) (h : Minds B l₀ others l) :
    Minding B l₀ others charges (compileTarget target) l := by
  unfold compileTarget
  split
  · exact minding_afterApplying _ (Applying.minding_start _ h)
  · split
    · exact minding_ends h
    · exact minding_afterLocating _ (Locating.minds_start _ h)

theorem minding_afterChoosing {part : ServerAct (Step SettingsLookup Settings)} (hp : StandingBy part l)
    (h : Minds B l₀ others l) : Minding B l₀ others charges (afterChoosing id part) l := by
  refine minding_afterwards (h.standsBy hp) (fun _ => rfl) fun r l₁ h => ?_
  cases r with
  | error f => exact minding_ends h
  | ok settings =>
      dsimp only
      split
      · exact minding_ends h
      · rw [minding_workspace?, minding_state]
        split
        · exact minding_ends h
        · exact minding_compileTarget _ h

theorem minding_compileFirst (h : Minds B l₀ others l) : Minding B l₀ others charges compileFirst l := by
  unfold compileFirst
  rw [minding_state]
  split
  · exact minding_bind (standingBy_tell _) h fun _ _ h => minding_ends h
  · exact minding_afterChoosing (SettingsLookup.standingBy_start _) h

theorem minding_afterRestoring {part : ServerAct (Step JointInitialization (Dict String Bool))}
    (h : Minds B l₀ others (part.leaves l)) : Minding B l₀ others charges (afterRestoring part) l := by
  refine minding_afterwards h (fun _ => rfl) fun r l₁ h => ?_
  cases r with
  | ok _ => exact minding_compileFirst h
  | error f => exact minding_ends h

theorem minding_start (target : Option DocumentTarget) (h : Minds B l₀ others l) :
    Minding B l₀ others charges (start target) l := by
  unfold start
  split
  · exact minding_compileTarget _ h
  · rw [minding_state]
    split
    · split
      · exact minding_ends h
      · exact minding_compileFirst h
      · exact minding_afterRestoring (JointInitialization.minds_start _ h)
    · exact minding_compileFirst h

theorem minding_resume (state : TargetCompile) (signal : Signal) (h : Minds B l₀ (state.charges :: others) l) :
    Minding B l₀ others charges (resume state signal) l := by
  cases state with
  | restoring state =>
      have hidle := Minds.idle_iff.mp h
      exact minding_afterRestoring (hidle.standsBy (JointInitialization.standingBy_resume state signal))
  | choosing id state =>
      exact minding_afterChoosing (SettingsLookup.standingBy_resume state signal) (Minds.idle_iff.mp h)
  | applying uri state => exact minding_afterApplying uri (Applying.minding_resume state signal h)
  | locating uri state => exact minding_afterLocating uri (Locating.minds_resume state signal (Minds.idle_iff.mp h))
  | preparing uri id state => exact minding_afterPreparing uri (Initialization.minding_resume state signal h)
  | configuring id entry state =>
      exact minding_afterConfiguring entry (SettingsLookup.standingBy_resume state signal) (Minds.idle_iff.mp h)
  | compiling state => exact minding_afterCompiling (Compilation.minding_resume state signal h)

end TargetCompile

/-! ## Removals -/

theorem minding_unregister {uri : String} {f : Option WorkspaceId → ServerAct (Step τ α)} :
    Minding B l₀ others charge (Removal.unregister uri >>= f) l ↔
      Minding B l₀ others charge (f (l.state.registered.get? uri))
        { l with state := { l.state with registered := l.state.registered.erase uri } } := by
  unfold Minding
  exact Iff.rfl

/-- A workspace that is taken out hands its mirror over. -/
theorem minding_takeOut {uri : String} {g : Workspace → Workspace} {f : WorkspaceId → ServerAct (Step τ α)}
    {absent : ServerAct (Step τ α)} (hg : ∀ w, (g w).uri = w.uri ∧ (g w).mirror = w.mirror) (h : Minds B l₀ others l)
    (ha : Minding B l₀ others charge absent l)
    (hf : ∀ id l', Minds B l₀ ((l'.state.workspaces[id]?.bind (·.mirror)).toList.map (.leaving id) ++ others) l' →
      Minding B l₀ others charge (f id) l') :
    Minding B l₀ others charge (do
      match ← Removal.unregister uri with
      | none => absent
      | some id =>
        updateWorkspace id g
        f id) l := by
  rw [minding_unregister]
  cases hr : l.state.registered.get? uri with
  | none =>
      rw [Dict.erase_of_get?_eq_none hr]
      exact ha
  | some id =>
      dsimp only
      rw [minding_updateWorkspace]
      refine hf id _ ?_
      have hmirror : ((l.state.workspaces.modify id g)[id]?.bind (·.mirror)) =
          l.state.workspaces[id]?.bind (·.mirror) := by
        rw [List.getElem?_modify_eq]
        cases l.state.workspaces[id]? with
        | none => rfl
        | some w => exact (hg w).2
      have hremoved := h.moved (h.keeping.removes h.tally hr hg)
      rw [← hmirror] at hremoved
      exact hremoved

namespace Removal

/-- What a removal that waits is in charge of. -/
def charges (state : Removal) : List Charge := [.leaving state.id state.mirror]

theorem minds_deleteMirror (h : Minds B l₀ (.leaving id m :: others) l) :
    Minds B l₀ others ((deleteMirror id m).leaves l) := by
  unfold deleteMirror
  rw [Act.leaves_bind, Initialization.leaves_delete]
  exact h.moved (h.keeping.drops h.tally)

theorem standingBy_clearAll (uris : List String) : StandingBy (clearAll uris) l :=
  .forM fun uri _ => standingBy_publish uri []

theorem minding_start (uri : String) (h : Minds B l₀ others l) : Minding B l₀ others charges (start uri) l := by
  refine minding_takeOut (fun w => ⟨rfl, rfl⟩) h (minding_ends h) fun id l₁ h => ?_
  refine minding_withWorkspace (fun hnone => ?_) fun w hw => ?_
  · rw [hnone] at h
    exact minding_ends h
  · rw [hw] at h
    refine minding_bind (standingBy_clearAll _) h fun _ l₂ h => ?_
    refine minding_bind (standingBy_updateWorkspace fun _ _ => ⟨rfl, rfl, fun hr => hr⟩) h fun _ l₃ h => ?_
    refine minding_bind (standingBy_note _) h fun _ l₄ h => ?_
    split
    · rename_i mirror hm
      rw [Option.bind_some, hm] at h
      exact minding_through h (minding_after (minds_deleteMirror h) fun _ _ h => minding_ends h)
    · rename_i hm
      rw [Option.bind_some, hm] at h
      exact minding_ends h

theorem minding_resume (state : Removal) (signal : Signal) (h : Minds B l₀ (state.charges :: others) l) :
    Minding B l₀ others charges (resume state signal) l := by
  cases signal with
  | go => exact minding_after (minds_deleteMirror h) fun _ _ h => minding_ends h
  | cancelled | timedOut | failed => exact minding_abrupt rfl h

end Removal

namespace Shutdown

/-- What a shutdown that waits is in charge of. -/
def charges (state : Shutdown) : List Charge := [.leaving state.id state.mirror]

theorem minding_removeAll (uris : List String) (h : Minds B l₀ others l) :
    Minding B l₀ others charges (removeAll uris) l := by
  induction uris generalizing l with
  | nil => exact minding_ends h
  | cons uri rest ih =>
      unfold removeAll
      refine minding_takeOut (fun w => ⟨rfl, rfl⟩) h (minding_ends h) fun id l₁ h => ?_
      rw [minding_workspace?]
      split
      · rename_i mirror hm
        rw [hm] at h
        have hdelete : Minding B l₀ others charges (do Removal.deleteMirror id mirror; removeAll rest) l₁ :=
          minding_after (Removal.minds_deleteMirror h) fun _ _ h => ih h
        have hthrough : Minding B l₀ others charges (Act.through "delete" ⟨id, mirror, rest⟩ do
            Removal.deleteMirror id mirror
            removeAll rest) l₁ := minding_through h hdelete
        exact hthrough
      · rename_i hm
        rw [hm] at h
        exact ih h

theorem minding_start (h : Minds B l₀ others l) : Minding B l₀ others charges start l := by
  unfold start
  rw [minding_state]
  exact minding_removeAll _ h

theorem minding_resume (state : Shutdown) (signal : Signal) (h : Minds B l₀ (state.charges :: others) l) :
    Minding B l₀ others charges (resume state signal) l := by
  cases signal with
  | go => exact minding_after (Removal.minds_deleteMirror h) fun _ _ h => minding_removeAll _ h
  | cancelled | timedOut | failed => exact minding_abrupt rfl h

end Shutdown

/-! ## Everything that the registry is asked to do -/

namespace Waiting

/-- Whether it is for the registry that an operation waits. -/
def isOfRegistry : Waiting → Bool
  | .fetching _ | .initializing _ | .initializingAll _ | .removing _ | .shuttingDown _ | .updating _ | .editing _
  | .copyingAll _ | .compiling _ | .compilingTarget _ => true
  | _ => false

/-- What an operation of the registry that waits is in charge of. -/
def charges : Waiting → List Charge
  | .initializing state => state.charges
  | .removing state => state.charges
  | .shuttingDown state => state.charges
  | .updating state => state.charges
  | .editing state => state.charges
  | .compiling state => state.charges
  | .compilingTarget state => state.charges
  | _ => []

theorem minding_ending {part : ServerAct (Step τ α)} {wrap : τ → Waiting} {f : α → Result}
    (h : Minding B l₀ others charge part l) (hc : ∀ state, (wrap state).charges = charge state) :
    Minding B l₀ others charges (ending part wrap f) l :=
  h.andThen hc fun _ _ h => minding_ends h

/-- An operation that is in charge of nothing. -/
theorem minding_ending_of_leaves {part : ServerAct (Step τ α)} {wrap : τ → Waiting} {f : α → Result}
    (h : Minds B l₀ others (part.leaves l)) (hc : ∀ state, (wrap state).charges = []) :
    Minding B l₀ others charges (ending part wrap f) l := by
  have hpart : Minding B l₀ others (fun _ => []) part l := minding_of_leaves h fun _ => rfl
  exact minding_ending hpart hc

theorem minding_withLast {uri : String} {f : WorkspaceId → ServerAct (Step Waiting Result)} (h : Minds B l₀ others l)
    (hf : ∀ id, Minding B l₀ others charges (f id) l) : Minding B l₀ others charges (withLast uri f) l := by
  unfold withLast
  rw [minding_state]
  split
  · exact hf _
  · exact minding_ends h

theorem minding_begin {operation : Operation} (ho : operation.isOfRegistry) (h : Minds B l₀ others l) :
    Minding B l₀ others charges (begin operation) l := by
  cases operation with
  | fetchSettings uri =>
      exact minding_ending_of_leaves (h.standsBy (SettingsRequest.standingBy_start uri .go)) fun _ => rfl
  | add folder =>
      refine minding_after (JointInitialization.minds_register folder h) fun r l₁ h => ?_
      split
      · exact minding_ends h
      · exact minding_ending (Initialization.minding_start h) fun _ => rfl
  | initialize_ id => exact minding_ending (Initialization.minding_start h) fun _ => rfl
  | initializeLast uri =>
      exact minding_withLast h fun id => minding_ending (Initialization.minding_start h) fun _ => rfl
  | initializeAll folders => exact minding_ending_of_leaves (JointInitialization.minds_start folders h) fun _ => rfl
  | remove uri => exact minding_ending (Removal.minding_start uri h) fun _ => rfl
  | shutdown => exact minding_ending (Shutdown.minding_start h) fun _ => rfl
  | update document => exact minding_ending (Applying.minding_start document h) fun _ => rfl
  | edit document => exact minding_ending (Edit.minding_start document h) fun _ => rfl
  | copyAllCreated paths =>
      exact minding_ending_of_leaves (h.standsBy (CreatedFiles.standingBy_copyAll {} paths)) fun _ => rfl
  | compileTarget target => exact minding_ending (TargetCompile.minding_start target h) fun _ => rfl
  | compile uri settings entry =>
      exact minding_withLast h fun id => minding_ending (Compilation.minding_start id settings entry h) fun _ => rfl
  | _ => cases ho

theorem minding_start {operation : Operation} (ho : operation.isOfRegistry) (signal : Signal)
    (h : Minds B l₀ others l) : Minding B l₀ others charges (start operation signal) l := by
  unfold start
  split
  · exact minding_begin ho h
  · exact minding_ending_of_leaves (h.standsBy (SettingsRequest.standingBy_start _ _)) fun _ => rfl
  · exact minding_ends h

theorem minding_resume {state : Waiting} (hs : state.isOfRegistry) (signal : Signal)
    (h : Minds B l₀ (state.charges :: others) l) : Minding B l₀ others charges (resume state signal) l := by
  cases state with
  | fetching state =>
      have hidle := Minds.idle_iff.mp h
      exact minding_ending_of_leaves (hidle.standsBy (SettingsRequest.standingBy_resume state signal)) fun _ => rfl
  | initializing state => exact minding_ending (Initialization.minding_resume state signal h) fun _ => rfl
  | initializingAll state =>
      have hidle := Minds.idle_iff.mp h
      exact minding_ending_of_leaves (hidle.standsBy (JointInitialization.standingBy_resume state signal)) fun _ => rfl
  | removing state => exact minding_ending (Removal.minding_resume state signal h) fun _ => rfl
  | shuttingDown state => exact minding_ending (Shutdown.minding_resume state signal h) fun _ => rfl
  | updating state => exact minding_ending (Applying.minding_resume state signal h) fun _ => rfl
  | editing state => exact minding_ending (Edit.minding_resume state signal h) fun _ => rfl
  | copyingAll state =>
      have hidle := Minds.idle_iff.mp h
      exact minding_ending_of_leaves (hidle.standsBy (CreatedFiles.standingBy_resume state signal)) fun _ => rfl
  | compiling state => exact minding_ending (Compilation.minding_resume state signal h) fun _ => rfl
  | compilingTarget state => exact minding_ending (TargetCompile.minding_resume state signal h) fun _ => rfl
  | _ => cases hs

end Waiting

end InkServer
