import InkServer.Proofs.Workspace.Within
import Mathlib.Data.List.MinMax

/-!
# Which workspace a path belongs to

A path is looked for in the workspaces that contain it, and the one whose root is written with the most names
is taken. Those roots lie one below the other, so that it is the innermost one if its root and theirs are
written with as many names as they have. A root that is written with detours can be taken for a deeper one.
-/

namespace InkServer

namespace Path

variable {p q r root inner outer : Path}

/-- A path that is written with as many parts as its normal form has, such as one without `..` from the top. -/
def IsWrittenOut (p : Path) : Prop := p.parts.length = p.normalized.parts.length

theorem isWrittenOut_of_noUp (habsolute : p.isAbsolute) (hup : ".." ∉ p.segments) : p.IsWrittenOut := by
  have hp : p.absolute = p := if_pos habsolute
  have hresolve : resolve p.segments = p.segments := by
    simpa [resolve] using resolve_append hup []
  have hnormal : p.normalized = p := by
    apply eq_of_segments
    · rw [start_normalized, hp]
    · rw [segments_normalized, hresolve]
  rw [IsWrittenOut, hnormal]

/-! ## Roots above a path -/

theorem isInside_iff_segments : p.isInside root = true ↔ p.normalized.start = root.normalized.start ∧
    ∃ names, names ≠ [] ∧ p.normalized.segments = root.normalized.segments ++ names := by
  rw [isInside_iff]
  constructor
  · rintro ⟨relative, h⟩
    obtain ⟨hstart, hsegments, -, hne⟩ := relativeTo?_eq_some_iff.mp h
    exact ⟨hstart, relative.segments, hne, hsegments⟩
  · rintro ⟨hstart, names, hne, hsegments⟩
    have hvalid : ∀ s ∈ names, IsSegment s := fun s hs =>
      p.normalized.valid s (hsegments ▸ List.mem_append_right _ hs)
    exact ⟨⟨.relative, names, hvalid⟩, relativeTo?_eq_some_iff.mpr ⟨hstart, hsegments, rfl, hne⟩⟩

theorem start_normalized_ne (p : Path) : p.normalized.start ≠ .relative := by
  rw [start_normalized, absolute]
  split
  · rename_i h
    simpa [isAbsolute] using h
  · simp

theorem length_parts_normalized (p : Path) : p.normalized.parts.length = p.normalized.segments.length + 1 := by
  have habsolute : p.normalized.isAbsolute = true := by simpa [isAbsolute] using p.start_normalized_ne
  rw [parts, if_pos habsolute, List.length_cons]

/-- What lies inside has more parts, once both are normalized. -/
theorem length_parts_lt_of_isInside (h : inner.isInside outer = true) :
    outer.normalized.parts.length < inner.normalized.parts.length := by
  obtain ⟨-, names, hne, hsegments⟩ := isInside_iff_segments.mp h
  have hpos := List.length_pos_iff.mpr hne
  rw [length_parts_normalized, length_parts_normalized, hsegments, List.length_append]
  omega

/-- Two roots above the same path are the same place, or one lies inside the other. -/
theorem nested_of_isInside (hq : p.isInside q = true) (hr : p.isInside r = true) :
    q.normalized = r.normalized ∨ q.isInside r = true ∨ r.isInside q = true := by
  obtain ⟨hqstart, qnames, -, hqsegments⟩ := isInside_iff_segments.mp hq
  obtain ⟨hrstart, rnames, -, hrsegments⟩ := isInside_iff_segments.mp hr
  have hstart : q.normalized.start = r.normalized.start := hqstart.symm.trans hrstart
  rw [isInside_iff_segments, isInside_iff_segments]
  rcases List.append_eq_append_iff.mp (hqsegments.symm.trans hrsegments) with ⟨names, hr, -⟩ | ⟨names, hq, -⟩
  · cases names with
    | nil => exact .inl (eq_of_segments hstart (by rw [hr, List.append_nil]))
    | cons s rest => exact .inr (.inr ⟨hstart.symm, s :: rest, List.cons_ne_nil s rest, hr⟩)
  · cases names with
    | nil => exact .inl (eq_of_segments hstart (by rw [hq, List.append_nil]))
    | cons s rest => exact .inr (.inl ⟨hstart, s :: rest, List.cons_ne_nil s rest, hq⟩)

end Path

namespace ServerState

variable {s : ServerState} {p : Path} {id : WorkspaceId} {w : Workspace}

/-- The registered workspaces that contain a path. -/
def workspacesAround (s : ServerState) (p : Path) : List (WorkspaceId × Workspace) :=
  s.registeredWorkspaces.filter fun e => p.isInside e.2.root

theorem mem_workspacesAround {e : WorkspaceId × Workspace} :
    e ∈ s.workspacesAround p ↔ e ∈ s.registeredWorkspaces ∧ p.isInside e.2.root = true := List.mem_filter

/-- A workspace that contains a path, and no other one below it does. -/
structure IsInnermost (s : ServerState) (p : Path) (w : Workspace) : Prop where
  contains : p.isInside w.root = true
  least : ∀ e ∈ s.registeredWorkspaces, e.2.root.isInside w.root = true → p.isInside e.2.root = false

/-! ## The deepest as it is written -/

/-- The number of parts that the root of a workspace is written with. -/
def depth (e : WorkspaceId × Workspace) : Nat := e.2.root.parts.length

theorem findWorkspace_eq_argmax (s : ServerState) (p : Path) :
    s.findWorkspace p = ((s.workspacesAround p).argmax depth).map Prod.fst := by
  have hdeeper : deeper = List.argAux fun b c => depth c < depth b := by
    funext best candidate
    cases best <;> rfl
  rw [findWorkspace, hdeeper]
  rfl

/-- Nothing is found exactly if no workspace contains the path. -/
theorem findWorkspace_eq_none_iff :
    s.findWorkspace p = none ↔ ∀ e ∈ s.registeredWorkspaces, p.isInside e.2.root = false := by
  rw [findWorkspace_eq_argmax, Option.map_eq_none_iff, List.argmax_eq_none, workspacesAround, List.filter_eq_nil_iff]
  simp

/-- What is found contains the path, and no workspace that does is written deeper. -/
theorem exists_of_findWorkspace (h : s.findWorkspace p = some id) : ∃ w, (id, w) ∈ s.registeredWorkspaces ∧
    p.isInside w.root = true ∧
    ∀ e ∈ s.registeredWorkspaces, p.isInside e.2.root = true → e.2.root.parts.length ≤ w.root.parts.length := by
  rw [findWorkspace_eq_argmax] at h
  obtain ⟨⟨_, w⟩, hmax, rfl⟩ := Option.map_eq_some_iff.mp h
  obtain ⟨hmem, hinside⟩ := mem_workspacesAround.mp (List.argmax_mem hmax)
  refine ⟨w, hmem, hinside, fun e he hin => ?_⟩
  exact List.le_of_mem_argmax (f := depth) (mem_workspacesAround.mpr ⟨he, hin⟩) hmax

/-- A path belongs to no workspace exactly if none contains it. Else it belongs to one that does, and where the
roots that contain it are written out this is the innermost one: every other one is the same place or has it
inside. -/
theorem findWorkspace_innermost (s : ServerState) (p : Path) :
    (s.findWorkspace p = none ↔ ∀ e ∈ s.registeredWorkspaces, p.isInside e.2.root = false) ∧
    ∀ id, s.findWorkspace p = some id → ∃ w, (id, w) ∈ s.registeredWorkspaces ∧ p.isInside w.root = true ∧
      ((∀ e ∈ s.workspacesAround p, e.2.root.IsWrittenOut) → s.IsInnermost p w ∧
        ∀ e ∈ s.workspacesAround p, e.2.root.normalized = w.root.normalized ∨ w.root.isInside e.2.root = true) := by
  refine ⟨findWorkspace_eq_none_iff, fun id hfind => ?_⟩
  obtain ⟨w, hmem, hinside, hdeepest⟩ := exists_of_findWorkspace hfind
  refine ⟨w, hmem, hinside, fun hwritten => ?_⟩
  have hnot : ∀ e ∈ s.workspacesAround p, e.2.root.isInside w.root = false := by
    intro e he
    obtain ⟨hregistered, hin⟩ := mem_workspacesAround.mp he
    have hwide := hdeepest e hregistered hin
    rw [← Bool.not_eq_true]
    intro hbelow
    have hdeep := Path.length_parts_lt_of_isInside hbelow
    rw [← hwritten e he, ← hwritten (id, w) (mem_workspacesAround.mpr ⟨hmem, hinside⟩)] at hdeep
    exact absurd hwide (Nat.not_le.mpr hdeep)
  constructor
  · refine ⟨hinside, fun e he hbelow => ?_⟩
    rw [← Bool.not_eq_true]
    intro hin
    rw [hnot e (mem_workspacesAround.mpr ⟨he, hin⟩)] at hbelow
    cases hbelow
  · intro e he
    have hin := (mem_workspacesAround.mp he).2
    rcases Path.nested_of_isInside hin hinside with hsame | hbelow | habove
    · exact .inl hsame
    · rw [hnot e he] at hbelow
      cases hbelow
    · exact .inr habove

/-- What is registered of folders that the client opens. -/
def withFolders (folders : List Folder) : ServerState :=
  ((JointInitialization.registerAll folders).leaves { state := Server.sample [] }).state

/-- A folder in another one. -/
def nested : ServerState := withFolders [⟨"file:///p", "p"⟩, ⟨"file:///p/q", "q"⟩]

/-- A file of the folder within belongs to that folder, though the other one was registered first. -/
theorem folder_within_is_innermost :
    ∃ w, (1, w) ∈ nested.registeredWorkspaces ∧ nested.IsInnermost (.ofText "/p/q/a.ink") w := by
  have hfind : nested.findWorkspace (.ofText "/p/q/a.ink") = some 1 := by decide +kernel
  have hplain : ((nested.workspacesAround (.ofText "/p/q/a.ink")).all fun e =>
      e.2.root.isAbsolute && decide (".." ∉ e.2.root.segments)) = true := by decide +kernel
  obtain ⟨w, hmem, -, hinner⟩ := (findWorkspace_innermost nested _).2 1 hfind
  refine ⟨w, hmem, (hinner fun e he => ?_).1⟩
  obtain ⟨habsolute, hup⟩ := (Bool.and_eq_true _ _).mp (List.all_eq_true.mp hplain e he)
  exact Path.isWrittenOut_of_noUp habsolute (of_decide_eq_true hup)

/-! ## Detours -/

/-- A folder, and one above it that is written with a detour. -/
def detour : ServerState := withFolders [⟨"file:///p/q", "q"⟩, ⟨"file:///p/x/../../p", "p"⟩]

/-- A folder that is written with a detour is taken for a deeper one than it is. -/
theorem folder_above_is_taken_for_innermost :
    ¬ ∀ (s : ServerState) (p : Path) (id : WorkspaceId) (w : Workspace), s.findWorkspace p = some id →
      s.workspaces[id]? = some w → s.IsInnermost p w := by
  intro h
  have hfind : detour.findWorkspace (.ofText "/p/q/a.ink") = some 1 := by decide +kernel
  have houter : detour.workspaces[1]?.map (·.root) = some (.ofText "/p/x/../../p") := by decide +kernel
  have hinner : detour.registeredWorkspaces.head?.map (·.2.root) = some (.ofText "/p/q") := by decide +kernel
  obtain ⟨w, hw, hroot⟩ := Option.map_eq_some_iff.mp houter
  obtain ⟨e, he, heroot⟩ := Option.map_eq_some_iff.mp hinner
  have hbelow : e.2.root.isInside w.root = true := by
    rw [heroot, hroot]
    decide +kernel
  have hcontains : (Path.ofText "/p/q/a.ink").isInside e.2.root = true := by
    rw [heroot]
    decide +kernel
  rw [(h detour _ 1 w hfind hw).least e (List.mem_of_head? he) hbelow] at hcontains
  cases hcontains

end ServerState

end InkServer
