import InkServer.Proofs.Mirror.Places
import InkServer.Proofs.Server.Bystanders

/-!
# Who looks after which mirror

A mirror that was made is looked after by exactly one, until it is deleted: by the workspace that has it, or by
an operation that waits with it. What an operation looks after is its charges; `Custody` says that with these
charges no mirror was forgotten and none is looked after twice. It is kept by everything that is done with
mirrors, unless a workspace that was removed is used again.
-/

namespace InkServer

open Work

/-! ## Making mirrors -/

/-- A mirror was made meanwhile. -/
structure Disk.Grows (policy : MirrorPolicy) (d d' : Disk) (m : Mirror) : Prop where
  scratches : d'.scratches = d.scratches + 1
  history : d.history <+: d'.history
  path : m.path = policy.tempRoot.child (Mirror.scratchName (d.scratches + 1))
  deleted : ∀ path, .deleted path ∈ d'.history → .deleted path ∈ d.history

namespace Disk.Grows

variable {policy : MirrorPolicy} {d d' d'' : Disk} {m m' : Mirror}

theorem later (h : d.Grows policy d' m) (h' : d'.Extends d'') : d.Grows policy d'' m :=
  ⟨h'.scratches.trans h.scratches, h.history.trans h'.history, h.path,
    fun path hp => h.deleted path (h'.deleted path hp)⟩

/-- What is made after is one mirror more. -/
theorem isMade_iff (h : d.Grows policy d' m) : m'.IsMade policy d' ↔ m' = m ∨ m'.IsMade policy d := by
  constructor
  · rintro ⟨k, h0, hk, he⟩
    rw [h.scratches] at hk
    rcases Nat.le_succ_iff.mp hk with hk | hk
    · exact .inr ⟨k, h0, hk, he⟩
    · refine .inl ?_
      have hpath : m'.path = m.path := by rw [he, h.path, hk]
      cases m; cases m'
      exact congrArg Mirror.mk hpath
  · rintro (rfl | ⟨k, h0, hk, he⟩)
    · exact ⟨d.scratches + 1, Nat.succ_pos _, Nat.le_of_eq h.scratches.symm, h.path⟩
    · exact ⟨k, h0, h.scratches ▸ Nat.le_succ_of_le hk, he⟩

/-- A new mirror is none of those that were there. -/
theorem not_isMade (h : d.Grows policy d' m) : ¬m.IsMade policy d := by
  rintro ⟨k, _, hk, he⟩
  have hsame := Mirror.child_scratchName_injective policy (he.symm.trans h.path)
  rw [hsame] at hk
  exact Nat.not_succ_le_self _ hk

end Disk.Grows

namespace Mirror

open DiskWork

variable {policy : MirrorPolicy} {d : Disk} {m : Mirror}

/-- A failure after which the directory of a mirror is left to be deleted, or a name that no file can have. -/
def IsLeftBy (m : Mirror) (f : Failure) : Prop :=
  f = .file .nullCharacter ∨ ∃ e, f = .mirror e ∧ e.scratch = some m.path

theorem isLeftBy_told {wrap : FileError → Failure} (h : ∀ e, m.IsLeftBy (wrap e)) (e : FileError) :
    m.IsLeftBy (told wrap e) := by
  cases e with
  | nullCharacter => exact .inl rfl
  | _ => exact h _

theorem isLeftBy_mirror (cause : MirrorError.Cause) (root : Path) :
    m.IsLeftBy (.mirror ⟨cause, root, some m.path⟩) := .inr ⟨_, rfl, rfl⟩

theorem makeScratch_grows (wrap : FileError → Failure) (d : Disk) :
    Reaches (makeScratch policy wrap) d (fun m d' => d.Grows policy d' m)
      fun f d' => d.Extends d' ∧ ∃ e, f = told wrap e := by
  unfold makeScratch
  rw [reaches_get, reaches_bind, reaches_telling]
  refine (reaches_self (FileWork.makeDirectories policy.tempRoot) d.files).mono (fun _ files _ => ?_)
    fun e files _ => ⟨.of_history_eq rfl rfl, e, rfl⟩
  rw [reaches_bind, reaches_telling, FileWork.reaches_change]
  split
  · exact ⟨rfl, List.prefix_refl _, rfl, fun _ hp => hp⟩
  · exact ⟨.of_history_eq rfl rfl, _, rfl⟩

theorem writeFile_leaves {wrap : FileError → Failure} (h : ∀ e, m.IsLeftBy (wrap e)) (relative : Path)
    (content : ByteArray) :
    Reaches (m.writeFile wrap relative content) d (fun _ d' => d.Extends d')
      fun f d' => d.Extends d' ∧ m.IsLeftBy f := by
  have hextends : d.Extends (leaves (m.writeFile wrap relative content) d) :=
    extending_writeFile m wrap relative content d
  have hfails := writeFile_reaches (d := d) (m := m) wrap relative content
  unfold Reaches at hfails ⊢
  split
  · exact hextends
  · rename_i f hf
    rw [hf] at hfails
    obtain ⟨_, _, e, rfl⟩ := hfails
    exact ⟨hextends, isLeftBy_told h e⟩

theorem copyFile_leaves {wrap : FileError → Failure} (h : ∀ e, m.IsLeftBy (wrap e)) (root relative : Path) :
    Reaches (m.copyFile root wrap relative) d (fun _ d' => d.Extends d') fun f d' => d.Extends d' ∧ m.IsLeftBy f := by
  unfold copyFile
  rw [reaches_bind]
  have hread : Looks (FileWork.read (root / relative)) := FileWork.looks_ask _ _
  rw [reaches_telling]
  refine hread.reaches (fun content _ => writeFile_leaves h relative content) fun e _ => ?_
  exact ⟨.refl d, isLeftBy_told h e⟩

/-- Work on one file after the other. -/
theorem mapM_leaves {α β : Type} {xs : List β} {f : β → DiskWork α}
    (hf : ∀ x ∈ xs, ∀ d, Reaches (f x) d (fun _ d' => d.Extends d') fun e d' => d.Extends d' ∧ m.IsLeftBy e) :
    Reaches (xs.mapM f) d (fun _ d' => d.Extends d') fun e d' => d.Extends d' ∧ m.IsLeftBy e :=
  reaches_mapM (p := fun d' => d.Extends d') (q := fun e d' => d.Extends d' ∧ m.IsLeftBy e) (.refl d)
    fun x hx d' hd => (hf x hx d').mono (fun _ _ h => hd.trans h) fun _ _ h => ⟨hd.trans h.1, h.2⟩

/-- Making a mirror makes one, or makes none, or leaves one to be deleted. -/
theorem create_grows (policy : MirrorPolicy) (root : Path) (d : Disk) :
    Reaches (create policy root) d (fun r d' => d.Grows policy d' r.1)
      fun f d' => (d.Extends d' ∧ ∀ e, f = .mirror e → e.scratch = none) ∨
        ∃ m, d.Grows policy d' m ∧ m.IsLeftBy f := by
  have hthere : Looks (FileWork.isDirectory root) := FileWork.looks_holds root _
  unfold create plainly
  rw [reaches_bind, reaches_telling]
  refine hthere.reaches (fun there _ => ?_) fun e _ => .inl ⟨.refl d, fun e' he => by cases e <;> cases he⟩
  split
  · exact .inl ⟨.refl d, fun e he => by cases he; rfl⟩
  · rw [reaches_bind]
    refine (makeScratch_grows _ d).mono (fun m d₁ hm => ?_) fun f d₁ ⟨hd, e, he⟩ => .inl ⟨hd, ?_⟩
    · unfold sources
      rw [reaches_bind, reaches_bind, reaches_telling]
      refine (FileWork.looks_allFilesBelow root).reaches (fun files _ => ?_) fun e _ => ?_
      · rw [reaches_pure, reaches_bind]
        exact (mapM_leaves fun relative _ d => copyFile_leaves (fun e => isLeftBy_mirror _ _) root relative).mono
          (fun _ d₂ h => hm.later h) fun f d₂ h => .inr ⟨m, hm.later h.1, h.2⟩
      · exact .inr ⟨m, hm, isLeftBy_told (fun e => isLeftBy_mirror _ _) e⟩
    · subst he
      intro e' he'
      cases e <;> cases he' <;> rfl

theorem overlay_leaves (m : Mirror) (root : Path) (documents : List (Path × ByteArray)) :
    Reaches (m.overlay root documents) d (fun _ d' => d.Extends d') fun f d' => d.Extends d' ∧ m.IsLeftBy f :=
  mapM_leaves fun x _ _ => writeFile_leaves (fun _ => isLeftBy_mirror _ _) x.1 x.2

end Mirror

/-! ## Charges -/

/-- What an operation that waits is in charge of. -/
inductive Charge where
  /-- A mirror that no workspace has. -/
  | scratch (mirror : Mirror)
  /-- The workspace that a new mirror is meant for; it is there. -/
  | serving (id : WorkspaceId)
  /-- The mirror of a workspace that was removed. -/
  | leaving (id : WorkspaceId) (mirror : Mirror)
  deriving DecidableEq

namespace ServerState

/-- Whether a workspace has a mirror. -/
def Has (s : ServerState) (id : WorkspaceId) (m : Mirror) : Prop :=
  ∃ w, s.workspaces[id]? = some w ∧ w.mirror = some m

/-- Whether a workspace that was removed is in use again. -/
def HasWoken (s : ServerState) : Prop :=
  ∃ id w, s.workspaces[id]? = some w ∧ s.Gone id ∧ w.state ≠ .removed

/-- Every mirror that was made is looked after by one workspace or one charge, or it was deleted. -/
structure Custody (charges : List Charge) (s : ServerState) : Prop where
  placed : s.Placed
  scratch : ∀ m, .scratch m ∈ charges → m.IsMade s.policy s.disk
  serving : ∀ id, .serving id ∈ charges → id < s.workspaces.length
  leaving : ∀ id m, .leaving id m ∈ charges → s.Gone id ∧ ∀ m', s.Has id m' → m' = m
  apart : ∀ id id' m, s.Has id m → s.Has id' m → id = id'
  alone : ∀ id m, s.Has id m → .scratch m ∉ charges
  single : ∀ m, charges.count (.scratch m) ≤ 1
  kept : ∀ m, m.IsMade s.policy s.disk →
    (∃ id, s.Has id m) ∨ .scratch m ∈ charges ∨ .deleted m.path ∈ s.disk.history
  registered : ∀ id m, s.Has id m →
    (∃ uri, s.registered.get? uri = some id) ∨ ∃ m', .leaving id m' ∈ charges

/-- No mirror was forgotten, unless a removed workspace is in use again. -/
def Books (charges : List Charge) (s : ServerState) : Prop := s.HasWoken ∨ s.Custody charges

variable {s s' : ServerState} {charges charges' : List Charge} {id i : WorkspaceId} {m m' : Mirror}

theorem Custody.has_isMade (h : s.Custody charges) (hm : s.Has id m) : m.IsMade s.policy s.disk := by
  obtain ⟨w, hw, he⟩ := hm
  exact h.placed.made w (List.mem_of_getElem? hw) m he

theorem Custody.perm (h : s.Custody charges) (hp : charges.Perm charges') : s.Custody charges' where
  placed := h.placed
  scratch m hm := h.scratch m (hp.mem_iff.mpr hm)
  serving id hm := h.serving id (hp.mem_iff.mpr hm)
  leaving id m hm := h.leaving id m (hp.mem_iff.mpr hm)
  apart := h.apart
  alone id m hm hc := h.alone id m hm (hp.mem_iff.mpr hc)
  single m := hp.count_eq (.scratch m) ▸ h.single m
  kept m hm := (h.kept m hm).imp_right (.imp_left hp.mem_iff.mp)
  registered id m hm := (h.registered id m hm).imp_right fun ⟨m', hc⟩ => ⟨m', hp.mem_iff.mp hc⟩

/-- A workspace that is there may be served. -/
theorem Custody.serves (h : s.Custody charges) (hid : id < s.workspaces.length) :
    s.Custody (.serving id :: charges) where
  placed := h.placed
  scratch m hm := h.scratch m (by simpa using hm)
  serving i hi := by
    rcases List.mem_cons.mp hi with he | hi
    · cases he
      exact hid
    · exact h.serving i hi
  leaving i m hm := h.leaving i m (by simpa using hm)
  apart := h.apart
  alone i m hm := by simpa using h.alone i m hm
  single m := by simpa using h.single m
  kept m hm := by simpa using h.kept m hm
  registered i m hm := by simpa using h.registered i m hm

/-- A workspace need not be served any longer. -/
theorem Custody.served (h : s.Custody (.serving id :: charges)) : s.Custody charges where
  placed := h.placed
  scratch m hm := h.scratch m (List.mem_cons_of_mem _ hm)
  serving i hi := h.serving i (List.mem_cons_of_mem _ hi)
  leaving i m hm := h.leaving i m (List.mem_cons_of_mem _ hm)
  apart := h.apart
  alone i m hm := by simpa using h.alone i m hm
  single m := by simpa using h.single m
  kept m hm := by simpa using h.kept m hm
  registered i m hm := by simpa using h.registered i m hm

/-! ### Mirrors are made and deleted -/

theorem Custody.makes {disk : Disk} (h : s.Custody charges) (hd : s.disk.Grows s.policy disk m) :
    ({ s with disk } : ServerState).Custody (.scratch m :: charges) := by
  have hmade : ∀ {m' : Mirror}, m'.IsMade s.policy s.disk → m'.IsMade s.policy disk :=
    fun hm => hd.isMade_iff.mpr (.inr hm)
  refine ⟨⟨h.placed.keyed, fun w hw m hm => hmade (h.placed.made w hw m hm)⟩, fun m' hm => ?_, fun i hi => ?_,
    fun i m' hm => ?_, h.apart, fun i m' hm hc => ?_, fun m' => ?_, fun m' hm => ?_, fun i m' hm => ?_⟩
  · rcases List.mem_cons.mp hm with he | hm
    · cases he
      exact hd.isMade_iff.mpr (.inl rfl)
    · exact hmade (h.scratch m' hm)
  · exact h.serving i (by simpa using hi)
  · obtain ⟨hg, hh⟩ := h.leaving i m' (by simpa using hm)
    exact ⟨⟨hg.known, hg.unregistered⟩, hh⟩
  · rcases List.mem_cons.mp hc with he | hc
    · cases he
      exact hd.not_isMade (h.has_isMade hm)
    · exact h.alone i m' hm hc
  · rw [List.count_cons]
    split
    · rename_i he
      cases eq_of_beq he
      exact Nat.le_of_eq (congrArg (· + 1) (List.count_eq_zero.mpr fun hc => hd.not_isMade (h.scratch m hc)))
    · exact h.single m'
  · rcases hd.isMade_iff.mp hm with rfl | hm
    · exact .inr (.inl List.mem_cons_self)
    · exact (h.kept m' hm).imp_right (.imp (List.mem_cons_of_mem _) fun hr => hd.history.subset hr)
  · exact (h.registered i m' hm).imp_right fun ⟨m'', hc⟩ => ⟨m'', List.mem_cons_of_mem _ hc⟩

/-- Others may do to the disk what they like; the record grows. -/
theorem Custody.onDisk {disk : Disk} (h : s.Custody charges) (hs : disk.scratches = s.disk.scratches)
    (hh : s.disk.history <+: disk.history) : ({ s with disk } : ServerState).Custody charges := by
  have hmade : ∀ {m' : Mirror}, m'.IsMade s.policy disk ↔ m'.IsMade s.policy s.disk := fun {m'} => by
    unfold Mirror.IsMade
    rw [hs]
  refine ⟨⟨h.placed.keyed, fun w hw m hm => hmade.mpr (h.placed.made w hw m hm)⟩,
    fun m hm => hmade.mpr (h.scratch m hm), h.serving, fun id m hm => ?_, h.apart, h.alone, h.single,
    fun m hm => (h.kept m (hmade.mp hm)).imp_right (.imp_right fun hr => hh.subset hr), h.registered⟩
  obtain ⟨hg, hall⟩ := h.leaving id m hm
  exact ⟨⟨hg.known, hg.unregistered⟩, hall⟩

theorem Custody.deletes {disk : Disk} (h : s.Custody (.scratch m :: charges))
    (hs : disk.scratches = s.disk.scratches) (hh : disk.history = s.disk.history ++ [.deleted m.path]) :
    ({ s with disk } : ServerState).Custody charges := by
  have hmade : ∀ {m' : Mirror}, m'.IsMade s.policy disk ↔ m'.IsMade s.policy s.disk := fun {m'} => by
    unfold Mirror.IsMade
    rw [hs]
  refine ⟨⟨h.placed.keyed, fun w hw m hm => hmade.mpr (h.placed.made w hw m hm)⟩,
    fun m' hm => hmade.mpr (h.scratch m' (List.mem_cons_of_mem _ hm)),
    fun i hi => h.serving i (List.mem_cons_of_mem _ hi), fun i m' hm => ?_, h.apart,
    fun i m' hm hc => h.alone i m' hm (List.mem_cons_of_mem _ hc),
    fun m' => Nat.le_trans List.count_le_count_cons (h.single m'), fun m' hm => ?_, fun i m' hm => ?_⟩
  · obtain ⟨hg, hh⟩ := h.leaving i m' (List.mem_cons_of_mem _ hm)
    exact ⟨⟨hg.known, hg.unregistered⟩, hh⟩
  · show _ ∨ _ ∨ _ ∈ disk.history
    rw [hh]
    rcases h.kept m' (hmade.mp hm) with hh | hc | hr
    · exact .inl hh
    · rcases List.mem_cons.mp hc with he | hc
      · cases he
        exact .inr (.inr (List.mem_append_right _ (List.mem_singleton_self _)))
      · exact .inr (.inl hc)
    · exact .inr (.inr (List.mem_append_left _ hr))
  · exact (h.registered i m' hm).imp_right fun ⟨m'', hc⟩ => ⟨m'', by simpa using hc⟩

/-! ### Workspaces get and lose mirrors -/

section modify

variable {w : Workspace} {f : Workspace → Workspace} (hw : s.workspaces[id]? = some w)

include hw

theorem has_modify :
    ({ s with workspaces := s.workspaces.modify id f } : ServerState).Has i m ↔
      (i ≠ id ∧ s.Has i m) ∨ (i = id ∧ (f w).mirror = some m) := by
  unfold Has
  dsimp only
  rw [List.getElem?_modify]
  by_cases hi : i = id
  · subst hi
    rw [hw]
    simp
  · simp [hi, Ne.symm hi]

theorem Placed.modify (h : s.Placed) (hu : (f w).uri = w.uri)
    (hm : ∀ m, (f w).mirror = some m → m.IsMade s.policy s.disk) :
    ({ s with workspaces := s.workspaces.modify id f } : ServerState).Placed := by
  rw [ServerAct.modify_eq_set hw]
  exact ⟨fun uri i hr => h.keyed_set hw hu hr, h.made_set hm⟩

/-- A new mirror takes the place of the previous one, which nobody has then. -/
theorem Custody.installs (h : s.Custody (.scratch m :: charges)) (hg : ¬s.Gone id) (hu : (f w).uri = w.uri)
    (hm : (f w).mirror = some m) :
    ({ s with workspaces := s.workspaces.modify id f } : ServerState).Custody
      (w.mirror.toList.map .scratch ++ charges) := by
  have hhas : ∀ {i n}, ({ s with workspaces := s.workspaces.modify id f } : ServerState).Has i n ↔
      (i ≠ id ∧ s.Has i n) ∨ (i = id ∧ m = n) := by
    intro i n
    rw [has_modify hw, hm, Option.some.injEq]
  have hprevious : ∀ {n}, Charge.scratch n ∈ w.mirror.toList.map .scratch ↔ s.Has id n := by
    intro n
    simp [Has, hw]
  have hnew : ∀ i, ¬s.Has i m := fun i hi => h.alone i m hi List.mem_cons_self
  have hnone : .scratch m ∉ charges := fun hc => by
    have hone := h.single m
    rw [List.count_cons_self] at hone
    exact absurd (List.count_pos_iff.mpr hc) (by omega)
  have hlength : (s.workspaces.modify id f).length = s.workspaces.length := List.length_modify ..
  refine ⟨h.placed.modify hw hu fun n hn => ?_, fun n hn => ?_, fun i hi => ?_, fun i n hn => ?_,
    fun i i' n hi hi' => ?_, fun i n hi hc => ?_, fun n => ?_, fun n hn => ?_, fun i n hi => ?_⟩
  · cases hm.symm.trans hn
    exact h.scratch m List.mem_cons_self
  · rcases List.mem_append.mp hn with hn | hn
    · exact h.has_isMade (hprevious.mp hn)
    · exact h.scratch n (List.mem_cons_of_mem _ hn)
  · exact hlength ▸ h.serving i (by simpa using hi)
  · obtain ⟨hgone, hall⟩ := h.leaving i n (by simpa using hn)
    refine ⟨⟨hlength ▸ hgone.known, hgone.unregistered⟩, fun n' hn' => ?_⟩
    rcases hhas.mp hn' with ⟨_, hn'⟩ | ⟨rfl, _⟩
    · exact hall n' hn'
    · exact absurd hgone hg
  · rcases hhas.mp hi with ⟨_, hold⟩ | ⟨rfl, rfl⟩
    · rcases hhas.mp hi' with ⟨_, hold'⟩ | ⟨rfl, rfl⟩
      · exact h.apart i i' n hold hold'
      · exact absurd hold (hnew i)
    · rcases hhas.mp hi' with ⟨_, hold'⟩ | ⟨rfl, _⟩
      · exact absurd hold' (hnew i')
      · rfl
  · rcases hhas.mp hi with ⟨hne, hi⟩ | ⟨rfl, rfl⟩
    · rcases List.mem_append.mp hc with hc | hc
      · exact hne (h.apart i id n hi (hprevious.mp hc))
      · exact h.alone i n hi (List.mem_cons_of_mem _ hc)
    · rcases List.mem_append.mp hc with hc | hc
      · exact hnew i (hprevious.mp hc)
      · exact hnone hc
  · rw [List.count_append]
    have hone := h.single n
    have hrest : charges.count (.scratch n) ≤ (Charge.scratch m :: charges).count (.scratch n) :=
      List.count_le_count_cons
    by_cases hn : s.Has id n
    · -- The previous mirror was in nobody's charge.
      have hzero : charges.count (.scratch n) = 0 :=
        List.count_eq_zero.mpr fun hc => h.alone id n hn (List.mem_cons_of_mem _ hc)
      obtain ⟨w', hw', hmirror⟩ := hn
      cases hw.symm.trans hw'
      rw [hmirror, hzero]
      simp
    · have hzero : (w.mirror.toList.map Charge.scratch).count (.scratch n) = 0 :=
        List.count_eq_zero.mpr fun hc => hn (hprevious.mp hc)
      omega
  · rcases h.kept n hn with ⟨i, hi⟩ | hc | hr
    · by_cases hid : i = id
      · subst hid
        exact .inr (.inl (List.mem_append_left _ (hprevious.mpr hi)))
      · exact .inl ⟨i, hhas.mpr (.inl ⟨hid, hi⟩)⟩
    · rcases List.mem_cons.mp hc with he | hc
      · cases he
        exact .inl ⟨id, hhas.mpr (.inr ⟨rfl, rfl⟩)⟩
      · exact .inr (.inl (List.mem_append_right _ hc))
    · exact .inr (.inr hr)
  · rcases hhas.mp hi with ⟨_, hi⟩ | ⟨rfl, _⟩
    · refine (h.registered i n hi).imp_right fun ⟨n', hc⟩ => ⟨n', ?_⟩
      exact List.mem_append_right _ (by simpa using hc)
    · have hknown : i < s.workspaces.length := (List.getElem?_eq_some_iff.mp hw).1
      exact .inl (Classical.byContradiction fun hno => hg ⟨hknown, fun uri hr => hno ⟨uri, hr⟩⟩)

/-- A workspace is taken out, and its mirror is to be deleted. -/
theorem Custody.removes {uri : String} (h : s.Custody charges) (hr : s.registered.get? uri = some id)
    (hu : (f w).uri = w.uri) (hm : (f w).mirror = w.mirror) :
    ({ s with workspaces := s.workspaces.modify id f, registered := s.registered.erase uri } : ServerState).Custody
      (w.mirror.toList.map (.leaving id) ++ charges) := by
  have hhas : ∀ {i n}, ({ s with
      workspaces := s.workspaces.modify id f
      registered := s.registered.erase uri } : ServerState).Has i n ↔ s.Has i n := by
    intro i n
    refine (has_modify hw).trans ?_
    rw [hm]
    by_cases hid : i = id
    · subst hid
      simp [Has, hw]
    · simp [hid]
  have hprevious : ∀ {i n}, Charge.leaving i n ∈ w.mirror.toList.map (Charge.leaving id) ↔ i = id ∧ s.Has id n := by
    intro i n
    simp [Has, hw, eq_comm, and_comm]
  have hlength : (s.workspaces.modify id f).length = s.workspaces.length := List.length_modify ..
  have hgone := h.placed.gone_erase (t := { s with
    workspaces := s.workspaces.modify id f
    registered := s.registered.erase uri }) hr (Nat.le_of_eq hlength.symm) rfl
  have hmodified := h.placed.modify (f := f) hw hu
    (hm ▸ fun m he => h.placed.made w (List.mem_of_getElem? hw) m he)
  refine ⟨⟨fun uri' i hr' => hmodified.keyed uri' i (get?_of_get?_erase hr').2, hmodified.made⟩, fun n hn => ?_,
    fun i hi => ?_, fun i n hn => ?_, fun i i' n hi hi' => h.apart i i' n (hhas.mp hi) (hhas.mp hi'),
    fun i n hi hc => ?_, fun n => ?_, fun n hn => ?_, fun i n hi => ?_⟩
  · exact h.scratch n (by simpa using hn)
  · exact hlength ▸ h.serving i (by simpa using hi)
  · rcases List.mem_append.mp hn with hn | hn
    · obtain ⟨rfl, hn⟩ := hprevious.mp hn
      refine ⟨hgone, fun n' hn' => ?_⟩
      obtain ⟨w₁, hw₁, h₁⟩ := hn
      obtain ⟨w₂, hw₂, h₂⟩ := hhas.mp hn'
      cases hw₁.symm.trans hw₂
      exact Option.some.inj (h₂.symm.trans h₁)
    · obtain ⟨hg, hall⟩ := h.leaving i n hn
      refine ⟨⟨hlength ▸ hg.known, fun uri' hr' => hg.unregistered uri' (get?_of_get?_erase hr').2⟩, fun n' hn' => ?_⟩
      exact hall n' (hhas.mp hn')
  · exact h.alone i n (hhas.mp hi) (by simpa using hc)
  · have hzero : (w.mirror.toList.map (Charge.leaving id)).count (.scratch n) = 0 :=
      List.count_eq_zero.mpr (by simp)
    rw [List.count_append, hzero, Nat.zero_add]
    exact h.single n
  · rcases h.kept n hn with ⟨i, hi⟩ | hc | hd
    · exact .inl ⟨i, hhas.mpr hi⟩
    · exact .inr (.inl (List.mem_append_right _ hc))
    · exact .inr (.inr hd)
  · by_cases hid : i = id
    · subst hid
      exact .inr ⟨n, List.mem_append_left _ (hprevious.mpr ⟨rfl, hhas.mp hi⟩)⟩
    · rcases h.registered i n (hhas.mp hi) with ⟨uri', hr'⟩ | ⟨n', hc⟩
      · have hne : uri ≠ uri' := by
          rintro rfl
          exact hid (Option.some.inj (hr'.symm.trans hr))
        exact .inl ⟨uri', (Dict.get?_erase_of_ne _ hne).trans hr'⟩
      · exact .inr ⟨n', List.mem_append_right _ hc⟩

end modify

/-- The mirror of a workspace that was removed is deleted. -/
theorem Custody.drops {disk : Disk} (h : s.Custody (.leaving id m :: charges))
    (hs : disk.scratches = s.disk.scratches) (hh : disk.history = s.disk.history ++ [.deleted m.path]) :
    ({ s with disk, workspaces := s.workspaces.modify id fun w => { w with mirror := none } } : ServerState).Custody
      charges := by
  obtain ⟨hgone, honly⟩ := h.leaving id m List.mem_cons_self
  obtain ⟨w, hw⟩ : ∃ w, s.workspaces[id]? = some w := ⟨_, List.getElem?_eq_getElem hgone.known⟩
  have hmade : ∀ {m' : Mirror}, m'.IsMade s.policy disk ↔ m'.IsMade s.policy s.disk := fun {m'} => by
    unfold Mirror.IsMade
    rw [hs]
  have hhas : ∀ {i n}, ({ s with
      disk
      workspaces := s.workspaces.modify id fun w => { w with mirror := none } } : ServerState).Has i n ↔
      i ≠ id ∧ s.Has i n := by
    intro i n
    refine (has_modify (f := fun w => { w with mirror := none }) hw).trans ?_
    simp
  have hlength : (s.workspaces.modify id fun w => { w with mirror := none }).length = s.workspaces.length :=
    List.length_modify ..
  have hmodified := h.placed.modify (f := fun w => { w with mirror := none }) hw rfl (fun _ he => by cases he)
  refine ⟨⟨hmodified.keyed, fun w hw m hm => hmade.mpr (hmodified.made w hw m hm)⟩,
    fun n hn => hmade.mpr (h.scratch n (List.mem_cons_of_mem _ hn)),
    fun i hi => hlength ▸ h.serving i (List.mem_cons_of_mem _ hi), fun i n hn => ?_,
    fun i i' n hi hi' => h.apart i i' n (hhas.mp hi).2 (hhas.mp hi').2,
    fun i n hi hc => h.alone i n (hhas.mp hi).2 (List.mem_cons_of_mem _ hc),
    fun n => Nat.le_trans List.count_le_count_cons (h.single n), fun n hn => ?_, fun i n hi => ?_⟩
  · obtain ⟨hg, hall⟩ := h.leaving i n (List.mem_cons_of_mem _ hn)
    exact ⟨⟨hlength ▸ hg.known, hg.unregistered⟩, fun n' hn' => hall n' (hhas.mp hn').2⟩
  · show _ ∨ _ ∨ _ ∈ disk.history
    rw [hh]
    rcases h.kept n (hmade.mp hn) with ⟨i, hi⟩ | hc | hr
    · by_cases hid : i = id
      · subst hid
        rw [honly n hi]
        exact .inr (.inr (List.mem_append_right _ (List.mem_singleton_self _)))
      · exact .inl ⟨i, hhas.mpr ⟨hid, hi⟩⟩
    · exact .inr (.inl (by simpa using hc))
    · exact .inr (.inr (List.mem_append_left _ hr))
  · obtain ⟨hne, hi⟩ := hhas.mp hi
    refine (h.registered i n hi).imp_right fun ⟨n', hc⟩ => ⟨n', ?_⟩
    rcases List.mem_cons.mp hc with he | hc
    · cases he
      exact absurd rfl hne
    · exact hc

/-! ### Workspaces come and stay -/

/-- A workspace that is registered has no mirror yet. -/
theorem has_registers {folder : Folder} {w : Workspace} (hf : Workspace.ofFolder folder = .ok w) :
    ({ s with
      workspaces := s.workspaces ++ [w]
      registered := s.registered.insert folder.uri s.workspaces.length } : ServerState).Has i m ↔ s.Has i m := by
  have hnone : w.mirror = none := by
    obtain ⟨_, _, rfl⟩ := Workspace.eq_of_ofFolder hf
    rfl
  unfold Has
  dsimp only
  rw [List.getElem?_append]
  split
  · rfl
  · rename_i hi
    rw [List.getElem?_eq_none (Nat.le_of_not_lt hi), List.getElem?_singleton]
    split <;> simp [hnone]

theorem Custody.registers {folder : Folder} {w : Workspace} (h : s.Custody charges)
    (hf : Workspace.ofFolder folder = .ok w) (hr : s.registered.get? folder.uri = none) :
    ({ s with
      workspaces := s.workspaces ++ [w]
      registered := s.registered.insert folder.uri s.workspaces.length } : ServerState).Custody charges := by
  have hchange : s.Change _ := .registers hf hr
  have hhas : ∀ {i n}, ({ s with
      workspaces := s.workspaces ++ [w]
      registered := s.registered.insert folder.uri s.workspaces.length } : ServerState).Has i n ↔ s.Has i n :=
    has_registers hf
  refine ⟨h.placed.change hchange, h.scratch, fun i hi => Nat.lt_of_lt_of_le (h.serving i hi) hchange.later.length,
    fun i n hn => ?_, fun i i' n hi hi' => h.apart i i' n (hhas.mp hi) (hhas.mp hi'),
    fun i n hi => h.alone i n (hhas.mp hi), h.single,
    fun n hn => (h.kept n hn).imp_left fun ⟨i, hi⟩ => ⟨i, hhas.mpr hi⟩, fun i n hi => ?_⟩
  · obtain ⟨hg, hall⟩ := h.leaving i n hn
    exact ⟨hchange.later.gone i hg, fun n' hn' => hall n' (hhas.mp hn')⟩
  · refine (h.registered i n (hhas.mp hi)).imp_left fun ⟨uri, hu⟩ => ⟨uri, ?_⟩
    have hne : folder.uri ≠ uri := by
      rintro rfl
      cases hr.symm.trans hu
    exact (Dict.get?_insert_of_ne _ _ hne).trans hu

end ServerState

namespace StandsBy

variable {l l' : Loop ServerState Operation} {id : WorkspaceId} {m : Mirror} {w w' : Workspace}

theorem workspace (h : StandsBy l l') (hw : l.state.workspaces[id]? = some w) :
    ∃ w', l'.state.workspaces[id]? = some w' ∧ w.Stays w' := by
  have hrel := h.workspaces id
  rw [hw] at hrel
  cases hw' : l'.state.workspaces[id]? with
  | none => rw [hw'] at hrel; cases hrel
  | some w' =>
      rw [hw'] at hrel
      cases hrel with
      | some hs => exact ⟨w', rfl, hs⟩

theorem workspace_of (h : StandsBy l l') (hw : l'.state.workspaces[id]? = some w') :
    ∃ w, l.state.workspaces[id]? = some w ∧ w.Stays w' := by
  have hrel := h.workspaces id
  rw [hw] at hrel
  cases hw' : l.state.workspaces[id]? with
  | none => rw [hw'] at hrel; cases hrel
  | some w =>
      rw [hw'] at hrel
      cases hrel with
      | some hs => exact ⟨w, rfl, hs⟩

theorem has_iff (h : StandsBy l l') : l'.state.Has id m ↔ l.state.Has id m := by
  constructor
  · rintro ⟨w', hw', hm⟩
    obtain ⟨w, hw, hs⟩ := h.workspace_of hw'
    exact ⟨w, hw, hs.mirror.symm.trans hm⟩
  · rintro ⟨w, hw, hm⟩
    obtain ⟨w', hw', hs⟩ := h.workspace hw
    exact ⟨w', hw', hs.mirror.trans hm⟩

theorem lt_length (h : StandsBy l l') (hid : id < l.state.workspaces.length) :
    id < l'.state.workspaces.length := by
  obtain ⟨w', hw', _⟩ := h.workspace (List.getElem?_eq_getElem hid)
  exact (List.getElem?_eq_some_iff.mp hw').1

theorem gone (h : StandsBy l l') (hg : l.state.Gone id) : l'.state.Gone id :=
  ⟨h.lt_length hg.known, fun uri hr => hg.unregistered uri (h.registered ▸ hr)⟩

theorem isMade_iff (h : StandsBy l l') :
    m.IsMade l'.state.policy l'.state.disk ↔ m.IsMade l.state.policy l.state.disk := by
  unfold Mirror.IsMade
  rw [h.policy, h.disk.scratches]

theorem placed (h : StandsBy l l') (hp : l.state.Placed) : l'.state.Placed := by
  refine ⟨fun uri id hr => ?_, fun w' hw' m hm => ?_⟩
  · rw [h.registered] at hr
    obtain ⟨w, hw, hu⟩ := hp.keyed uri id hr
    obtain ⟨w', hw', hs⟩ := h.workspace hw
    exact ⟨w', hw', hs.uri.trans hu⟩
  · obtain ⟨id, hw'⟩ := List.mem_iff_getElem?.mp hw'
    obtain ⟨w, hw, hm⟩ := h.has_iff.mp ⟨w', hw', hm⟩
    exact h.isMade_iff.mpr (hp.made w (List.mem_of_getElem? hw) m hm)

theorem custody {charges : List Charge} (h : StandsBy l l') (hc : l.state.Custody charges) :
    l'.state.Custody charges := by
  refine ⟨h.placed hc.placed, fun m hm => h.isMade_iff.mpr (hc.scratch m hm),
    fun id hi => h.lt_length (hc.serving id hi), fun id m hm => ?_,
    fun id id' m hi hi' => hc.apart id id' m (h.has_iff.mp hi) (h.has_iff.mp hi'),
    fun id m hi => hc.alone id m (h.has_iff.mp hi), hc.single, fun m hm => ?_, fun id m hi => ?_⟩
  · obtain ⟨hg, hall⟩ := hc.leaving id m hm
    exact ⟨h.gone hg, fun m' hm' => hall m' (h.has_iff.mp hm')⟩
  · rcases hc.kept m (h.isMade_iff.mp hm) with ⟨id, hi⟩ | hs | hr
    · exact .inl ⟨id, h.has_iff.mpr hi⟩
    · exact .inr (.inl hs)
    · exact .inr (.inr (h.disk.history.subset hr))
  · exact (hc.registered id m (h.has_iff.mp hi)).imp_left fun ⟨uri, hr⟩ => ⟨uri, h.registered ▸ hr⟩

theorem hasWoken (h : StandsBy l l') (hw : l.state.HasWoken) : l'.state.HasWoken := by
  obtain ⟨id, w, hw, hg, hr⟩ := hw
  obtain ⟨w', hw', hs⟩ := h.workspace hw
  exact ⟨id, w', hw', h.gone hg, hs.removed hr⟩

theorem books {charges : List Charge} (h : StandsBy l l') (hb : l.state.Books charges) : l'.state.Books charges :=
  hb.imp h.hasWoken h.custody

end StandsBy

namespace ServerState

/-! ## Books -/

variable {s s' : ServerState} {charges charges' : List Charge} {id i : WorkspaceId} {m : Mirror} {disk : Disk}

theorem HasWoken.onDisk (h : s.HasWoken) (disk : Disk) : ({ s with disk } : ServerState).HasWoken := by
  obtain ⟨id, w, hw, hg, hr⟩ := h
  exact ⟨id, w, hw, ⟨hg.known, hg.unregistered⟩, hr⟩

/-- A removed workspace that is in use stays so when a workspace is changed that is not removed by it. -/
theorem HasWoken.modify {f : Workspace → Workspace} (h : s.HasWoken)
    (hf : ∀ w, w.state ≠ .removed → (f w).state ≠ .removed) :
    ({ s with workspaces := s.workspaces.modify id f } : ServerState).HasWoken := by
  obtain ⟨i, w, hw, hg, hr⟩ := h
  refine ⟨i, if id = i then f w else w, ?_, ⟨(List.length_modify f _ _).symm ▸ hg.known, hg.unregistered⟩, ?_⟩
  · show (s.workspaces.modify id f)[i]? = _
    rw [List.getElem?_modify, hw]
    rfl
  · split
    · exact hf w hr
    · exact hr

theorem Books.perm (h : s.Books charges) (hp : charges.Perm charges') : s.Books charges' :=
  h.imp_right fun hc => hc.perm hp

theorem Books.serves (h : s.Books charges) (hid : id < s.workspaces.length) : s.Books (.serving id :: charges) :=
  h.imp_right fun hc => hc.serves hid

theorem Books.served (h : s.Books (.serving id :: charges)) : s.Books charges := h.imp_right Custody.served

theorem Books.makes (h : s.Books charges) (hd : s.disk.Grows s.policy disk m) :
    ({ s with disk } : ServerState).Books (.scratch m :: charges) :=
  h.imp (fun hw => hw.onDisk disk) fun hc => hc.makes hd

theorem Books.onDisk (h : s.Books charges) (hs : disk.scratches = s.disk.scratches)
    (hh : s.disk.history <+: disk.history) : ({ s with disk } : ServerState).Books charges :=
  h.imp (fun hw => hw.onDisk disk) fun hc => hc.onDisk hs hh

theorem Books.deletes (h : s.Books (.scratch m :: charges)) :
    ({ s with disk := (m.delete.run s.disk).2 } : ServerState).Books charges := by
  rw [Mirror.run_delete]
  exact h.imp (fun hw => hw.onDisk _) fun hc => hc.deletes rfl rfl

theorem Books.installs {w : Workspace} {f : Workspace → Workspace} (h : s.Books (.scratch m :: charges))
    (hw : s.workspaces[id]? = some w) (hr : w.state ≠ .removed) (hu : (f w).uri = w.uri)
    (hm : (f w).mirror = some m) (hf : ∀ w, w.state ≠ .removed → (f w).state ≠ .removed) :
    ({ s with workspaces := s.workspaces.modify id f } : ServerState).Books
      (w.mirror.toList.map .scratch ++ charges) := by
  by_cases hg : s.Gone id
  · exact .inl (HasWoken.modify ⟨id, w, hw, hg, hr⟩ hf)
  · exact h.imp (fun h => h.modify hf) fun hc => hc.installs hw hg hu hm

theorem Books.drops (h : s.Books (.leaving id m :: charges)) :
    ({ s with
      disk := (m.delete.run s.disk).2
      workspaces := s.workspaces.modify id fun w => { w with mirror := none } } : ServerState).Books charges := by
  rw [Mirror.run_delete]
  refine h.imp (fun hw => ?_) fun hc => hc.drops rfl rfl
  exact HasWoken.modify (s := { s with disk := _ }) (hw.onDisk _) fun _ hr => hr

theorem Books.removes {uri : String} {f : Workspace → Workspace} (h : s.Books charges)
    (hr : s.registered.get? uri = some id) (hf : ∀ w, (f w).uri = w.uri ∧ (f w).mirror = w.mirror) :
    ({ s with workspaces := s.workspaces.modify id f, registered := s.registered.erase uri } : ServerState).Books
      ((s.workspaces[id]?.bind (·.mirror)).toList.map (.leaving id) ++ charges) := by
  refine h.imp (fun hwoken => ?_) fun hc => ?_
  · obtain ⟨i, w, hw, hg, hw'⟩ := hwoken
    have hne : id ≠ i := by
      rintro rfl
      exact hg.unregistered uri hr
    refine ⟨i, w, ?_, ⟨(List.length_modify f _ _).symm ▸ hg.known,
      fun uri' hr' => hg.unregistered uri' (get?_of_get?_erase hr').2⟩, hw'⟩
    show (s.workspaces.modify id f)[i]? = _
    rw [List.getElem?_modify, hw]
    simp [hne]
  · obtain ⟨w, hw, _⟩ := hc.placed.keyed uri id hr
    rw [hw]
    exact hc.removes hw hr (hf w).1 (hf w).2

theorem Books.registers {folder : Folder} {w : Workspace} (h : s.Books charges)
    (hf : Workspace.ofFolder folder = .ok w) (hr : s.registered.get? folder.uri = none) :
    ({ s with
      workspaces := s.workspaces ++ [w]
      registered := s.registered.insert folder.uri s.workspaces.length } : ServerState).Books charges := by
  refine h.imp (fun hwoken => ?_) fun hc => hc.registers hf hr
  obtain ⟨i, w', hw', hg, hr'⟩ := hwoken
  exact ⟨i, w', (List.getElem?_append_left hg.known).trans hw', (Change.registers hf hr).later.gone i hg, hr'⟩

end ServerState

end InkServer
