import InkServer.Compiler.Process
import InkServer.Proofs.Path.Inner
import InkServer.Proofs.Work
import Mathlib.Logic.Relation

/-!
# What the server does to the disk

However much work on mirrors does, it does it in few kinds of steps: the place for mirrors is prepared, a
mirror is made, one file is written into one, a mirror is deleted, and a compiler leaves its output beside
one. What all of these keep is kept by everything that the server does to the disk.
-/

namespace InkServer

open Work

/-- A mirror whose directory was made on this disk. -/
def Mirror.IsMade (policy : MirrorPolicy) (d : Disk) (m : Mirror) : Prop :=
  ∃ k, 0 < k ∧ k ≤ d.scratches ∧ m.path = policy.tempRoot.child (Mirror.scratchName k)

/-- A mirror whose directory was made meanwhile. -/
def Mirror.IsMadeSince (policy : MirrorPolicy) (d d' : Disk) (m : Mirror) : Prop :=
  ∃ k, d.scratches < k ∧ k ≤ d'.scratches ∧ m.path = policy.tempRoot.child (Mirror.scratchName k)

namespace Disk

/-- One step of the server on the disk. -/
inductive Change (policy : MirrorPolicy) (d : Disk) : Disk → Prop where
  | prepares :
      Change policy d { d with files := leaves (FileWork.makeDirectories policy.tempRoot) d.files }
  | makes {files : FileSystem}
      (h : d.files.makeDirectory (policy.tempRoot.child (Mirror.scratchName (d.scratches + 1))) =
        .ok files) :
      Change policy d { d with files, scratches := d.scratches + 1 }
  | writes {m : Mirror} {relative : Path} (wrap : FileError → Failure) (content : ByteArray)
      (hm : m.IsMade policy d) (hr : relative.IsInner) :
      Change policy d (leaves (m.writeFile wrap relative content) d)
  | deletes {m : Mirror} (hm : m.IsMade policy d) : Change policy d (m.delete.run d).2
  | outputs {m : Mirror} (hm : m.IsMade policy d) :
      Change policy d ((Behaviour.writeOutput m.outputPath).run d).2

/-- Any number of steps of the server. -/
abbrev Leads (policy : MirrorPolicy) : Disk → Disk → Prop := Relation.ReflTransGen (Change policy)

end Disk

namespace DiskWork

variable {α : Type}

/-! ## Work on files -/

/-- What is told of a failure of work on files. -/
def told (wrap : FileError → Failure) : FileError → Failure
  | .nullCharacter => .file .nullCharacter
  | e => wrap e

theorem reaches_telling {wrap : FileError → Failure} {work : FileWork α} {d : Disk}
    {ok : α → Disk → Prop} {error : Failure → Disk → Prop} :
    Reaches (telling wrap work) d ok error ↔
      Reaches work d.files (fun a files => ok a { d with files })
        fun e files => error (told wrap e) { d with files } := by
  unfold telling
  rw [reaches_bind]
  have ha : returns (attempt work) d = .ok (returns work d.files) := rfl
  have hl : leaves (attempt work) d = { d with files := leaves work d.files } := rfl
  unfold Reaches
  rw [ha, hl]
  cases returns work d.files with
  | ok a => rfl
  | error e => cases e <;> rfl

theorem looks_telling {wrap : FileError → Failure} {work : FileWork α} (h : Looks work) :
    Looks (telling wrap work) := by
  intro d
  refine (reaches_leaves (p := fun d' => d' = d)).mp (reaches_telling.mpr ?_)
  refine (reaches_leaves (p := fun files => { d with files } = d)).mpr ?_
  rw [h d.files]

end DiskWork

/-! ## Work on files -/

namespace FileWork

variable {α : Type}

/-- A change to one place is made as a whole or not at all. -/
theorem reaches_change {p : Path} {f : FileSystem → Except Errno FileSystem} {fs : FileSystem}
    {ok : Unit → FileSystem → Prop} {error : FileError → FileSystem → Prop} :
    Reaches (change p f) fs ok error ↔
      match about p (f fs) with
      | .ok fs' => ok () fs'
      | .error e => error e fs := by
  unfold change
  rw [reaches_get]
  cases about p (f fs) <;> rfl

theorem about_eq_ok {α : Type} {p : Path} {r : Except Errno α} {a : α} (h : about p r = .ok a) : r = .ok a := by
  unfold about at h
  split at h
  · cases h
  · cases r with
    | ok b => cases h; rfl
    | error e => cases h

theorem looks_ask (p : Path) (f : FileSystem → Except Errno α) : Looks (ask p f) := by
  refine looks_get _ fun fs => ?_
  split
  · exact looks_throw _
  · exact looks_pure _

theorem looks_holds (p : Path) (property : FileNode → Bool) : Looks (holds p property) := by
  refine looks_get _ fun fs => ?_
  split
  · exact looks_pure _
  · split
    · exact looks_pure _
    · split
      · exact looks_pure _
      · exact looks_throw _

theorem looks_filesBelow (depth : Nat) (p : Path) : Looks (filesBelow depth p) := by
  induction depth generalizing p with
  | zero => exact looks_pure _
  | succ depth ih =>
      unfold filesBelow
      refine (looks_ask _ _).bind fun names => looks_get _ fun fs => ?_
      exact (Looks.mapM fun n => ih _).bind fun _ => looks_pure _

theorem looks_allFilesBelow (p : Path) : Looks (allFilesBelow p) :=
  looks_get _ fun _ => looks_filesBelow _ _

end FileWork

/-! ## Work on mirrors -/

namespace Mirror

open DiskWork

variable {policy : MirrorPolicy} {d d' : Disk} {m : Mirror}

/-- Writing a file changes files and the record, and nothing else. -/
theorem writeFile_reaches (wrap : FileError → Failure) (relative : Path) (content : ByteArray) :
    Reaches (m.writeFile wrap relative content) d
      (fun e d' => d'.scratches = d.scratches ∧ e = .ofContent relative content ∧
        d'.history = d.history ++ [.wrote m.path relative content])
      fun f d' => d'.scratches = d.scratches ∧ d'.history = d.history ∧ ∃ e, f = told wrap e := by
  unfold writeFile
  rw [reaches_get]
  split
  · rename_i text _
    exact ⟨rfl, rfl, .refused text, rfl⟩
  · rw [reaches_bind, reaches_telling]
    unfold Reaches
    cases returns (do
      FileWork.makeDirectories (m.path / relative).parent
      FileWork.write (m.path / relative) content) d.files with
    | ok _ => exact ⟨rfl, rfl, rfl⟩
    | error e => exact ⟨rfl, rfl, e, rfl⟩

theorem scratches_writeFile (wrap : FileError → Failure) (relative : Path) (content : ByteArray) :
    (leaves (m.writeFile wrap relative content) d).scratches = d.scratches :=
  reaches_leaves.mp ((writeFile_reaches wrap relative content).mono (fun _ _ h => h.1) fun _ _ h => h.1)

theorem run_removed (work : FileWork Unit) (d : Disk) :
    ((removed work).run d).2 = { d with files := leaves work d.files } := by
  unfold removed
  rw [run_bind]
  have ha : (attempt work).run.run d = (.ok (returns work d.files), { d with files := leaves work d.files }) :=
    rfl
  rw [ha]
  cases returns work d.files with
  | ok u => rfl
  | error e => cases e <;> rfl

/-- Deleting a mirror changes files and the record, and nothing else. -/
theorem run_delete (m : Mirror) (d : Disk) :
    (m.delete.run d).2 =
      { d with
        files := leaves (FileWork.unlink m.outputPath) (leaves (FileWork.removeTree m.path) d.files)
        history := d.history ++ [.deleted m.path] } := by
  unfold delete
  rw [run_bind, run_bind, run_removed, run_removed]
  rfl

end Mirror

theorem Behaviour.run_writeOutput (output : Path) (d : Disk) :
    ((writeOutput output).run d).2 =
      { d with files := leaves (FileWork.write output "\x7b\x7d".toUTF8) d.files } := rfl

namespace Disk

variable {policy : MirrorPolicy} {d d' : Disk} {m : Mirror}

theorem Change.scratches_le (h : Change policy d d') : d.scratches ≤ d'.scratches := by
  cases h with
  | prepares => exact Nat.le_refl _
  | makes h => exact Nat.le_succ _
  | writes wrap content hm hr => exact Nat.le_of_eq (Mirror.scratches_writeFile _ _ _).symm
  | deletes hm =>
      exact Nat.le_of_eq (by rw [Mirror.run_delete])
  | outputs hm =>
      exact Nat.le_of_eq (by rw [Behaviour.run_writeOutput])

theorem Leads.scratches_le (h : Leads policy d d') : d.scratches ≤ d'.scratches := by
  induction h with
  | refl => exact Nat.le_refl _
  | tail _ h ih => exact Nat.le_trans ih h.scratches_le

end Disk

namespace Mirror

open DiskWork Disk

variable {policy : MirrorPolicy} {d d' : Disk} {m : Mirror}

theorem IsMade.leads (h : m.IsMade policy d) (hl : Leads policy d d') : m.IsMade policy d' := by
  obtain ⟨k, h0, hk, he⟩ := h
  exact ⟨k, h0, Nat.le_trans hk hl.scratches_le, he⟩

theorem IsMadeSince.isMade (h : m.IsMadeSince policy d d') : m.IsMade policy d' := by
  obtain ⟨k, h0, hk, he⟩ := h
  exact ⟨k, Nat.zero_lt_of_lt h0, hk, he⟩

theorem IsMadeSince.leads {d'' : Disk} (h : m.IsMadeSince policy d d') (hl : Leads policy d' d'') :
    m.IsMadeSince policy d d'' := by
  obtain ⟨k, h0, hk, he⟩ := h
  exact ⟨k, h0, Nat.le_trans hk hl.scratches_le, he⟩

/-- What a failure leaves behind for somebody to delete is a mirror. -/
def Leaves (policy : MirrorPolicy) (f : Failure) (d : Disk) : Prop :=
  ∀ e scratch, f = .mirror e → e.scratch = some scratch → (Mirror.mk scratch).IsMade policy d

theorem leaves_told {wrap : FileError → Failure} (h : ∀ e, Leaves policy (wrap e) d) (e : FileError) :
    Leaves policy (told wrap e) d := by
  cases e with
  | nullCharacter => exact fun _ _ h => by cases h
  | _ => exact h _

/-- How work on mirrors goes: the server's steps lead to where it ends, and what a failure leaves behind is
a mirror. -/
def Proceeds {α : Type} (policy : MirrorPolicy) (w : DiskWork α) (d : Disk) (ok : α → Disk → Prop) : Prop :=
  Reaches w d (fun a d' => Leads policy d d' ∧ ok a d') fun f d' => Leads policy d d' ∧ Leaves policy f d'

section Proceeds

variable {α β : Type} {ok : α → Disk → Prop}

theorem Proceeds.leads {w : DiskWork α} (h : Proceeds policy w d ok) : Leads policy d (leaves w d) :=
  (reaches_leaves (p := fun d' => Leads policy d d')).mp (h.mono (fun _ _ h => h.1) fun _ _ h => h.1)

theorem Proceeds.bind {w : DiskWork β} {f : β → DiskWork α} {mid : β → Disk → Prop}
    (hw : Proceeds policy w d mid)
    (hf : ∀ b d', Leads policy d d' → mid b d' → Proceeds policy (f b) d' ok) :
    Proceeds policy (w >>= f) d ok := by
  unfold Proceeds
  rw [reaches_bind]
  refine hw.mono (fun b d' ⟨hl, hb⟩ => ?_) fun _ _ h => h
  exact (hf b d' hl hb).mono (fun _ _ h => ⟨hl.trans h.1, h.2⟩) fun _ _ h => ⟨hl.trans h.1, h.2⟩

theorem Proceeds.pure {a : α} (h : ok a d) : Proceeds policy (pure a) d ok := ⟨.refl, h⟩

/-- Work that only looks leads nowhere. -/
theorem proceeds_telling {wrap : FileError → Failure} {work : FileWork α} (hl : Looks work)
    (hw : ∀ e, Leaves policy (wrap e) d) (hok : ∀ a, returns work d.files = .ok a → ok a d) :
    Proceeds policy (telling wrap work) d ok := by
  unfold Proceeds
  rw [reaches_telling]
  refine (reaches_self work d.files).mono (fun a files ⟨ha, hf⟩ => ?_) fun e files ⟨_, hf⟩ => ?_
  · rw [hf, hl d.files]
    exact ⟨.refl, hok a ha⟩
  · rw [hf, hl d.files]
    exact ⟨.refl, leaves_told hw e⟩

/-- Work on a mirror for one element after the other. -/
theorem proceeds_mapM {xs : List β} {f : β → DiskWork α} (hm : m.IsMade policy d)
    (hf : ∀ x ∈ xs, ∀ d', m.IsMade policy d' → Proceeds policy (f x) d' fun _ _ => True) :
    Proceeds policy (xs.mapM f) d fun _ _ => True := by
  induction xs generalizing d with
  | nil =>
      rw [List.mapM_nil]
      exact .pure trivial
  | cons x rest ih =>
      rw [List.mapM_cons]
      refine (hf x List.mem_cons_self d hm).bind fun _ d' hl _ => ?_
      refine (ih (hm.leads hl) fun y hy => hf y (List.mem_cons_of_mem _ hy)).bind fun _ _ _ _ => ?_
      exact .pure trivial

end Proceeds

/-- Writing a file is one step. -/
theorem proceeds_writeFile (hm : m.IsMade policy d) {wrap : FileError → Failure}
    (hw : ∀ e d, m.IsMade policy d → Leaves policy (wrap e) d) {relative : Path} (hr : relative.IsInner)
    (content : ByteArray) :
    Proceeds policy (m.writeFile wrap relative content) d fun _ _ => True := by
  have hl : Leads policy d (leaves (m.writeFile wrap relative content) d) :=
    .single (.writes wrap content hm hr)
  have h := writeFile_reaches (d := d) (m := m) wrap relative content
  unfold Proceeds
  unfold Reaches at h ⊢
  cases hret : returns (m.writeFile wrap relative content) d with
  | ok e => exact ⟨hl, trivial⟩
  | error f =>
      rw [hret] at h
      obtain ⟨_, _, e, rfl⟩ := h
      exact ⟨hl, leaves_told (fun e => hw e _ (hm.leads hl)) e⟩

theorem proceeds_makeScratch {wrap : FileError → Failure} (hw : ∀ e d, Leaves policy (wrap e) d) :
    Proceeds policy (makeScratch policy wrap) d fun m d' => m.IsMadeSince policy d d' := by
  unfold makeScratch Proceeds
  rw [reaches_get, reaches_bind, reaches_telling]
  have hp : Leads policy d
      { d with files := leaves (FileWork.makeDirectories policy.tempRoot) d.files } := .single .prepares
  refine (reaches_self (FileWork.makeDirectories policy.tempRoot) d.files).mono
    (fun _ files hfiles => ?_) fun e files hfiles => ?_
  · rw [← hfiles.2] at hp
    rw [reaches_bind, reaches_telling, FileWork.reaches_change]
    split
    · rename_i made hf
      have hmade := FileWork.about_eq_ok hf
      exact ⟨hp.tail (.makes hmade), d.scratches + 1, Nat.lt_succ_self _, Nat.le_refl _, rfl⟩
    · exact ⟨hp, leaves_told (fun e => hw e _) _⟩
  · rw [← hfiles.2] at hp
    exact ⟨hp, leaves_told (fun e => hw e _) e⟩

/-- The source files that are listed lie inside. -/
theorem proceeds_sources {wrap : FileError → Failure} (hw : ∀ e, Leaves policy (wrap e) d)
    (directory root : Path) :
    Proceeds policy (sources policy directory root wrap) d fun paths _ => ∀ p ∈ paths, p.IsInner := by
  have hall : Proceeds policy (telling wrap (FileWork.allFilesBelow directory)) d fun _ _ => True :=
    proceeds_telling (FileWork.looks_allFilesBelow directory) hw fun _ _ => trivial
  refine hall.bind fun files d' _ _ => .pure fun p hp => ?_
  obtain ⟨_, _, hr⟩ := List.mem_filterMap.mp hp
  exact Path.isInner_of_relativeTo? hr

theorem proceeds_copyFile (hm : m.IsMade policy d) {wrap : FileError → Failure}
    (hw : ∀ e d, m.IsMade policy d → Leaves policy (wrap e) d) (root : Path) {relative : Path}
    (hr : relative.IsInner) :
    Proceeds policy (m.copyFile root wrap relative) d fun _ _ => True := by
  unfold copyFile Proceeds
  rw [reaches_bind, reaches_telling]
  have hl : leaves (FileWork.read (root / relative)) d.files = d.files := FileWork.looks_ask _ _ _
  refine (reaches_self (FileWork.read (root / relative)) d.files).mono (fun content files hfiles => ?_)
    fun e files hfiles => ?_
  · rw [hfiles.2, hl]
    exact proceeds_writeFile hm hw hr content
  · rw [hfiles.2, hl]
    exact ⟨.refl, leaves_told (fun e => hw e d hm) e⟩

/-- A failure that leaves the directory of a mirror behind. -/
theorem leaves_mirror (cause : MirrorError.Cause) (root : Path) (hm : m.IsMade policy d) :
    Leaves policy (.mirror ⟨cause, root, some m.path⟩) d := by
  rintro e scratch he hs
  cases he
  cases hs
  exact hm

/-- A failure that leaves nothing behind. -/
theorem leaves_nothing {f : Failure} (hf : ∀ e, f = .mirror e → e.scratch = none) (d : Disk) :
    Leaves policy f d := by
  intro e scratch he hs
  rw [hf e he] at hs
  cases hs

/-- Making a mirror leaves a mirror, also where it fails. -/
theorem proceeds_create (policy : MirrorPolicy) (root : Path) (d : Disk) :
    Proceeds policy (create policy root) d fun r d' => r.1.IsMadeSince policy d d' := by
  have hroot : Proceeds policy (plainly (FileWork.isDirectory root)) d fun _ _ => True :=
    proceeds_telling (FileWork.looks_holds _ _) (fun _ => leaves_nothing (fun _ h => by cases h) _)
      fun _ _ => trivial
  unfold create
  refine hroot.bind fun there d₁ hl₁ _ => ?_
  split
  · exact ⟨.refl, leaves_nothing (fun _ h => by cases h; rfl) d₁⟩
  · refine (proceeds_makeScratch fun _ d => leaves_nothing (fun _ h => by cases h; rfl) d).bind
      fun m d₂ _ ⟨k, h0, hk, he⟩ => ?_
    have hsince : m.IsMadeSince policy d d₂ := ⟨k, Nat.lt_of_le_of_lt hl₁.scratches_le h0, hk, he⟩
    have hm := hsince.isMade
    refine (proceeds_sources (fun _ => leaves_mirror _ _ hm) root root).bind fun paths d₃ hl hp => ?_
    refine (proceeds_mapM (hm.leads hl) fun p hmem d hm => ?_).bind fun entries d₄ hl' _ => ?_
    · exact proceeds_copyFile hm (fun _ _ h => leaves_mirror _ _ h) root (hp p hmem)
    · exact .pure ((hsince.leads hl).leads hl')

theorem proceeds_overlay (hm : m.IsMade policy d) (root : Path) {documents : List (Path × ByteArray)}
    (hd : ∀ x ∈ documents, x.1.IsInner) :
    Proceeds policy (m.overlay root documents) d fun _ _ => True :=
  proceeds_mapM hm fun x hx _ hm' =>
    proceeds_writeFile hm' (fun _ _ h => leaves_mirror _ _ h) (hd x hx) _

theorem proceeds_update (hm : m.IsMade policy d) {relative : Path} (hr : relative.IsInner)
    (content : ByteArray) : Proceeds policy (m.update relative content) d fun _ _ => True :=
  proceeds_writeFile hm (fun _ d _ => leaves_nothing (fun _ h => by cases h) d) hr content

theorem isInner_of_checkedRelative {root path relative : Path}
    (h : checkedRelative policy root path = .ok relative) : relative.IsInner := by
  unfold checkedRelative at h
  simp only at h
  split at h
  · cases h
  · rename_i hr
    split at h
    · cases h
      exact Path.isInner_of_relativeTo? hr
    · cases h

/-- The files that a created path stands for lie inside the workspace. -/
theorem proceeds_createdSources (root path : Path) :
    Proceeds policy (createdSources policy root path) d fun paths _ => ∀ p ∈ paths, p.IsInner := by
  have hthere : Proceeds policy
      (telling (fun e => .copy (.uncopied path e)) (FileWork.isDirectory path)) d fun _ _ => True :=
    proceeds_telling (FileWork.looks_holds _ _) (fun _ => leaves_nothing (fun _ h => by cases h) _)
      fun _ _ => trivial
  unfold createdSources
  refine hthere.bind fun there d₁ _ _ => ?_
  split
  · split
    · exact proceeds_sources (fun _ => leaves_nothing (fun _ h => by cases h) _) path root
    · exact ⟨.refl, leaves_nothing (fun _ h => by cases h) d₁⟩
  · split
    · rename_i relative hr
      refine .pure fun p hp => ?_
      rw [List.mem_singleton.mp hp]
      exact isInner_of_checkedRelative hr
    · exact ⟨.refl, leaves_nothing (fun _ h => by cases h) d₁⟩

theorem proceeds_copyCreated (hm : m.IsMade policy d) (root path : Path) :
    Proceeds policy (m.copyCreated policy root path) d fun _ _ => True := by
  unfold copyCreated
  refine (proceeds_createdSources root path).bind fun paths d₁ hl hp => ?_
  exact proceeds_mapM (hm.leads hl) fun p hmem d hm =>
    proceeds_copyFile hm (fun _ d _ => leaves_nothing (fun _ h => by cases h) d) root (hp p hmem)

theorem looks_isThere (m : Mirror) : Looks m.isThere := looks_telling (FileWork.looks_holds _ _)

/-- The directory of a mirror is missing. -/
def IsMissing (m : Mirror) (d : Disk) : Prop := Work.returns m.isThere d = .ok false

theorem looks_isUpToDate (m : Mirror) (index : Index) (relative : Path) (content : ByteArray) :
    Looks (m.isUpToDate index relative content) := by
  unfold isUpToDate
  split
  · exact looks_pure _
  · split
    · exact looks_telling (FileWork.looks_holds _ _)
    · exact looks_pure _

end Mirror

end InkServer
