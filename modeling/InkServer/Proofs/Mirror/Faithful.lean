import InkServer.Proofs.Mirror.Beside
import InkServer.Proofs.Workspace.Custody

/-!
# Faithful mirrors

A mirror is faithful if it stands and its index tells of each file what was last written to it. It stays so when it
is written to, and what is done for other mirrors leaves it alone.
-/

namespace InkServer

open Work FileSystem

namespace Mirror

variable {s s' s'' : ServerState} {m : Mirror} {relative : Path} {content : ByteArray}

/-- A mirror that stands and whose index tells the truth. -/
structure IsFaithful (m : Mirror) (s : ServerState) : Prop where
  stands : m.Stands s.policy s.disk
  isTrue : (s.indexOf m).IsTrue m s.disk

/-- Nothing was done in a mirror, and nothing was noted of it. -/
structure IsLeftAlone (m : Mirror) (s s' : ServerState) : Prop where
  policy : s'.policy = s.policy
  scratches : s.disk.scratches ≤ s'.disk.scratches
  history : s.disk.history <+: s'.disk.history
  untouched : m.Untouched s.disk.files s'.disk.files
  index : s'.indexOf m = s.indexOf m

namespace IsLeftAlone

theorem refl : m.IsLeftAlone s s := ⟨rfl, Nat.le_refl _, List.prefix_refl _, .refl, rfl⟩

theorem trans (h : m.IsLeftAlone s s') (h' : m.IsLeftAlone s' s'') : m.IsLeftAlone s s'' :=
  ⟨h'.policy.trans h.policy, h.scratches.trans h'.scratches, h.history.trans h'.history,
    h.untouched.trans h'.untouched, h'.index.trans h.index⟩

/-- Only what is kept of mirrors matters. -/
theorem of_same (hp : s'.policy = s.policy) (hd : s'.disk = s.disk) (hi : s'.indexes = s.indexes) :
    m.IsLeftAlone s s' := by
  refine ⟨hp, hd ▸ Nat.le_refl _, hd ▸ List.prefix_refl _, hd ▸ .refl, ?_⟩
  unfold ServerState.indexOf
  rw [hi]

end IsLeftAlone

theorem IsFaithful.leftAlone (h : m.IsFaithful s) (ha : m.IsLeftAlone s s') : m.IsFaithful s' := by
  refine ⟨ha.policy ▸ h.stands.untouched ha.scratches ha.untouched, ?_⟩
  rw [ha.index]
  exact h.isTrue.untouched h.stands ha.untouched ha.history

/-- A mirror holds what was written last of each document. -/
def HoldsAll (m : Mirror) (fs : FileSystem) (documents : List (Path × ByteArray)) : Prop :=
  ∀ relative content, latest relative documents = some content → m.content? fs relative = some content

theorem IsFaithful.content?_leftAlone (h : m.IsFaithful s) (ha : m.IsLeftAlone s s') (hr : relative.IsInner)
    (hc : m.content? s.disk.files relative = some content) : m.content? s'.disk.files relative = some content :=
  h.stands.content?_untouched ha.untouched hr hc

theorem IsFaithful.holdsAll_leftAlone (h : m.IsFaithful s) (ha : m.IsLeftAlone s s')
    {documents : List (Path × ByteArray)} (hd : ∀ x ∈ documents, x.1.IsInner)
    (hh : m.HoldsAll s.disk.files documents) : m.HoldsAll s'.disk.files documents := fun relative content hl =>
  h.content?_leftAlone ha (hd _ (mem_of_latest hl)) (hh relative content hl)

/-! ## Writing into a mirror -/

end Mirror

/-- The server after something was done for a mirror and noted in its index. -/
def ServerState.indexing (s : ServerState) (m : Mirror) (d : Disk) (index : Mirror.Index) : ServerState :=
  { s with disk := d, indexes := s.indexes.insert m.path index }

namespace Mirror

open Disk

variable {s : ServerState} {m other : Mirror} {base : Place} {d : Disk} {contents : List (Path × ByteArray)}
  {index : Index} {relative root : Path} {content : ByteArray}

theorem path_ne (h : other ≠ m) : other.path ≠ m.path := fun he => h (by cases other; cases m; exact congrArg _ he)

theorem indexOf_indexing (s : ServerState) (m : Mirror) (d : Disk) (index : Index) :
    (s.indexing m d index).indexOf m = index := by
  show ((s.indexes.insert m.path index).get? m.path).getD {} = _
  rw [Dict.get?_insert_self]
  rfl

theorem indexOf_indexing_of_ne (h : other ≠ m) : (s.indexing m d index).indexOf other = s.indexOf other := by
  show ((s.indexes.insert m.path index).get? other.path).getD {} = _
  rw [Dict.get?_insert_of_ne _ _ (path_ne h).symm]
  rfl

/-- Another mirror was left alone as far as its files were. -/
theorem isLeftAlone_indexing (hs : s.disk.scratches ≤ d.scratches) (hh : s.disk.history <+: d.history)
    (hu : other.Untouched s.disk.files d.files) (hne : other ≠ m) : other.IsLeftAlone s (s.indexing m d index) :=
  ⟨rfl, hs, hh, hu, indexOf_indexing_of_ne hne⟩

section Fills

variable (hf : m.Fills base s.disk contents d) (hc : Confined s.policy s.disk d)

include hf hc

omit hc in
theorem Fills.holdsAll : m.HoldsAll d.files contents := fun relative content hl =>
  hf.holds relative content (hf.inner _ (mem_of_latest hl)) (by rw [hl]; rfl)

/-- A mirror stays faithful if what is written into it is noted. -/
theorem Fills.isFaithful (h : m.IsFaithful s) :
    m.IsFaithful (s.indexing m d ((s.indexOf m).record (contents.map fun w => .ofContent w.1 w.2))) := by
  refine ⟨⟨h.stands.made.confined hc, h.stands.clean, h.stands.short, base, hf.standsAt⟩, ?_⟩
  rw [indexOf_indexing]
  exact h.isTrue.fills hf

theorem Fills.isLeftAlone (ht : s.disk.files.IsTidy s.policy s.disk.scratches) (hm : m.Stands s.policy s.disk)
    (ho : other.Stands s.policy s.disk) (hne : other ≠ m) : other.IsLeftAlone s (s.indexing m d index) :=
  isLeftAlone_indexing hc.scratches (hf.history ▸ List.prefix_append _ _) (hf.untouched ht hc hm ho hne) hne

end Fills

/-- Writing one file fills it with what was to be written. -/
theorem writeFile_faithfully (h : m.IsFaithful s) (ht : s.disk.files.IsTidy s.policy s.disk.scratches)
    (wrap : FileError → Failure) (hr : relative.IsInner) (content : ByteArray) (hs : s.policy.isSource relative) :
    Reaches (m.writeFile wrap relative content) s.disk
      (fun e d => e = .ofContent relative content ∧ Confined s.policy s.disk d ∧
        ∃ base, m.Fills base s.disk [(relative, content)] d)
      fun _ _ => True := by
  obtain ⟨base, hbase⟩ := h.stands.there
  have hconfined := reaches_leaves.mpr (confined_writeFile ht h.stands.made wrap hr hs content)
  exact ((writeFile_fills hbase wrap hr content).and hconfined).mono
    (fun e d ⟨⟨hf, he⟩, hc⟩ => ⟨he, hc, base, hf⟩) fun _ _ _ => trivial

/-- Writing documents over the copies fills a mirror with them. -/
theorem overlay_faithfully (h : m.IsFaithful s) (ht : s.disk.files.IsTidy s.policy s.disk.scratches) (root : Path)
    {documents : List (Path × ByteArray)} (hd : ∀ x ∈ documents, x.1.IsInner ∧ s.policy.isSource x.1) :
    Reaches (m.overlay root documents) s.disk
      (fun entries d => entries = documents.map (fun w => .ofContent w.1 w.2) ∧ Confined s.policy s.disk d ∧
        ∃ base, m.Fills base s.disk documents d)
      fun _ _ => True := by
  obtain ⟨base, hbase⟩ := h.stands.there
  have hfills : m.FillsWith base documents Eq (m.overlay root documents) s.disk :=
    mapM_fillsWith hbase fun x hx d hbase => (writeFile_fills hbase _ (hd x hx).1 x.2).mono
      (fun e d' ⟨hf, he⟩ => ⟨x, rfl, hf, he⟩) fun _ _ hf => hf
  refine (hfills.and (confined_overlay ht h.stands.made root hd)).mono
    (fun entries d ⟨⟨contents, hf, hall, he⟩, hc⟩ => ?_) fun _ _ _ => trivial
  obtain rfl : documents = contents := List.forall₂_eq_eq_eq ▸ hall
  exact ⟨he, hc, base, hf⟩

/-! ## Making and deleting mirrors -/

/-- A mirror that is made is faithful, and it is none of those that were there, which are left alone. -/
theorem create_faithfully (ht : s.disk.files.IsTidy s.policy s.disk.scratches) (root : Path) :
    Reaches (create s.policy root) s.disk
      (fun (m, index) d => d.files.IsTidy s.policy d.scratches ∧ m.IsFaithful (s.indexing m d index) ∧
        ∀ other : Mirror, other.Stands s.policy s.disk →
          other ≠ m ∧ other.IsLeftAlone s (s.indexing m d index))
      fun _ _ => True := by
  refine ((create_stands ht root).and ((confined_create ht root).and (create_grows s.policy root s.disk))).mono
    (fun (m, index) d ⟨⟨hm, htrue, hothers⟩, ⟨hc, _⟩, hgrows⟩ => ?_) fun _ _ _ => trivial
  refine ⟨hc.tidy, ⟨hm, (indexOf_indexing s m d index).symm ▸ htrue⟩, fun other ho => ?_⟩
  obtain ⟨hne, huntouched⟩ := hothers other ho
  exact ⟨hne, isLeftAlone_indexing hc.scratches hgrows.history huntouched hne⟩

/-- The deletion of a mirror leaves the others alone. -/
theorem isLeftAlone_delete (ht : s.disk.files.IsTidy s.policy s.disk.scratches) (hm : m.IsMade s.policy s.disk)
    (ho : other.Stands s.policy s.disk) (hne : other ≠ m) :
    other.IsLeftAlone s { s with disk := (m.delete.run s.disk).2 } := by
  have hhistory : s.disk.history <+: (m.delete.run s.disk).2.history := by
    rw [run_delete]
    exact List.prefix_append _ _
  have hscratches := (confined_delete ht hm).scratches
  have huntouched := untouched_delete ht hm ho hne
  generalize (m.delete.run s.disk).2 = d at *
  exact ⟨rfl, hscratches, hhistory, huntouched, rfl⟩

end Mirror

end InkServer
