import InkServer.Proofs.Mirror.Contents

/-!
# New mirrors

The directory of a new mirror is made where nothing stood, so that there is nothing below it. What its
entries say is what was copied into it.
-/

namespace InkServer

open Work

namespace Mirror

open FileSystem DiskWork

variable {m : Mirror} {base : Place} {fs fs' : FileSystem} {d d' : Disk}

/-! ## Indexes -/

/-- An index that says what was written to each file. -/
def Index.Tells (index : Index) (contents : List (Path × ByteArray)) : Prop :=
  ∀ relative, index.get? relative = (latest relative contents).map (.ofContent relative)

/-- What is noted last of a file is what the index says of it. -/
theorem Index.get?_record (index : Index) (written : List (Path × ByteArray)) (relative : Path) :
    (index.record (written.map fun w => .ofContent w.1 w.2)).get? relative =
      ((latest relative written).map (.ofContent relative)).or (index.get? relative) := by
  induction written generalizing index with
  | nil => rfl
  | cons w rest ih =>
      show (Index.record (index.insert w.1 (.ofContent w.1 w.2)) _).get? relative = _
      rw [ih, Dict.get?_insert, ← List.singleton_append, latest_append, latest_singleton]
      cases latest relative rest with
      | some c => rfl
      | none =>
          split
          · rename_i he
            subst he
            rfl
          · rfl

theorem Index.Tells.record {index : Index} {contents : List (Path × ByteArray)} (h : index.Tells contents)
    (written : List (Path × ByteArray)) :
    (index.record (written.map fun w => .ofContent w.1 w.2)).Tells (contents ++ written) := by
  intro relative
  rw [Index.get?_record, h relative, latest_append]
  cases latest relative written <;> rfl

theorem Index.tells_nil : Index.Tells {} [] := fun _ => rfl

/-! ## Making a mirror -/

/-- The directory of a mirror that was made where nothing stood has nothing below it. -/
theorem standsAt_makeDirectory {p : Path} (hc : fs.IsClosed) (h : fs.makeDirectory p = .ok fs') :
    ∃ base, (Mirror.mk p).StandsAt base fs' := by
  unfold makeDirectory at h
  split at h
  · cases h
  · cases h
  · rename_i place hfind
    cases h
    unfold find at hfind
    split at hfind
    · cases hfind
    · obtain ⟨_, name, directory, _, _, _, hnone, hplace⟩ := way_of_walk_none hfind
      have hne : place ≠ [] := hplace ▸ List.append_ne_nil_of_right_ne_nil _ (List.cons_ne_nil _ _)
      refine ⟨place, way_put_directory hfind, fun below target hb => ?_⟩
      rw [node?_put fs _ hne]
      split
      · exact nofun
      · rw [hc.below_eq_none (hplace ▸ hnone) below]
        exact nofun

end Mirror

namespace FileWork

/-- What every making of a directory keeps is kept when directories are made as far as they are missing. Only
such directories are made as lie on the way to the last. -/
theorem ensureDirectories_keeps {q : FileSystem → Prop} (above : Path → Prop)
    (ha : ∀ p, above p → above p.parent)
    (hq : ∀ fs p fs', above p → q fs → fs.makeDirectory p = .ok fs' → q fs') (depth : Nat) (p : Path)
    (hp : above p) {fs : FileSystem} (h : q fs) : q (leaves (ensureDirectories depth p) fs) := by
  have hchange : ∀ {fs : FileSystem} {p : Path}, above p → q fs →
      q (leaves (change p fun fs => fs.makeDirectory p) fs) := by
    intro fs p hp h
    refine reaches_leaves.mp (reaches_change.mpr ?_)
    split
    · rename_i hmade
      exact hq _ _ _ hp h (about_eq_ok hmade)
    · exact h
  induction depth generalizing p fs with
  | zero =>
      rw [ensureDirectories, leaves_ensureDirectory]
      exact hchange hp h
  | succ depth ih =>
      unfold ensureDirectories
      rw [leaves_attempt_bind]
      have hmade := hchange hp h
      split
      · exact hmade
      · split
        · split
          · exact hmade
          · rw [leaves_bind]
            split
            · rw [leaves_ensureDirectory]
              exact hchange hp (ih _ (ha p hp) hmade)
            · exact ih _ (ha p hp) hmade
        · rw [looks_unlessDirectory]
          exact hmade
      · exact hmade

end FileWork

namespace Mirror

open FileSystem DiskWork

variable {m : Mirror} {base : Place} {fs fs' : FileSystem} {d d' : Disk} {policy : MirrorPolicy}

theorem makeScratch_standsAt (wrap : FileError → Failure) (hc : d.files.IsClosed) :
    Reaches (makeScratch policy wrap) d
      (fun m d' => (∃ base, m.StandsAt base d'.files) ∧ d'.history = d.history) fun _ _ => True := by
  unfold makeScratch
  rw [reaches_get, reaches_bind, reaches_telling]
  have hclosed : (leaves (FileWork.makeDirectories policy.tempRoot) d.files).IsClosed :=
    FileWork.ensureDirectories_keeps (fun _ => True) (fun _ _ => trivial)
      (fun _ _ _ _ h hm => h.makeDirectory hm) _ _ trivial hc
  refine (reaches_self (FileWork.makeDirectories policy.tempRoot) d.files).mono (fun _ files hf => ?_)
    fun _ _ _ => trivial
  rw [← hf.2] at hclosed
  rw [reaches_bind, reaches_telling, FileWork.reaches_change]
  split
  · rename_i made hmade
    exact ⟨standsAt_makeDirectory hclosed (FileWork.about_eq_ok hmade), rfl⟩
  · trivial

/-- A new mirror holds what its entries say. -/
theorem create_fills (hc : d.files.IsClosed) (root : Path) :
    Reaches (create policy root) d
      (fun (m, index) d' => ∃ base d₁ contents, m.Fills base d₁ contents d' ∧ index.Tells contents ∧
        d₁.history = d.history)
      fun _ _ => True := by
  unfold create
  rw [reaches_bind]
  refine (looks_telling (FileWork.looks_holds root _)).reaches (fun there _ => ?_) fun _ _ => trivial
  split
  · trivial
  · rw [reaches_bind]
    refine (makeScratch_standsAt _ hc).mono (fun m d₁ ⟨⟨base, hm⟩, hhistory⟩ => ?_) fun _ _ _ => trivial
    rw [reaches_bind]
    refine (sources_reaches _ _ _ _ _).mono (fun paths d₂ ⟨hd, hp⟩ => ?_) fun _ _ _ => trivial
    subst hd
    rw [reaches_bind]
    refine (copyFiles_fillsWith hm root _ hp).mono (fun entries d₃ ⟨contents, hfill, _, he⟩ => ?_)
      fun _ _ _ => trivial
    rw [reaches_pure, he]
    exact ⟨base, d₂, contents, hfill, Index.tells_nil.record contents, hhistory⟩

end Mirror

end InkServer
