import InkServer.Proofs.Mirror.Effects
import InkServer.Proofs.Mirror.Sources

/-!
# Work on mirrors is confined

Making a mirror, writing documents over it, bringing one file or what was created into it and deleting it: all
of that touches files by the few effects that mirrors allow, and leaves the files tidy, also where it fails.
What is refused touches nothing, and a deletion that succeeds leaves nothing.
-/

namespace InkServer

open Work

namespace Mirror

open FileSystem DiskWork Disk

variable {α β : Type} {policy : MirrorPolicy} {d d' : Disk} {m : Mirror} {relative : Path}

theorem IsMade.confined (h : m.IsMade policy d) (hc : Confined policy d d') : m.IsMade policy d' := by
  obtain ⟨k, h0, hk, he⟩ := h
  exact ⟨k, h0, Nat.le_trans hk hc.scratches, he⟩

/-- Work on one element after the other is confined if each piece of it is. -/
theorem confined_mapM {xs : List β} {f : β → DiskWork α} (h : d.files.IsTidy policy d.scratches)
    (hf : ∀ x ∈ xs, ∀ d', Confined policy d d' → Confined policy d' (leaves (f x) d')) :
    Reaches (xs.mapM f) d (fun _ d' => Confined policy d d') fun _ d' => Confined policy d d' :=
  reaches_mapM (Confined.refl h) fun x hx d' hd => reaches_leaves.mpr (hd.trans (hf x hx d' hd))

theorem confined_copyFile (h : d.files.IsTidy policy d.scratches) (hm : m.IsMade policy d) (root : Path)
    (wrap : FileError → Failure) (hr : relative.IsInner ∧ policy.isSource relative) :
    Confined policy d (leaves (m.copyFile root wrap relative) d) := by
  refine reaches_leaves.mp ?_
  unfold copyFile
  rw [reaches_bind]
  refine (looks_telling (FileWork.looks_ask _ _)).reaches (fun content _ => ?_) fun _ _ => Confined.refl h
  exact reaches_leaves.mpr (confined_writeFile h hm wrap hr.1 hr.2 content)

/-- Copying files into a mirror is confined. -/
theorem confined_copyFiles (h : d.files.IsTidy policy d.scratches) (hm : m.IsMade policy d) (root : Path)
    (wrap : Path → FileError → Failure) {paths : List Path} (hp : ∀ p ∈ paths, p.IsInner ∧ policy.isSource p) :
    Reaches (paths.mapM fun p => m.copyFile root (wrap p) p) d (fun _ d' => Confined policy d d')
      fun _ d' => Confined policy d d' :=
  confined_mapM h fun p hmem _ hd => confined_copyFile hd.tidy (hm.confined hd) root (wrap p) (hp p hmem)

theorem confined_makeScratch (h : d.files.IsTidy policy d.scratches) (wrap : FileError → Failure) :
    Reaches (makeScratch policy wrap) d (fun m d' => Confined policy d d' ∧ m.IsMade policy d')
      fun _ d' => Confined policy d d' := by
  have hprepared := FileWork.effects_prepare h
  unfold makeScratch
  rw [reaches_get, reaches_bind, reaches_telling]
  refine (reaches_self (FileWork.makeDirectories policy.tempRoot) d.files).mono (fun _ files hf => ?_)
    fun _ files hf => by
      rw [← hf.2] at hprepared
      exact confined_files h hprepared
  rw [← hf.2] at hprepared
  have hfiles := confined_files h hprepared
  rw [reaches_bind, reaches_telling, FileWork.reaches_change]
  split
  · rename_i made hmade
    obtain ⟨heffect, htidy⟩ := hfiles.tidy.makes (FileWork.about_eq_ok hmade)
    exact ⟨⟨Nat.le_succ _, (effects_mono hprepared (Nat.le_succ _)).tail heffect, htidy⟩,
      d.scratches + 1, Nat.succ_pos _, Nat.le_refl _, rfl⟩
  · exact hfiles

/-- Making a mirror is confined, wherever it fails. -/
theorem confined_create (h : d.files.IsTidy policy d.scratches) (root : Path) :
    Reaches (create policy root) d (fun r d' => Confined policy d d' ∧ r.1.IsMade policy d')
      fun _ d' => Confined policy d d' := by
  unfold create
  rw [reaches_bind]
  refine (looks_telling (FileWork.looks_holds root _)).reaches (fun there _ => ?_) fun _ _ => Confined.refl h
  split
  · exact Confined.refl h
  · rw [reaches_bind]
    refine (confined_makeScratch h _).mono (fun m d₁ ⟨hd, hm⟩ => ?_) fun _ _ hd => hd
    rw [reaches_bind]
    refine (sources_isSource hd.tidy.tree root root _).mono (fun paths d₂ ⟨hsame, hp⟩ => ?_)
      fun _ d₂ hsame => hsame ▸ hd
    subst hsame
    rw [reaches_bind]
    refine (confined_copyFiles hd.tidy hm root _ hp).mono (fun entries d₃ hd' => ?_) fun _ d₃ hd' => hd.trans hd'
    exact ⟨hd.trans hd', hm.confined hd'⟩

theorem confined_overlay (h : d.files.IsTidy policy d.scratches) (hm : m.IsMade policy d) (root : Path)
    {documents : List (Path × ByteArray)} (hd : ∀ x ∈ documents, x.1.IsInner ∧ policy.isSource x.1) :
    Reaches (m.overlay root documents) d (fun _ d' => Confined policy d d') fun _ d' => Confined policy d d' :=
  confined_mapM h fun x hx _ hd' =>
    confined_writeFile hd'.tidy (hm.confined hd') _ (hd x hx).1 (hd x hx).2 x.2

theorem confined_copyCreated (h : d.files.IsTidy policy d.scratches) (hm : m.IsMade policy d) (root path : Path) :
    Reaches (m.copyCreated policy root path) d (fun _ d' => Confined policy d d')
      fun _ d' => Confined policy d d' := by
  unfold copyCreated
  rw [reaches_bind]
  refine (createdSources_isSource h.tree root path).mono (fun paths d₁ ⟨hsame, hp⟩ => ?_) fun _ d₁ hsame => ?_
  · subst hsame
    exact confined_copyFiles h hm root (fun _ e => .copy (.uncopied path e)) hp
  · subst hsame
    exact Confined.refl h

/-! ## Deleting -/

variable {fs fs' : FileSystem} {mirrors k : Nat} {home place : Place}

/-- A single name finds what bears it. -/
theorem walk_single {name : String} (hup : name ≠ "..") {found : Option FileNode} {left : Nat}
    (h : fs.walk false left home [name] = .ok (place, found)) :
    place = home ++ [name] ∧ found = fs.node? (home ++ [name]) := by
  by_cases hn : IsName name
  · rw [walk_eq_descend, descend_name hn] at h
    cases hnode : fs.node? (home ++ [name]) with
    | none =>
        rw [hnode] at h
        cases h
        exact ⟨rfl, rfl⟩
    | some n =>
        rw [hnode] at h
        cases n with
        | directory =>
            cases h
            exact ⟨rfl, rfl⟩
        | file c =>
            cases h
            exact ⟨rfl, rfl⟩
        | link target =>
            cases h
            exact ⟨rfl, rfl⟩
  · rw [walk_of_not_isName hup hn] at h
    cases h

/-- What a path to something in the directory for mirrors finds. -/
theorem find_beside (hway : fs.Way maxLinks [] policy.tempRoot.segments home) {p : Path} {name : String}
    (hp : p.segments = policy.tempRoot.segments ++ [name]) (hup : name ≠ "..") {found : Option FileNode}
    (h : fs.find false p = .ok (place, found)) : place = home ++ [name] ∧ found = fs.node? (home ++ [name]) := by
  obtain ⟨left, hwalk⟩ := hway.walk_append (List.cons_ne_nil name []) false
  have hfound := walk_of_find h
  rw [hp, hwalk] at hfound
  exact walk_single hup hfound

theorem outputName_ne_up (number : Nat) : outputName number ≠ ".." := by
  intro h
  have hlist := congrArg String.toList h
  unfold outputName at hlist
  rw [String.toList_append, toList_scratchName] at hlist
  exact absurd (List.cons.inj hlist).1 (by decide)

theorem effects_removeTree (h : fs.IsTidy policy mirrors) (h0 : 0 < k) (hk : k ≤ mirrors) {p : Path}
    (hp : p = policy.tempRoot.child (scratchName k)) :
    Effects policy mirrors fs (leaves (FileWork.removeTree p) fs) := by
  obtain ⟨home, hs⟩ := h.shelters (Nat.ne_of_gt (Nat.lt_of_lt_of_le h0 hk))
  refine reaches_leaves.mp ?_
  unfold FileWork.removeTree
  rw [reaches_get]
  split
  · exact .refl
  · exact .refl
  · exact .refl
  · exact .refl
  · rename_i place hfind
    have hsegments : p.segments = policy.tempRoot.segments ++ [scratchName k] := hp ▸ segments_scratch policy k
    obtain ⟨rfl, _⟩ := find_beside hs.way hsegments (scratchName_ne_up k) (FileWork.about_eq_ok hfind)
    exact .single (.deletes hs.way h0 hk)

theorem effects_unlink (h : fs.IsTidy policy mirrors) (h0 : 0 < k) (hk : k ≤ mirrors)
    (hm : m.path = policy.tempRoot.child (scratchName k)) :
    Effects policy mirrors fs (leaves (FileWork.unlink m.outputPath) fs) := by
  obtain ⟨home, hs⟩ := h.shelters (Nat.ne_of_gt (Nat.lt_of_lt_of_le h0 hk))
  refine reaches_leaves.mp (FileWork.reaches_change.mpr ?_)
  split
  · rename_i fs' hunlinked
    have hunlinked := FileWork.about_eq_ok hunlinked
    unfold FileSystem.unlink at hunlinked
    split at hunlinked
    · cases hunlinked
    · cases hunlinked
    · cases hunlinked
    · rename_i place n hnot hfind
      cases hunlinked
      obtain ⟨rfl, hn⟩ := find_beside hs.way (segments_outputPath hm) (outputName_ne_up k) hfind
      cases n with
      | directory => exact (hnot rfl).elim
      | file c => exact .single (.clears hs.way h0 hk hn.symm)
      | link target => exact absurd hn.symm (h.noLinks home k target)
  · exact .refl

/-- Deleting a mirror is confined to the mirror and what was compiled beside it. -/
theorem confined_delete (h : d.files.IsTidy policy d.scratches) (hm : m.IsMade policy d) :
    Confined policy d (m.delete.run d).2 := by
  obtain ⟨k, h0, hk, hpath⟩ := hm
  have hremoved := effects_removeTree h h0 hk hpath
  have hall := hremoved.trans (effects_unlink (isTidy_effects h hremoved) h0 hk hpath)
  rw [run_delete]
  exact ⟨Nat.le_refl _, hall, isTidy_effects h hall⟩

/-! ## What a deletion leaves -/

theorem shelters_effects (h : IsTidy policy mirrors fs) (hs : Shelters policy mirrors home fs)
    (he : Effects policy mirrors fs fs') : Shelters policy mirrors home fs' := by
  induction he with
  | refl => exact hs
  | tail hbefore he ih => exact ih.effect (isTidy_effects h hbefore).tree he

/-- What the path of a mirror finds. -/
theorem find_scratch (hs : Shelters policy mirrors home fs) (h0 : 0 < k) (hk : k ≤ mirrors) {p : Path}
    (hp : p = policy.tempRoot.child (scratchName k)) (follow : Bool) :
    fs.find follow p =
      if maxPath ≤ p.text.utf8ByteSize then .error .nameTooLong
      else .ok (placeOf home k, fs.node? (placeOf home k)) := by
  have hsegments : p.segments = policy.tempRoot.segments ++ [scratchName k] := hp ▸ segments_scratch policy k
  split
  · rename_i hlong
    exact if_pos hlong
  · rename_i hshort
    refine (hs.find_eq_ok_iff h0 hk hsegments List.not_mem_nil follow).mpr ⟨hshort, fun h => absurd rfl h, ?_, ?_⟩
    · exact (List.append_nil _).symm
    · rfl

/-- A removal of the directory of a mirror leaves nothing there, unless it fails for another reason than that nothing
was there. -/
theorem reaches_removeTree (hs : Shelters policy mirrors home fs) (h0 : 0 < k) (hk : k ≤ mirrors) {p : Path}
    (hp : p = policy.tempRoot.child (scratchName k)) :
    Reaches (FileWork.removeTree p) fs
      (fun _ fs' => fs'.node? (placeOf home k) = none ∧ p.text.utf8ByteSize < maxPath) fun e fs' =>
        ∀ e', e = .os e' → e'.cause = .noEntry →
          fs'.node? (placeOf home k) = none ∧ p.text.utf8ByteSize < maxPath := by
  unfold FileWork.removeTree FileWork.about
  rw [reaches_get, find_scratch hs h0 hk hp]
  by_cases hnull : FileWork.hasNull p
  · rw [if_pos hnull]
    exact nofun
  rw [if_neg hnull]
  by_cases hlong : maxPath ≤ p.text.utf8ByteSize
  · rw [if_pos hlong]
    rintro _ he hcause
    cases he
    cases hcause
  rw [if_neg hlong]
  have hshort := Nat.lt_of_not_le hlong
  cases hn : fs.node? (placeOf home k) with
  | none => exact fun _ _ _ => ⟨hn, hshort⟩
  | some n =>
      cases n with
      | directory =>
          refine ⟨?_, hshort⟩
          show (fs.drop _).node? _ = none
          rw [node?_drop fs (placeOf_ne_nil home k), if_pos (List.prefix_refl _)]
      | file | link =>
          rintro _ he hcause
          cases he
          all_goals cases hcause

theorem removed_of_delete (h : (m.delete.run d).1) : ((removed (FileWork.removeTree m.path)).run d).1 := by
  unfold delete at h
  rw [run_bind, run_bind] at h
  exact (Bool.and_eq_true_iff.mp h).1

theorem returns_of_removed {work : FileWork Unit} (h : ((removed work).run d).1) :
    returns work d.files = .ok () ∨ ∃ e, returns work d.files = .error (.os e) ∧ e.cause = .noEntry := by
  unfold removed at h
  rw [run_bind] at h
  have ha : (attempt work).run.run d = (.ok (returns work d.files), { d with files := leaves work d.files }) := rfl
  rw [ha] at h
  revert h
  cases returns work d.files with
  | ok => exact fun _ => .inl rfl
  | error e =>
      cases e with
      | os e => exact fun h => .inr ⟨e, rfl, eq_of_beq h⟩
      | nullCharacter => exact nofun
      | refused => exact nofun

/-- Nothing appears where something is removed elsewhere. -/
theorem node?_unlink (hs : Shelters policy mirrors home fs) (hm : m.path = policy.tempRoot.child (scratchName k))
    (hn : fs.node? place = none) : (leaves (FileWork.unlink m.outputPath) fs).node? place = none := by
  refine reaches_leaves (p := fun fs' : FileSystem => fs'.node? place = none) |>.mp (FileWork.reaches_change.mpr ?_)
  split
  · rename_i fs' hunlinked
    have hunlinked := FileWork.about_eq_ok hunlinked
    unfold FileSystem.unlink at hunlinked
    split at hunlinked <;> cases hunlinked
    rename_i at_ n hnot hfind
    obtain ⟨rfl, _⟩ := find_beside hs.way (segments_outputPath hm) (outputName_ne_up k) hfind
    rw [node?_drop fs (output_ne_nil home k), hn]
    exact ite_self none
  · exact hn

/-- A mirror is missing if nothing stands in its place. -/
theorem isMissing_of_node?_none (hs : Shelters policy d.scratches home d.files) (h0 : 0 < k) (hk : k ≤ d.scratches)
    (hm : m.path = policy.tempRoot.child (scratchName k)) (hshort : m.path.text.utf8ByteSize < maxPath)
    (hn : d.files.node? (placeOf home k) = none) : m.IsMissing d := by
  have hfind := find_scratch hs h0 hk hm true
  rw [if_neg (Nat.not_le_of_lt hshort), hn] at hfind
  have hstat : d.files.stat m.path = .error .noEntry := by
    unfold FileSystem.stat
    rw [hfind]
  have hthere : Reaches m.isThere d (fun there _ => there = false) fun _ _ => False := by
    unfold isThere plainly FileWork.isDirectory FileWork.holds
    rw [reaches_telling, reaches_get]
    split
    · rfl
    · rw [hstat]
      rfl
  unfold Reaches at hthere
  unfold IsMissing
  split at hthere
  · rename_i there he
    rw [he, hthere]
  · exact hthere.elim

/-- A deletion that succeeds leaves nothing of the mirror. -/
theorem isMissing_of_delete (h : d.files.IsTidy policy d.scratches) (hm : m.IsMade policy d)
    (hd : (m.delete.run d).1) : m.IsMissing (m.delete.run d).2 := by
  obtain ⟨k, h0, hk, hpath⟩ := hm
  obtain ⟨home, hs⟩ := h.shelters (Nat.ne_of_gt (Nat.lt_of_lt_of_le h0 hk))
  have hremoved := effects_removeTree h h0 hk hpath
  have htidy := isTidy_effects h hremoved
  have hunlinked := effects_unlink htidy h0 hk hpath
  obtain ⟨hgone, hshort⟩ : (leaves (FileWork.removeTree m.path) d.files).node? (placeOf home k) = none ∧
      m.path.text.utf8ByteSize < maxPath := by
    have hreaches := reaches_removeTree hs h0 hk hpath
    unfold Reaches at hreaches
    rcases returns_of_removed (removed_of_delete hd) with hok | ⟨e, he, hcause⟩
    · rw [hok] at hreaches
      exact hreaches
    · rw [he] at hreaches
      exact hreaches e rfl hcause
  have hs₁ := shelters_effects h hs hremoved
  have hs₂ := shelters_effects htidy hs₁ hunlinked
  rw [run_delete]
  exact isMissing_of_node?_none hs₂ h0 hk hpath hshort (node?_unlink hs₁ hpath hgone)

end Mirror

end InkServer
