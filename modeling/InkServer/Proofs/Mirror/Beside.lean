import InkServer.Proofs.Mirror.Confined
import InkServer.Proofs.Mirror.Tending

/-!
# Mirrors that are left alone

Mirrors stand side by side, so that nothing that is done for one of them changes what stands in another: not the
making of a new one, not what is written into it, and not its deletion. A mirror of which the index tells the
truth keeps it meanwhile.
-/

namespace InkServer

open Work

namespace FileWork

variable {fs : FileSystem} {p : Path} {home : Place}

/-- No directory is made where one is. -/
theorem about_makeDirectory_of_way (h : fs.Way FileSystem.maxLinks [] p.segments home) :
    ∃ e, about p (fs.makeDirectory p) = .error e ∧ ∀ e', e = .os e' → e'.cause ≠ .noEntry := by
  obtain ⟨place, n, hwalk⟩ := h.walk_false
  have hmake : ∃ cause, fs.makeDirectory p = .error cause ∧ cause ≠ .noEntry := by
    unfold FileSystem.makeDirectory FileSystem.find
    rw [hwalk]
    by_cases hlong : FileSystem.maxPath ≤ p.text.utf8ByteSize
    · rw [if_pos hlong]
      exact ⟨_, rfl, nofun⟩
    · rw [if_neg hlong]
      exact ⟨_, rfl, nofun⟩
  obtain ⟨cause, hmake, hcause⟩ := hmake
  unfold about
  rw [hmake]
  split
  · exact ⟨_, rfl, nofun⟩
  · refine ⟨_, rfl, fun e' he => ?_⟩
    cases he
    exact hcause

/-- Where a directory is there is nothing to make. -/
theorem leaves_makeDirectories_of_way (h : fs.Way FileSystem.maxLinks [] p.segments home) :
    leaves (makeDirectories p) fs = fs := by
  obtain ⟨e, hmake, hcause⟩ := about_makeDirectory_of_way h
  have hchange : Reaches (change p fun fs => fs.makeDirectory p) fs (fun _ _ => False) fun e' fs' => e' = e ∧ fs' = fs := by
    rw [reaches_change, hmake]
    exact ⟨rfl, rfl⟩
  have hleaves : leaves (change p fun fs => fs.makeDirectory p) fs = fs :=
    reaches_leaves.mp (hchange.mono (fun _ _ h => h.elim) fun _ _ h => h.2)
  have hreturns : returns (change p fun fs => fs.makeDirectory p) fs = .error e := by
    unfold Reaches at hchange
    split at hchange
    · exact hchange.elim
    · rename_i e' he
      rw [he, hchange.1]
  unfold makeDirectories
  cases p.segments.length with
  | zero =>
      rw [ensureDirectories, leaves_ensureDirectory]
      exact hleaves
  | succ depth =>
      unfold ensureDirectories
      rw [leaves_attempt_bind, hreturns, hleaves]
      cases e with
      | os e =>
          dsimp only
          rw [if_neg (hcause e rfl)]
          exact looks_unlessDirectory _ _ _
      | nullCharacter => rfl
      | refused => rfl

end FileWork

namespace Mirror

open FileSystem DiskWork Disk

variable {policy : MirrorPolicy} {d d' d'' : Disk} {fs fs' : FileSystem} {m other : Mirror} {home base : Place}
  {mirrors mirrors' k k' : Nat} {relative : Path} {contents : List (Path × ByteArray)} {index : Index}

/-! ## Where mirrors stand -/

theorem placeOf_append_ne (h : k ≠ k') (home names names' : List String) :
    placeOf home k ++ names ≠ placeOf home k' ++ names' := by
  intro he
  unfold placeOf at he
  rw [List.append_assoc, List.append_assoc] at he
  exact h (scratchName_injective (List.cons.inj (List.append_cancel_left he)).1)

theorem dot_not_mem_repr (number : Nat) : '.' ∉ number.repr.toList := by
  rw [Nat.repr, String.toList_ofList]
  intro h
  exact absurd (Nat.isDigit_of_mem_toDigits (by decide) (by decide) h) (by decide)

/-- What is compiled from a mirror is no mirror. -/
theorem outputName_ne_scratchName (number number' : Nat) : outputName number ≠ scratchName number' := by
  intro h
  have hlist := congrArg String.toList h
  unfold outputName at hlist
  rw [String.toList_append, toList_scratchName, toList_scratchName, List.append_assoc] at hlist
  refine dot_not_mem_repr number' ?_
  rw [← List.append_cancel_left hlist]
  exact List.mem_append_right _ (by decide)

/-- Among mirrors side by side one stands in its own place and nowhere else. -/
theorem standsAt_iff (hs : Shelters policy mirrors home fs) (h0 : 0 < k) (hk : k ≤ mirrors)
    (hm : m.path = policy.tempRoot.child (scratchName k)) (hshort : m.path.text.utf8ByteSize < maxPath) :
    m.StandsAt base fs ↔ base = placeOf home k ∧ fs.node? (placeOf home k) = some .directory := by
  have hfind := find_scratch hs h0 hk hm true
  rw [if_neg (Nat.not_le_of_lt hshort)] at hfind
  have hwalk := walk_of_find hfind
  constructor
  · intro h
    rw [way_iff.mp h.way] at hwalk
    obtain ⟨hbase, hn⟩ := Prod.mk.inj (Except.ok.inj hwalk)
    exact ⟨hbase, hn.symm⟩
  · rintro ⟨rfl, hn⟩
    rw [hn] at hwalk
    exact ⟨way_iff.mpr hwalk, hs.isPlain h0 hk⟩

/-- A mirror that was made and is there, under a path that leads to it. -/
structure Stands (policy : MirrorPolicy) (m : Mirror) (d : Disk) : Prop where
  made : m.IsMade policy d
  clean : FileWork.hasNull m.path = false
  short : m.path.text.utf8ByteSize < maxPath
  there : ∃ base, m.StandsAt base d.files

theorem Stands.isThere (h : m.Stands policy d) : returns m.isThere d = .ok true := by
  obtain ⟨base, hbase⟩ := h.there
  have hstat : d.files.stat m.path = .ok .directory := by
    unfold stat find
    rw [if_neg (Nat.not_le_of_lt h.short), way_iff.mp hbase.way]
  have hthere : Reaches m.isThere d (fun there _ => there = true) fun _ _ => False := by
    unfold Mirror.isThere plainly FileWork.isDirectory FileWork.holds
    rw [reaches_telling, reaches_get, if_neg (by rw [h.clean]; exact Bool.false_ne_true), hstat]
    rfl
  unfold Reaches at hthere
  split at hthere
  · rename_i there he
    rw [he, hthere]
  · exact hthere.elim

/-! ## Mirrors that are left alone -/

/-- Whatever was done, it was not done in a mirror. -/
def Untouched (m : Mirror) (fs fs' : FileSystem) : Prop := ∀ base, m.StandsAt base fs → m.Spares base fs fs'

theorem Untouched.refl : m.Untouched fs fs := fun _ h => ⟨h.way, fun _ _ => rfl⟩

theorem Untouched.trans {fs'' : FileSystem} (h : m.Untouched fs fs') (h' : m.Untouched fs' fs'') : m.Untouched fs fs'' :=
  fun base hm => (h base hm).trans (h' base (hm.spares (h base hm)))

theorem Stands.untouched (h : m.Stands policy d) (hd : d.scratches ≤ d'.scratches)
    (hu : m.Untouched d.files d'.files) : m.Stands policy d' := by
  obtain ⟨k, h0, hk, hpath⟩ := h.made
  obtain ⟨base, hbase⟩ := h.there
  exact ⟨⟨k, h0, hk.trans hd, hpath⟩, h.clean, h.short, base, hbase.spares (hu base hbase)⟩

theorem Stands.content?_untouched (h : m.Stands policy d) (hu : m.Untouched d.files fs') (hr : relative.IsInner)
    {content : ByteArray} (hc : m.content? d.files relative = some content) :
    m.content? fs' relative = some content := by
  obtain ⟨base, hbase⟩ := h.there
  exact hbase.content?_spares (hu base hbase) hr hc

/-- A mirror is untouched if the same stands in its place. -/
theorem untouched_of_same (hs : Shelters policy mirrors home fs) (hs' : Shelters policy mirrors' home fs') (h0 : 0 < k)
    (hk : k ≤ mirrors) (hk' : k ≤ mirrors') (hm : m.path = policy.tempRoot.child (scratchName k))
    (hshort : m.path.text.utf8ByteSize < maxPath)
    (hsame : ∀ names, fs'.node? (placeOf home k ++ names) = fs.node? (placeOf home k ++ names)) :
    m.Untouched fs fs' := by
  intro base h
  obtain ⟨rfl, hn⟩ := (standsAt_iff hs h0 hk hm hshort).mp h
  have hn' := hsame []
  rw [List.append_nil, hn] at hn'
  exact ⟨((standsAt_iff hs' h0 hk' hm hshort).mpr ⟨rfl, hn'⟩).way, fun names _ => hsame names⟩

/-- What is written into one mirror is not written into another. -/
theorem Fills.untouched (h : m.Fills base d contents d') (ht : d.files.IsTidy policy d.scratches)
    (hc : Confined policy d d') (hm : m.Stands policy d) (ho : other.Stands policy d) (hne : other ≠ m) :
    other.Untouched d.files d'.files := by
  obtain ⟨k, h0, hk, hpath⟩ := ho.made
  obtain ⟨k', h0', hk', hpath'⟩ := hm.made
  obtain ⟨home, hs⟩ := ht.shelters (Nat.ne_of_gt (Nat.lt_of_lt_of_le h0 hk))
  have hs' := shelters_effects ht hs (h.scratches ▸ hc.effects)
  have hkk' : k ≠ k' := by
    rintro rfl
    cases other; cases m
    exact hne (congrArg Mirror.mk (hpath.trans hpath'.symm))
  obtain ⟨rfl, _⟩ := (standsAt_iff hs' h0' hk' hpath' hm.short).mp h.standsAt
  refine untouched_of_same hs hs' h0 hk hk hpath ho.short fun names => h.outside _ fun below _ he => ?_
  exact placeOf_append_ne hkk' home names below he

/-! ## Deleting a mirror -/

theorem node?_removeTree (hs : Shelters policy mirrors home fs) {p : Path}
    (hp : p = policy.tempRoot.child (scratchName k)) {place : Place} (hb : ¬placeOf home k <+: place) :
    (leaves (FileWork.removeTree p) fs).node? place = fs.node? place := by
  refine reaches_leaves (p := fun fs' : FileSystem => fs'.node? place = fs.node? place) |>.mp ?_
  unfold FileWork.removeTree
  rw [reaches_get]
  split
  · rfl
  · rfl
  · rfl
  · rfl
  · rename_i hfind
    have hsegments : p.segments = policy.tempRoot.segments ++ [scratchName k] := hp ▸ segments_scratch policy k
    obtain ⟨rfl, _⟩ := find_beside hs.way hsegments (scratchName_ne_up k) (FileWork.about_eq_ok hfind)
    show (fs.drop (placeOf home k)).node? place = _
    rw [node?_drop fs (placeOf_ne_nil home k), if_neg hb]

theorem node?_unlink_beside (hs : Shelters policy mirrors home fs) (hm : m.path = policy.tempRoot.child (scratchName k))
    {place : Place} (hb : ¬home ++ [outputName k] <+: place) :
    (leaves (FileWork.unlink m.outputPath) fs).node? place = fs.node? place := by
  refine reaches_leaves (p := fun fs' : FileSystem => fs'.node? place = fs.node? place) |>.mp
    (FileWork.reaches_change.mpr ?_)
  split
  · rename_i fs' hunlinked
    have hunlinked := FileWork.about_eq_ok hunlinked
    unfold FileSystem.unlink at hunlinked
    split at hunlinked <;> cases hunlinked
    rename_i at_ n hnot hfind
    obtain ⟨rfl, _⟩ := find_beside hs.way (segments_outputPath hm) (outputName_ne_up k) hfind
    rw [node?_drop fs (output_ne_nil home k), if_neg hb]
  · rfl

/-- The deletion of a mirror touches no other one. -/
theorem untouched_delete (ht : d.files.IsTidy policy d.scratches) (hm : m.IsMade policy d) (ho : other.Stands policy d)
    (hne : other ≠ m) : other.Untouched d.files (m.delete.run d).2.files := by
  obtain ⟨k, h0, hk, hpath⟩ := ho.made
  obtain ⟨k', h0', hk', hpath'⟩ := hm
  obtain ⟨home, hs⟩ := ht.shelters (Nat.ne_of_gt (Nat.lt_of_lt_of_le h0 hk))
  have hkk' : k' ≠ k := by
    rintro rfl
    cases other; cases m
    exact hne (congrArg Mirror.mk (hpath.trans hpath'.symm))
  have hremoved := effects_removeTree ht h0' hk' hpath'
  have hs₁ := shelters_effects ht hs hremoved
  have hs₂ := shelters_effects (isTidy_effects ht hremoved) hs₁
    (effects_unlink (isTidy_effects ht hremoved) h0' hk' hpath')
  rw [run_delete]
  refine untouched_of_same hs hs₂ h0 hk hk hpath ho.short fun names => ?_
  rw [node?_unlink_beside hs₁ hpath', node?_removeTree hs hpath']
  · rintro ⟨rest, he⟩
    exact placeOf_append_ne hkk' home rest names he
  · rintro ⟨rest, he⟩
    unfold placeOf at he
    rw [List.append_assoc, List.append_assoc] at he
    exact outputName_ne_scratchName k' k (List.cons.inj (List.append_cancel_left he)).1

/-! ## What indexes say -/

/-- An index that tells of each file what the file holds, and what was written to it. -/
def Index.IsTrue (index : Index) (m : Mirror) (d : Disk) : Prop :=
  ∀ relative e, index.get? relative = some e → relative.IsInner ∧ ∃ content,
    m.content? d.files relative = some content ∧ .wrote m.path relative content ∈ d.history ∧
      e = .ofContent relative content

theorem Index.isTrue_empty : Index.IsTrue {} m d := nofun

theorem Index.IsTrue.untouched (h : index.IsTrue m d) (hm : m.Stands policy d) (hu : m.Untouched d.files d'.files)
    (hh : d.history <+: d'.history) : index.IsTrue m d' := by
  intro relative e he
  obtain ⟨hr, content, hc, hw, heq⟩ := h relative e he
  exact ⟨hr, content, hm.content?_untouched hu hr hc, hh.subset hw, heq⟩

/-- What is written and noted is told truly. -/
theorem Index.IsTrue.fills (h : index.IsTrue m d) (hf : m.Fills base d contents d') :
    (index.record (contents.map fun w => .ofContent w.1 w.2)).IsTrue m d' := by
  intro relative e he
  rw [Index.get?_record] at he
  cases hl : latest relative contents with
  | some content =>
      rw [hl] at he
      have hwrote := mem_of_latest hl
      refine ⟨hf.inner _ hwrote, content, hf.holds relative content (hf.inner _ hwrote) (by rw [hl]; rfl), ?_,
        (Option.some.inj he).symm⟩
      rw [hf.history]
      exact List.mem_append_right _ (List.mem_map.mpr ⟨_, hwrote, rfl⟩)
  | none =>
      rw [hl, Option.map_none, Option.none_or] at he
      obtain ⟨hr, content, hc, hw, heq⟩ := h relative e he
      refine ⟨hr, content, hf.holds relative content hr (by rw [hl, Option.none_or]; exact hc), ?_, heq⟩
      rw [hf.history]
      exact List.mem_append_left _ hw

/-! ## Making a mirror -/

/-- A new mirror stands, and the others are left alone. -/
theorem makeScratch_stands (ht : d.files.IsTidy policy d.scratches) (wrap : FileError → Failure) :
    Reaches (makeScratch policy wrap) d
      (fun m d' => (FileWork.hasNull m.path = false ∧ m.path.text.utf8ByteSize < maxPath) ∧
        ∀ other : Mirror, other.Stands policy d → other ≠ m ∧ other.Untouched d.files d'.files)
      fun _ _ => True := by
  unfold makeScratch
  rw [reaches_get, reaches_bind, reaches_telling]
  refine (reaches_self (FileWork.makeDirectories policy.tempRoot) d.files).mono (fun _ files hf => ?_)
    fun _ _ _ => trivial
  rw [reaches_bind, reaches_telling, FileWork.reaches_change]
  split
  · rename_i made hmade
    have hmake := FileWork.about_eq_ok hmade
    refine ⟨⟨?_, ?_⟩, fun other ho => ?_⟩
    · unfold FileWork.about at hmade
      split at hmade
      · cases hmade
      · rename_i hnull
        exact Bool.eq_false_iff.mpr hnull
    · obtain ⟨place, hfind, _⟩ := find_of_makeDirectory hmake
      unfold find at hfind
      split at hfind
      · cases hfind
      · rename_i hshort
        exact Nat.lt_of_not_le hshort
    · obtain ⟨k, h0, hk, hpath⟩ := ho.made
      obtain ⟨place, hs⟩ := ht.shelters (Nat.ne_of_gt (Nat.lt_of_lt_of_le h0 hk))
      -- The place for mirrors is there already, since a mirror is.
      have hfiles : files = d.files := hf.2.trans (FileWork.leaves_makeDirectories_of_way hs.way)
      subst hfiles
      obtain ⟨home, hway, hname, _, hnone, rfl⟩ := exists_home_of_makes ht.tree hmake
      cases hs.way.eq hway
      have hnew : k ≠ d.scratches + 1 := by omega
      refine ⟨fun he => hnew (child_scratchName_injective policy (hpath.symm.trans (congrArg Mirror.path he))), ?_⟩
      refine untouched_of_same hs (.makes (fun _ => hs) ht.tree hway hname hnone) h0 hk (Nat.le_succ_of_le hk) hpath
        ho.short fun names => ?_
      show (d.files.put _ _).node? _ = _
      rw [node?_put _ _ (placeOf_ne_nil _ _), if_neg fun he => ?_]
      refine placeOf_append_ne hnew.symm place [] names ?_
      rw [List.append_nil]
      exact he
  · trivial

/-- A new mirror stands with an index that tells the truth, and the others are left alone. -/
theorem create_stands (ht : d.files.IsTidy policy d.scratches) (root : Path) :
    Reaches (create policy root) d
      (fun (m, index) d' => m.Stands policy d' ∧ index.IsTrue m d' ∧
        ∀ other : Mirror, other.Stands policy d → other ≠ m ∧ other.Untouched d.files d'.files)
      fun _ _ => True := by
  unfold create
  rw [reaches_bind]
  refine (looks_telling (FileWork.looks_holds root _)).reaches (fun there _ => ?_) fun _ _ => trivial
  split
  · trivial
  rw [reaches_bind]
  refine ((makeScratch_stands ht _).and ((confined_makeScratch ht _).and (makeScratch_standsAt _ ht.tree.closed))).mono
    (fun m d₁ ⟨⟨⟨hclean, hshort⟩, hothers⟩, ⟨hconfined, hmade⟩, hthere, _⟩ => ?_) fun _ _ _ => trivial
  have hm : m.Stands policy d₁ := ⟨hmade, hclean, hshort, hthere⟩
  obtain ⟨base, hbase⟩ := hthere
  rw [reaches_bind]
  refine (sources_isSource hconfined.tidy.tree root root _).mono (fun paths d₂ ⟨hsame, hp⟩ => ?_) fun _ _ _ => trivial
  subst hsame
  rw [reaches_bind]
  refine ((copyFiles_fillsWith hbase root _ fun p hmem => (hp p hmem).1).and
    (confined_copyFiles hconfined.tidy hmade root _ hp)).mono
      (fun entries d₃ ⟨⟨contents, hfill, _, he⟩, hcopied⟩ => ?_) fun _ _ _ => trivial
  rw [reaches_pure, he]
  refine ⟨⟨hmade.confined hcopied, hclean, hshort, base, hfill.standsAt⟩, Index.isTrue_empty.fills hfill,
    fun other ho => ?_⟩
  obtain ⟨hne, huntouched⟩ := hothers other ho
  have ho₁ := ho.untouched hconfined.scratches huntouched
  exact ⟨hne, huntouched.trans (hfill.untouched hconfined.tidy hcopied hm ho₁ hne)⟩

end Mirror

end InkServer
