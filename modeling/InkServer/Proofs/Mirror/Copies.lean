import InkServer.Proofs.Mirror.Effects
import InkServer.Proofs.Mirror.Listing
import InkServer.Proofs.Workspace.Custody

/-!
# A new mirror is a copy of its workspace

A mirror is made in a new directory, which is empty at first. Then the source files of the workspace are copied into
it one by one. Nothing that was there before is changed by that, so what was read of the workspace can still be read
when the mirror is done.
-/

namespace InkServer

open Work

/-! ## New directories -/

namespace FileSystem

variable {fs fs' : FileSystem} {p : Path}

theorem IsTree.makeDirectory (ht : fs.IsTree) (h : fs.makeDirectory p = .ok fs') : fs'.IsTree := by
  obtain ⟨place, hfind, rfl⟩ := find_of_makeDirectory h
  refine ht.put (fits_of_find_none ht hfind) ?_ _
  rw [node?_of_find_none hfind]
  exact nofun

/-- Wherever a directory is made, only directories are added. -/
theorem sprouts_makeDirectory (ht : fs.IsTree) (h : fs.makeDirectory p = .ok fs') : Sprouts [] fs fs' := by
  obtain ⟨place, hfind, rfl⟩ := find_of_makeDirectory h
  exact sprouts_put (fits_of_find_none ht hfind).ne_nil (node?_of_find_none hfind)

end FileSystem

namespace FileWork

open FileSystem

variable {fs : FileSystem}

theorem isTree_makeDirectories (ht : fs.IsTree) (p : Path) : (leaves (makeDirectories p) fs).IsTree :=
  ensureDirectories_keeps (fun _ => True) (fun _ _ => trivial) (fun _ _ _ _ h hm => h.makeDirectory hm) _ _ trivial ht

theorem sprouts_makeDirectories (ht : fs.IsTree) (p : Path) : Sprouts [] fs (leaves (makeDirectories p) fs) := by
  have hboth : (leaves (makeDirectories p) fs).IsTree ∧ Sprouts [] fs (leaves (makeDirectories p) fs) :=
    ensureDirectories_keeps (q := fun fs' => fs'.IsTree ∧ Sprouts [] fs fs') (fun _ => True) (fun _ _ => trivial)
      (fun _ _ _ _ h hm => ⟨h.1.makeDirectory hm, h.2.trans (sprouts_makeDirectory h.1 hm)⟩) _ _ trivial ⟨ht, .refl⟩
  exact hboth.2

end FileWork

namespace Mirror

open FileSystem DiskWork

variable {policy : MirrorPolicy} {root relative : Path} {m : Mirror} {base place : Place} {fs fs' fs'' : FileSystem}
  {d : Disk} {content : ByteArray} {contents : List (Path × ByteArray)}

/-- The directory of a mirror was made, with those above it that were missing, and is empty. -/
structure IsLaid (m : Mirror) (place : Place) (fs fs' : FileSystem) : Prop where
  sprouts : Sprouts [] fs fs'
  tree : fs'.IsTree
  standsAt : m.StandsAt place fs'
  fresh : fs.node? place = none
  empty : ∀ below, below ≠ [] → fs'.node? (place ++ below) = none

theorem isLaid_makeDirectory {p : Path} (hs : Sprouts [] fs fs') (ht : fs'.IsTree)
    (h : fs'.makeDirectory p = .ok fs'') : ∃ place, IsLaid ⟨p⟩ place fs fs'' := by
  have hmade := sprouts_makeDirectory ht h
  have htree := ht.makeDirectory h
  obtain ⟨place, hfind, rfl⟩ := find_of_makeDirectory h
  have hnone := node?_of_find_none hfind
  have hempty : ∀ below, below ≠ [] → (fs'.put place .directory).node? (place ++ below) = none := by
    intro below hb
    rw [node?_put fs' _ (fits_of_find_none ht hfind).ne_nil, if_neg fun he => hb (List.self_eq_append_right.mp he),
      ht.closed.below_eq_none hnone]
  refine ⟨place, hs.trans hmade, htree, ⟨way_put_directory (walk_of_find hfind), fun below target hb => ?_⟩, ?_,
    hempty⟩
  · rw [hempty below hb]
    exact nofun
  · cases hd : fs.node? place with
    | none => rfl
    | some n => cases hnone.symm.trans (hs.stays _ _ hd)

theorem makeScratch_lays (wrap : FileError → Failure) (ht : d.files.IsTree) :
    Reaches (makeScratch policy wrap) d (fun m d' => ∃ place, IsLaid m place d.files d'.files) fun _ _ => True := by
  unfold makeScratch
  rw [reaches_get, reaches_bind, reaches_telling]
  have htree := FileWork.isTree_makeDirectories ht policy.tempRoot
  have hsprouts := FileWork.sprouts_makeDirectories ht policy.tempRoot
  refine (reaches_self (FileWork.makeDirectories policy.tempRoot) d.files).mono (fun _ files hf => ?_)
    fun _ _ _ => trivial
  rw [← hf.2] at htree hsprouts
  rw [reaches_bind, reaches_telling, FileWork.reaches_change]
  split
  · rename_i made hmade
    exact isLaid_makeDirectory hsprouts htree (FileWork.about_eq_ok hmade)
  · trivial

/-! ## Copying -/

/-- These contents were copied from a workspace into an empty mirror, and nothing else was done. -/
structure Copied (root : Path) (m : Mirror) (place : Place) (fs : FileSystem) (contents : List (Path × ByteArray))
    (fs' : FileSystem) : Prop where
  within : fs.Within fs'
  tree : fs'.IsTree
  standsAt : m.StandsAt place fs'
  new : ∀ q n, fs.node? q = none → fs'.node? q = some n → ∃ names, names ≠ [] ∧ q = place ++ names ∧
    (n = .directory ∨ ∃ w ∈ contents, w.1.segments = names ∧ n = .file w.2)
  inner : ∀ w ∈ contents, w.1.IsInner
  read : ∀ w ∈ contents, fs'.read (root / w.1) = .ok w.2 ∧ fs'.read (m.path / w.1) = .ok w.2

theorem IsLaid.copied (h : IsLaid m place fs fs') (root : Path) : Copied root m place fs' [] fs' :=
  { within := .refl _
    tree := h.tree
    standsAt := h.standsAt
    new := fun _ _ hnone hn => nomatch hnone.symm.trans hn
    inner := fun _ hw => absurd hw List.not_mem_nil
    read := fun _ hw => absurd hw List.not_mem_nil }

theorem Copied.sprouts (h : Copied root m place fs contents fs') (hs : Sprouts place fs' fs'') (ht : fs''.IsTree) :
    Copied root m place fs contents fs'' := by
  have hwithin : fs'.Within fs'' := hs.stays
  refine ⟨h.within.trans hwithin, ht, h.standsAt.sprouts hs, fun q n hnone hn => ?_, h.inner,
    fun w hw => (h.read w hw).imp hwithin.read hwithin.read⟩
  cases hmid : fs'.node? q with
  | none =>
      obtain ⟨hd, below, hb, he⟩ := hs.new q n hmid hn
      exact ⟨below, hb, he, .inl hd⟩
  | some n' =>
      cases (hwithin _ _ hmid).symm.trans hn
      exact h.new q n hnone hmid

/-- One more file is written. If it is there already then with the same content, since it was read from the same
file of the workspace. -/
theorem Copied.write (h : Copied root m place fs contents fs')
    (hempty : ∀ below, below ≠ [] → fs.node? (place ++ below) = none) (hr : relative.IsInner)
    (hread : fs'.read (root / relative) = .ok content) (hw : fs'.write (m.path / relative) content = .ok fs'') :
    Copied root m place fs (contents ++ [(relative, content)]) fs'' := by
  have hne : place ++ relative.segments ≠ [] := List.append_ne_nil_of_right_ne_nil _ hr.ne_nil
  unfold FileSystem.write at hw
  split at hw
  · cases hw
  · cases hw
  · rename_i q found hnot hfind
    cases hw
    obtain ⟨hshort, hopens, rfl, rfl⟩ := (h.standsAt.find_eq_ok_iff (segments_div hr) hr.ne_nil hr.noUp).mp hfind
    have hno : fs'.node? (place ++ relative.segments) ≠ some .directory := fun hd => hnot hd
    have hfits : fs'.Fits (place ++ relative.segments) ∧
        fs'.Within (fs'.put (place ++ relative.segments) (.file content)) := by
      cases hn : fs'.node? (place ++ relative.segments) with
      | none =>
          have hfind' : fs'.find false (m.path / relative) = .ok (place ++ relative.segments, none) :=
            (h.standsAt.find_eq_ok_iff (segments_div hr) hr.ne_nil hr.noUp).mpr ⟨hshort, hopens, rfl, hn.symm⟩
          exact ⟨fits_of_find_none h.tree hfind', within_put hne hn _⟩
      | some n =>
          obtain ⟨names, _, hnames, hfile⟩ := h.new _ n (hempty _ hr.ne_nil) hn
          obtain rfl := List.append_cancel_left hnames
          obtain rfl | ⟨w, hmem, hsegments, rfl⟩ := hfile
          · exact absurd hn hno
          · obtain rfl := segments_injective (h.inner w hmem) hr hsegments
            cases (h.read w hmem).1.symm.trans hread
            refine ⟨h.tree.fits hne hn, fun q n hq => ?_⟩
            rw [node?_put fs' _ hne]
            split
            · rename_i he
              exact hn.symm.trans (he ▸ hq)
            · exact hq
    obtain ⟨hfits, hwithin⟩ := hfits
    refine ⟨h.within.trans hwithin, h.tree.put hfits hno _, h.standsAt.put hr hno content, fun q n hnone hn => ?_,
      fun w hmem => ?_, fun w hmem => ?_⟩
    · rw [node?_put fs' _ hne] at hn
      split at hn
      · rename_i he
        cases hn
        exact ⟨relative.segments, hr.ne_nil, he.symm, .inr ⟨_, List.mem_append_right _ (List.mem_singleton_self _), rfl,
          rfl⟩⟩
      · obtain ⟨names, hnames, he, hfile⟩ := h.new q n hnone hn
        exact ⟨names, hnames, he, hfile.imp_right fun ⟨w, hmem, hw⟩ => ⟨w, List.mem_append_left _ hmem, hw⟩⟩
    · rcases List.mem_append.mp hmem with hmem | hmem
      · exact h.inner w hmem
      · cases List.mem_singleton.mp hmem
        exact hr
    · rcases List.mem_append.mp hmem with hmem | hmem
      · exact (h.read w hmem).imp hwithin.read hwithin.read
      · cases List.mem_singleton.mp hmem
        refine ⟨hwithin.read hread, ?_⟩
        rw [(h.standsAt.put hr hno content).read_eq_ok_iff (segments_div hr) hr.ne_nil hr.noUp]
        exact ⟨hshort, hopens.keeps hwithin.keeps, node?_put_self fs' _ hne⟩

theorem writeFile_copies (h : Copied root m place fs contents d.files)
    (hempty : ∀ below, below ≠ [] → fs.node? (place ++ below) = none) (wrap : FileError → Failure)
    (hr : relative.IsInner) (hread : d.files.read (root / relative) = .ok content) :
    Reaches (m.writeFile wrap relative content) d
      (fun e d' => Copied root m place fs (contents ++ [(relative, content)]) d'.files ∧
        e = .ofContent relative content)
      fun _ d' => Copied root m place fs contents d'.files := by
  unfold writeFile
  rw [reaches_get]
  split
  · exact h
  · have hparent : (m.path / relative).parent.segments = m.path.segments ++ relative.segments.dropLast := by
      rw [← List.dropLast_append_of_ne_nil hr.ne_nil, ← segments_div hr]
      rfl
    have hsprouts : Sprouts place d.files (leaves (FileWork.makeDirectories (m.path / relative).parent) d.files) :=
      FileWork.sprouts_ensureDirectories _ h.standsAt hparent fun hm => hr.noUp (List.dropLast_subset _ hm)
    have hmade := h.sprouts hsprouts (FileWork.isTree_makeDirectories h.tree (m.path / relative).parent)
    have hwithin : d.files.Within _ := hsprouts.stays
    rw [reaches_bind, reaches_telling, reaches_bind]
    refine (reaches_self (FileWork.makeDirectories (m.path / relative).parent) d.files).mono
      (fun _ files hf => ?_) fun _ files hf => ?_
    · rw [← hf.2] at hmade hwithin
      refine FileWork.reaches_change.mpr ?_
      split
      · rename_i written hwritten
        exact ⟨hmade.write hempty hr (hwithin.read hread) (FileWork.about_eq_ok hwritten), rfl⟩
      · exact hmade
    · rw [← hf.2] at hmade
      exact hmade

theorem copyFile_copies (h : Copied root m place fs contents d.files)
    (hempty : ∀ below, below ≠ [] → fs.node? (place ++ below) = none) (wrap : FileError → Failure)
    (hr : relative.IsInner) :
    Reaches (m.copyFile root wrap relative) d
      (fun e d' => ∃ content, Copied root m place fs (contents ++ [(relative, content)]) d'.files ∧
        e = .ofContent relative content)
      fun _ d' => Copied root m place fs contents d'.files := by
  unfold copyFile
  rw [reaches_bind, reaches_telling]
  refine FileWork.reaches_ask.mpr ?_
  split
  · rename_i content hread
    exact (writeFile_copies h hempty wrap hr (FileWork.about_eq_ok hread)).mono (fun _ _ h => ⟨content, h⟩)
      fun _ _ h => h
  · exact h

/-- Files are copied one after the other. -/
theorem copyFiles_copies (h : Copied root m place fs contents d.files)
    (hempty : ∀ below, below ≠ [] → fs.node? (place ++ below) = none) (wrap : Path → FileError → Failure)
    {paths : List Path} (hp : ∀ p ∈ paths, p.IsInner) :
    Reaches (paths.mapM fun p => m.copyFile root (wrap p) p) d
      (fun entries d' => ∃ more, Copied root m place fs (contents ++ more) d'.files ∧ more.map Prod.fst = paths ∧
        entries = more.map fun w => .ofContent w.1 w.2)
      fun _ d' => ∃ more, Copied root m place fs (contents ++ more) d'.files := by
  induction paths generalizing d contents with
  | nil =>
      rw [List.mapM_nil, reaches_pure]
      exact ⟨[], by rwa [List.append_nil], rfl, rfl⟩
  | cons p rest ih =>
      rw [List.mapM_cons, reaches_bind]
      refine (copyFile_copies h hempty (wrap p) (hp p List.mem_cons_self)).mono (fun e d₁ ⟨content, hcopied, he⟩ => ?_)
        fun _ d₁ h => ⟨[], by rwa [List.append_nil]⟩
      rw [reaches_bind]
      refine (ih hcopied fun q hq => hp q (List.mem_cons_of_mem _ hq)).mono
        (fun entries d₂ ⟨more, hmore, hpaths, hentries⟩ => ?_) fun _ d₂ ⟨more, hmore⟩ => ⟨(p, content) :: more, ?_⟩
      · rw [reaches_pure, he, hentries, ← hpaths]
        refine ⟨(p, content) :: more, ?_, rfl, rfl⟩
        rwa [List.append_assoc] at hmore
      · rwa [List.append_assoc] at hmore

/-! ## Copies -/

/-- A mirror of a workspace with its index is a copy of the source files: the index has one entry for each of them,
the mirror holds them with what is read of the workspace, and it holds no other files. Only if the mirror itself lies
in the workspace the files in it are not meant. -/
structure IsCopyOf (policy : MirrorPolicy) (root : Path) (m : Mirror) (index : Index) (base place : Place)
    (fs : FileSystem) : Prop where
  workspace : fs.Way maxLinks [] root.segments base
  mirror : fs.Way maxLinks [] m.path.segments place
  distinct : index.keys.Nodup
  listed : ∀ relative, relative ∈ index.keys ↔
    IsSourceOf policy fs root base relative ∧ (base <+: place → ¬place <+: base ++ relative.segments)
  copied : ∀ relative ∈ index.keys, ∃ content, fs.read (root / relative) = .ok content ∧
    fs.read (m.path / relative) = .ok content ∧ index.get? relative = some (.ofContent relative content)
  only : ∀ names n, fs.Below place names n → n ≠ .directory → ∃ relative ∈ index.keys, relative.segments = names

/-- A directory was added with what is in it, and other directories; nothing else was changed. -/
structure IsAddition (place : Place) (fs fs' : FileSystem) : Prop where
  within : fs.Within fs'
  fresh : fs.node? place = none
  added : ∀ q n, fs.node? q = none → fs'.node? q = some n → n = .directory ∨ place <+: q

/-- A path leads to the directory of a mirror that was made meanwhile. -/
structure IsNewScratch (policy : MirrorPolicy) (d d' : Disk) (path : Path) : Prop where
  made : (Mirror.mk path).IsMadeSince policy d d'
  stands : ∃ place, d.files.node? place = none ∧ d'.files.Way maxLinks [] path.segments place

theorem Index.nodup_keys_record {index : Index} (h : index.keys.Nodup) (entries : List MirrorEntry) :
    (index.record entries).keys.Nodup := by
  unfold record
  induction entries generalizing index with
  | nil => exact h
  | cons e rest ih => exact ih (Dict.nodup_keys_insert h e.path e)

theorem Index.Tells.mem_keys_iff {index : Index} (h : index.Tells contents) :
    relative ∈ index.keys ↔ relative ∈ contents.map Prod.fst := by
  have hkeys : relative ∈ index.keys ↔ index.get? relative ≠ none := by
    constructor
    · intro hmem hnone
      obtain ⟨e, he, hk⟩ := List.mem_map.mp hmem
      exact Dict.ne_of_lookup_eq_none hnone e he hk
    · intro hsome
      obtain ⟨e, he⟩ := Option.ne_none_iff_exists'.mp hsome
      exact Dict.mem_keys_of_get? he
  rw [hkeys, h relative, ne_eq, Option.map_eq_none_iff, latest_eq_none_iff, Decidable.not_not]

/-- What was copied are the source files of the workspace as it is afterwards. -/
theorem Copied.isSourceOf_iff (h : Copied root m place fs contents fs') (hc : fs.IsClosed)
    (hempty : ∀ below, below ≠ [] → fs.node? (place ++ below) = none) (hplace : fs.node? place = some .directory)
    (hapart : ¬place <+: base)
    (hlisted : ∀ relative, relative ∈ contents.map Prod.fst ↔ IsSourceOf policy fs root base relative) :
    relative ∈ contents.map Prod.fst ↔
      IsSourceOf policy fs' root base relative ∧ (base <+: place → ¬place <+: base ++ relative.segments) := by
  constructor
  · intro hmem
    obtain ⟨w, hw, rfl⟩ := List.mem_map.mp hmem
    have hs := (hlisted _).mp hmem
    obtain ⟨n, hbelow, hn⟩ := hs.stands
    refine ⟨⟨hs.start, ⟨n, h.within.below hbelow, hn⟩, ?_, hs.source⟩, ?_⟩
    · -- It was copied, so a file is what its path leads to.
      rw [Bool.eq_false_iff]
      intro hleads
      cases (leadsToDirectory_iff.mp hleads).symm.trans (read_eq_ok_iff.mp (h.read w hw).1)
    · rintro - ⟨below, he⟩
      have hnode := he ▸ hbelow.node?
      by_cases hb : below = []
      · rw [hb, List.append_nil, hplace] at hnode
        exact hn (Option.some.inj hnode).symm
      · cases (hempty below hb).symm.trans hnode
  · rintro ⟨hs, hbeside⟩
    have hout : ¬place <+: base ++ relative.segments := fun hin =>
      (List.prefix_or_prefix_of_prefix hin (List.prefix_append base _)).elim hapart fun hb => hbeside hb hin
    obtain ⟨n, hbelow, hn⟩ := hs.stands
    have hnode : fs.node? (base ++ relative.segments) = some n := by
      cases hold : fs.node? (base ++ relative.segments) with
      | none =>
          obtain ⟨names, _, he, _⟩ := h.new _ n hold hbelow.node?
          exact absurd ⟨names, he.symm⟩ hout
      | some n' => exact (h.within _ _ hold).symm.trans hbelow.node?
    refine (hlisted relative).mpr ⟨hs.start, ⟨n, (below_iff hc).mpr ⟨hbelow.ne_nil, hnode⟩, hn⟩, ?_, hs.source⟩
    rw [Bool.eq_false_iff]
    intro hleads
    have hleads' := leadsToDirectory_iff.mpr (h.within.stat (leadsToDirectory_iff.mp hleads))
    exact Bool.eq_false_iff.mp hs.noDirectory hleads'

/-- When all source files were copied the mirror is a copy. -/
theorem Copied.isCopyOf (h : Copied root m place fs contents fs') (hl : IsLaid m place d.files fs)
    (hw : fs.Way maxLinks [] root.segments base) (hapart : ¬place <+: base)
    (hlisted : ∀ relative, relative ∈ contents.map Prod.fst ↔ IsSourceOf policy fs root base relative) :
    IsCopyOf policy root m (Index.record {} (contents.map fun w => .ofContent w.1 w.2)) base place fs' := by
  have htells : (Index.record {} (contents.map fun w => .ofContent w.1 w.2)).Tells contents :=
    Index.tells_nil.record contents
  have hdistinct : ({} : Index).keys.Nodup := List.nodup_nil
  have hplace := hl.standsAt.way.node? hl.tree.closed (node?_nil fs)
  refine ⟨hw.keeps h.within.keeps, h.standsAt.way, Index.nodup_keys_record hdistinct _, fun relative => ?_,
    fun relative hmem => ?_, fun names n hbelow hn => ?_⟩
  · exact htells.mem_keys_iff.trans (h.isSourceOf_iff hl.tree.closed hl.empty hplace hapart hlisted)
  · obtain ⟨content, hcontent⟩ := Option.ne_none_iff_exists'.mp fun hnone =>
      latest_eq_none_iff.mp hnone (htells.mem_keys_iff.mp hmem)
    have hread := h.read _ (mem_of_latest hcontent)
    exact ⟨content, hread.1, hread.2, by rw [htells relative, hcontent]; rfl⟩
  · obtain ⟨names', _, he, hnew⟩ := h.new _ n (hl.empty names hbelow.ne_nil) hbelow.node?
    obtain rfl := List.append_cancel_left he
    obtain rfl | ⟨w, hmem, hsegments, _⟩ := hnew
    · exact absurd rfl hn
    · exact ⟨w.1, htells.mem_keys_iff.mpr (List.mem_map_of_mem hmem), hsegments⟩

theorem Copied.isAddition (h : Copied root m place fs' contents fs'') (hl : IsLaid m place fs fs') :
    IsAddition place fs fs'' := by
  have hwithin : fs.Within fs' := hl.sprouts.stays
  refine ⟨hwithin.trans h.within, hl.fresh, fun q n hnone hn => ?_⟩
  cases hmid : fs'.node? q with
  | none =>
      obtain ⟨names, _, rfl, _⟩ := h.new q n hmid hn
      exact .inr (List.prefix_append _ _)
  | some n' =>
      cases (h.within _ _ hmid).symm.trans hn
      exact .inl (hl.sprouts.new q n hnone hmid).1

/-- A workspace that is found to be a directory stands somewhere. -/
theorem reaches_isDirectory (root : Path) (d : Disk) :
    Reaches (plainly (FileWork.isDirectory root)) d
      (fun there d' => d' = d ∧ (there = true → ∃ base, d.files.Way maxLinks [] root.segments base))
      fun _ d' => d' = d := by
  unfold plainly FileWork.isDirectory FileWork.holds
  rw [reaches_telling, reaches_get]
  split
  · exact ⟨rfl, nofun⟩
  · split
    · rename_i n hstat
      refine ⟨rfl, fun hdirectory => ?_⟩
      obtain ⟨place, hfind⟩ := stat_eq_ok_iff.mp hstat
      cases n with
      | directory => exact ⟨place, way_iff.mpr (walk_of_find hfind)⟩
      | file _ => cases hdirectory
      | link _ => cases hdirectory
    · split
      · exact ⟨rfl, nofun⟩
      · rfl

/-- Making a mirror copies the workspace. If it fails then in a new directory, or before one was made. -/
theorem create_copies (ht : d.files.IsTree) (policy : MirrorPolicy) (root : Path) :
    Reaches (create policy root) d
      (fun made d' => ∃ base place, IsCopyOf policy root made.1 made.2 base place d'.files ∧
        IsAddition place d.files d'.files)
      fun _ d' => d'.scratches = d.scratches ∨
        ∃ place, d.files.node? place = none ∧
          d'.files.Way maxLinks [] (policy.tempRoot.child (scratchName (d.scratches + 1))).segments place := by
  unfold create
  rw [reaches_bind]
  refine (reaches_isDirectory root d).mono (fun there d₀ ⟨hd, hroot⟩ => ?_) fun _ _ hd => .inl (by rw [hd])
  subst hd
  split
  · exact .inl rfl
  · rename_i hthere
    obtain ⟨base, hroot⟩ := hroot (by simpa using hthere)
    rw [reaches_bind]
    refine ((makeScratch_lays _ ht).and (makeScratch_grows _ d₀)).mono (fun m d₁ ⟨⟨place, hl⟩, hg⟩ => ?_)
      fun _ d₁ ⟨_, hd, _⟩ => .inl hd.scratches
    have hleft : ∀ {fs}, d₁.files.Within fs → ∃ place, d₀.files.node? place = none ∧
        fs.Way maxLinks [] (policy.tempRoot.child (scratchName (d₀.scratches + 1))).segments place :=
      fun hwithin => ⟨place, hl.fresh, hg.path ▸ hl.standsAt.way.keeps hwithin.keeps⟩
    have hway : d₁.files.Way maxLinks [] root.segments base := hroot.keeps hl.sprouts.keeps
    have hapart : ¬place <+: base := by
      rintro ⟨below, rfl⟩
      cases (hroot.node? ht.closed (node?_nil _)).symm.trans (ht.closed.below_eq_none hl.fresh below)
    rw [reaches_bind]
    refine (sources_lists hl.tree hway _).mono (fun paths d₂ ⟨hd, hlisted⟩ => ?_)
      fun _ d₂ hd => .inr (hd ▸ hleft (.refl _))
    subst hd
    rw [reaches_bind]
    refine (copyFiles_copies (hl.copied root) hl.empty _ fun p hp => ((hlisted p).mp hp).isInner hl.tree).mono
      (fun entries d₃ ⟨contents, hcopied, hpaths, hentries⟩ => ?_)
      fun _ d₃ ⟨contents, hcopied⟩ => .inr (hleft hcopied.within)
    rw [reaches_pure, hentries]
    subst hpaths
    exact ⟨base, place, hcopied.isCopyOf hl hway hapart hlisted, hcopied.isAddition hl⟩

/-- A mirror that was made is exactly what its workspace holds of source files: one entry and one file for each of
them, with the bytes that are read of the workspace, and nothing more. A failure to make one carries the path of a
directory exactly if that was made for the mirror. -/
theorem created_mirror_is_exact_copy (ht : d.files.IsTree) (policy : MirrorPolicy) (root : Path) :
    Reaches (create policy root) d
      (fun made d' => ∃ base place, IsCopyOf policy root made.1 made.2 base place d'.files ∧
        IsAddition place d.files d'.files)
      fun f d' => ∀ e, f = .mirror e → ∀ path, e.scratch = some path ↔ IsNewScratch policy d d' path := by
  refine ((create_copies ht policy root).and (create_grows policy root d)).mono (fun _ _ h => h.1) ?_
  rintro _ d' ⟨hleft, ⟨hd, hnone⟩ | ⟨m, hg, hm⟩⟩ e rfl path
  · rw [hnone e rfl]
    refine iff_of_false nofun fun hnew => ?_
    obtain ⟨k, hk, hk', _⟩ := hnew.made
    rw [hd.scratches] at hk'
    omega
  · obtain hm | ⟨e', he, hscratch⟩ := hm
    · cases hm
    cases he
    rw [hscratch, Option.some.injEq]
    constructor
    · rintro rfl
      refine ⟨⟨_, Nat.lt_succ_self _, Nat.le_of_eq hg.scratches.symm, hg.path⟩, ?_⟩
      rw [hg.path]
      refine hleft.resolve_left fun hsame => ?_
      rw [hg.scratches] at hsame
      omega
    · intro hnew
      obtain ⟨k, hk, hk', hpath⟩ := hnew.made
      rw [hg.scratches] at hk'
      obtain rfl : k = d.scratches + 1 := by omega
      exact hg.path.trans hpath.symm

/-- A workspace in `/p` with two sources, notes, a link to another directory and one to a file there, and with
whatever else stands in it. -/
def bookshelf (more : List (Place × FileNode)) : Disk where
  files := ⟨⟨[(["m"], .directory), (["p"], .directory), (["p", "main.ink"], .file "A".toUTF8),
    (["p", "parts"], .directory), (["p", "parts", "Two.INK"], .file "B".toUTF8),
    (["p", "notes.txt"], .file "C".toUTF8), (["q"], .directory), (["q", "lent.ink"], .file "D".toUTF8),
    (["p", "shared.ink"], .link "/q"), (["p", "own.ink"], .link "/q/lent.ink")] ++ more⟩⟩

/-- How a mirror of the sample is made, in `/m`. -/
def bookshelfMirror : DiskWork (Mirror × Index) := create ⟨[".ink"], .ofText "/m"⟩ (.ofText "/p")

/-- The directory that a failure to make a mirror tells of. -/
def scratchTold : Except Failure (Mirror × Index) → Option Path
  | .error (.mirror e) => e.scratch
  | _ => none

theorem exists_of_scratchTold {r : Except Failure (Mirror × Index)} {path : Path} (h : scratchTold r = some path) :
    ∃ e, r = .error (.mirror e) ∧ e.scratch = some path := by
  unfold scratchTold at h
  split at h
  · exact ⟨_, rfl, h⟩
  · cases h

/-- The sources of the sample are copied, in whatever letter case they end, and one through a link. Where a link leads
nowhere no copy can be made, and the new directory is told of. -/
theorem bookshelf_is_copied :
    (∃ made base place, returns bookshelfMirror (bookshelf []) = .ok made ∧
      made.2.keys = [.ofText "main.ink", .ofText "own.ink", .ofText "parts/Two.INK"] ∧
      IsCopyOf ⟨[".ink"], .ofText "/m"⟩ (.ofText "/p") made.1 made.2 base place
        (leaves bookshelfMirror (bookshelf [])).files) ∧
    ∃ e, returns bookshelfMirror (bookshelf [(["p", "lost.ink"], .link "nowhere")]) = .error (.mirror e) ∧
      e.scratch = some (.ofText "/m/inkls-1") ∧
      IsNewScratch ⟨[".ink"], .ofText "/m"⟩ (bookshelf [(["p", "lost.ink"], .link "nowhere")])
        (leaves bookshelfMirror (bookshelf [(["p", "lost.ink"], .link "nowhere")])) (.ofText "/m/inkls-1") := by
  have hruns : (returns bookshelfMirror (bookshelf [])).toOption.map (·.2.keys) =
        some [.ofText "main.ink", .ofText "own.ink", .ofText "parts/Two.INK"] ∧
      scratchTold (returns bookshelfMirror (bookshelf [(["p", "lost.ink"], .link "nowhere")])) =
        some (.ofText "/m/inkls-1") := by
    decide +kernel
  have htree : (bookshelf []).files.IsTree := isTree_of_all (by decide +kernel) (by decide +kernel)
  have hbroken : (bookshelf [(["p", "lost.ink"], .link "nowhere")]).files.IsTree :=
    isTree_of_all (by decide +kernel) (by decide +kernel)
  obtain ⟨hkeys, htold⟩ := hruns
  constructor
  · cases hmade : returns bookshelfMirror (bookshelf []) with
    | error f =>
        rw [hmade] at hkeys
        cases hkeys
    | ok made =>
        rw [hmade] at hkeys
        obtain ⟨base, place, hcopy, _⟩ := (created_mirror_is_exact_copy htree _ _).of_ok hmade
        exact ⟨made, base, place, rfl, Option.some.inj hkeys, hcopy⟩
  · obtain ⟨e, he, hscratch⟩ := exists_of_scratchTold htold
    have hnew := (created_mirror_is_exact_copy hbroken _ _).of_error he
    exact ⟨e, he, hscratch, (hnew e rfl _).mp hscratch⟩

end Mirror

end InkServer
