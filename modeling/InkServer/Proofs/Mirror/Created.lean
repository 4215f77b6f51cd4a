import InkServer.Proofs.Mirror.Listing
import InkServer.Proofs.Mirror.Room

/-!
# Created files beside others

Created files are copied into mirrors one after the other. What was copied before never stands in the way of what
comes after: whatever is new in a mirror is there because something of its kind is in the workspace, and a workspace
does not have a file where it has a directory. So what can be copied alone can be copied behind anything else, and
what was copied stays.
-/

namespace InkServer

open Work

namespace Mirror

open FileSystem DiskWork Disk

/-- Which mirror takes the files of which workspace. Each was made, and takes those of one workspace only. -/
structure Serving (policy : MirrorPolicy) (serves : Mirror → Path → Prop) (d : Disk) : Prop where
  made : ∀ m root, serves m root → m.IsMade policy d
  root_eq : ∀ m root root', serves m root → serves m root' → root = root'

/-- What has become of a disk on which files were copied into mirrors. Nothing has gone and nothing is new besides
the mirrors; what is new in a mirror is of the kind that its workspace has there. -/
structure Grown (policy : MirrorPolicy) (serves : Mirror → Path → Prop) (home : Place) (d₀ d : Disk) : Prop where
  tidy : d.files.IsTidy policy d.scratches
  shelters : Shelters policy d.scratches home d.files
  scratches : d.scratches = d₀.scratches
  writeFailure : d.writeFailure = d₀.writeFailure
  covers : d₀.files.Covers d.files
  outside : ∀ place, ¬IsOf home d₀.scratches place → d.files.node? place = d₀.files.node? place
  new : ∀ k relative n, relative.IsInner → d₀.files.node? (placeOf home k ++ relative.segments) = none →
    d.files.node? (placeOf home k ++ relative.segments) = some n → ∃ m root, serves m root ∧
      m.path = policy.tempRoot.child (scratchName k) ∧ ∃ n', d.files.stat (root / relative) = .ok n' ∧ n'.kind = n.kind

variable {policy : MirrorPolicy} {serves : Mirror → Path → Prop} {home : Place} {d₀ d d' : Disk} {m : Mirror}
  {root relative : Path} {k : Nat} {content : ByteArray} {wrap : FileError → Failure} {fs : FileSystem}

theorem eq_of_path {m' : Mirror} (h : m.path = m'.path) : m = m' := by
  cases m
  cases m'
  exact congrArg Mirror.mk h

theorem placeOf_append (home : Place) (k : Nat) (names : List String) :
    placeOf home k ++ names = home ++ scratchName k :: names := by simp [placeOf]

/-- Above a file that can be read there are directories. -/
theorem stat_above_of_read {above : Path} (hr : relative.IsInner) (ha : above.IsInner)
    (hp : above.segments <+: relative.segments) (hne : above.segments ≠ relative.segments)
    (hread : fs.read (root / relative) = .ok content) : fs.stat (root / above) = .ok .directory := by
  obtain ⟨place, hfind⟩ := read_eq_ok_iff_find.mp hread
  obtain ⟨hshort, hwalk⟩ := find_eq_ok_iff.mp hfind
  have hsegments := Path.segments_join (p := root) hr.start
  have hsegments' := Path.segments_join (p := root) ha.start
  have hprefix : (root / above).segments <+: (root / relative).segments := by
    rw [hsegments, hsegments']
    exact (List.prefix_append_right_inj _).mpr hp
  obtain ⟨hsmall, -⟩ := Path.text_above ((Path.start_join ha.start).trans (Path.start_join hr.start).symm) hprefix
    (hsegments ▸ List.append_ne_nil_of_right_ne_nil _ hr.ne_nil)
  obtain ⟨rest, hrest⟩ := hprefix
  have hrest0 : rest ≠ [] := by
    rintro rfl
    rw [List.append_nil, hsegments, hsegments'] at hrest
    exact hne (List.append_cancel_left hrest)
  rw [← hrest] at hwalk
  obtain ⟨base, hway⟩ := way_of_walk_append hrest0 hwalk
  rw [stat_eq_ok_iff]
  exact ⟨base, find_eq_ok_iff.mpr ⟨fun hlong => hshort (Nat.le_trans hlong hsmall), way_iff.mp hway⟩⟩

/-! ## One copy -/

/-- One file was copied into a mirror, or it was tried. -/
def Copies (policy : MirrorPolicy) (serves : Mirror → Path → Prop) (d d' : Disk) : Prop :=
  ∃ m root relative wrap, serves m root ∧ relative.IsInner ∧ policy.isSource relative ∧
    d' = leaves (m.copyFile root wrap relative) d

/-- A copy that does anything reads and then writes. -/
theorem leaves_copyFile (m : Mirror) (root : Path) (wrap : FileError → Failure) (relative : Path) (d : Disk) :
    leaves (m.copyFile root wrap relative) d = d ∨ ∃ content, d.files.read (root / relative) = .ok content ∧
      leaves (m.copyFile root wrap relative) d = leaves (m.writeFile wrap relative content) d := by
  unfold copyFile
  have hread := reaches_self (telling wrap (FileWork.read (root / relative))) d
  have hlooks : leaves (telling wrap (FileWork.read (root / relative))) d = d :=
    looks_telling (FileWork.looks_ask _ _) d
  rw [leaves_bind, hlooks]
  cases hr : returns (telling wrap (FileWork.read (root / relative))) d with
  | error e => exact .inl rfl
  | ok content =>
      have hreads : Reaches (telling wrap (FileWork.read (root / relative))) d
          (fun content _ => d.files.read (root / relative) = .ok content) fun _ _ => True := by
        rw [reaches_telling]
        refine FileWork.reaches_ask.mpr ?_
        split
        · rename_i hread
          exact FileWork.about_eq_ok hread
        · trivial
      exact .inr ⟨content, hreads.of_ok hr, rfl⟩

section Adds

variable {fs' : FileSystem} {names : List String} {place : Place}

/-- What stands neither in the place of the file nor above it is as it was. -/
theorem Adds.node?_eq (h : Adds home names content fs fs')
    (hp : ∀ above, above <+: names → above ≠ [] → place ≠ home ++ above) (hne : names ≠ []) :
    fs'.node? place = fs.node? place := by
  cases hnew : fs'.node? place with
  | some n =>
      rcases h.new _ _ hnew with hold | ⟨_, above, ha, hab, _, rfl⟩ | ⟨rfl, _⟩
      · exact hold.symm
      · exact absurd rfl (hp above ha hab)
      · exact absurd rfl (hp names (List.prefix_refl _) hne)
  | none =>
      cases hold : fs.node? place with
      | none => rfl
      | some n =>
          obtain ⟨n', hn', _⟩ := h.covers _ _ hold
          cases hnew.symm.trans hn'

end Adds

/-- What a copy does if it does anything: what was read of a file of a workspace is written into its mirror. -/
structure Takes (policy : MirrorPolicy) (serves : Mirror → Path → Prop) (home : Place) (d d' : Disk) (m : Mirror)
    (k : Nat) (root relative : Path) (content : ByteArray) : Prop where
  serves : serves m root
  path : m.path = policy.tempRoot.child (scratchName k)
  pos : 0 < k
  le : k ≤ d.scratches
  inner : relative.IsInner
  read : d.files.read (root / relative) = .ok content
  adds : Adds home (scratchName k :: relative.segments) content d.files d'.files
  tidy : d'.files.IsTidy policy d'.scratches
  shelters : Shelters policy d'.scratches home d'.files
  scratches : d'.scratches = d.scratches
  writeFailure : d'.writeFailure = d.writeFailure

theorem Copies.cases (hc : Copies policy serves d d') (h : Grown policy serves home d₀ d)
    (hserving : Serving policy serves d₀) :
    d' = d ∨ ∃ m k root relative content, Takes policy serves home d d' m k root relative content := by
  obtain ⟨m, root, relative, wrap, hm, hr, hsource, rfl⟩ := hc
  obtain ⟨k, h0, hk, hpath⟩ := hserving.made m root hm
  refine (leaves_copyFile m root wrap relative d).imp_right fun ⟨content, hread, he⟩ =>
    ⟨m, k, root, relative, content, ?_⟩
  rw [he]
  have hk' : k ≤ d.scratches := h.scratches ▸ hk
  have hscratches := scratches_writeFile (d := d) (m := m) wrap relative content
  have hconfined := confined_writeFile h.tidy ⟨k, h0, hk', hpath⟩ wrap hr hsource content
  refine ⟨hm, hpath, h0, hk', hr, hread, ?_, hconfined.tidy, ?_, hscratches, writeFailure_writeFile⟩
  · exact reaches_leaves (p := fun d' => Adds home (scratchName k :: relative.segments) content d.files d'.files) |>.mp
      ((writeFile_adds hpath hr h.tidy h.shelters h0 hk').mono (fun _ _ h => h.2.2.2) fun _ _ h => h)
  · have heffects := hconfined.effects
    rw [hscratches] at heffects ⊢
    exact shelters_effects h.tidy h.shelters heffects

/-- A copy leaves of a disk what has become of it. -/
theorem Grown.copies (h : Grown policy serves home d₀ d) (hserving : Serving policy serves d₀)
    (hc : Copies policy serves d d') : Grown policy serves home d₀ d' := by
  obtain rfl | ⟨m, k, root, relative, content, hc⟩ := hc.cases h hserving
  · exact h
  obtain ⟨hm, hpath, h0, hk, hr, hread, hadds, htidy, hshelters, hscratches, hwritable⟩ := hc
  have hk : k ≤ d₀.scratches := h.scratches ▸ hk
  refine ⟨htidy, hshelters, hscratches.trans h.scratches, hwritable.trans h.writeFailure,
    h.covers.trans hadds.covers, fun place hplace => ?_, fun k' relative' n hr' hnone hn => ?_⟩
  · refine (hadds.node?_eq (fun above ha hne => ?_) (List.cons_ne_nil _ _)).trans (h.outside place hplace)
    rintro rfl
    cases above with
    | nil => exact hne rfl
    | cons name rest =>
        obtain ⟨rfl, _⟩ := List.cons_prefix_cons.mp ha
        rw [← placeOf_append] at hplace
        exact hplace (isOf_placeOf h0 hk rest)
  · rcases hadds.new _ _ hn with hold | ⟨rfl, above, ha, hab, hne, hplace⟩ | ⟨hplace, rfl⟩
    · obtain ⟨m', root', hm', hpath', n', hstat, hkind⟩ := h.new k' relative' n hr' hnone hold
      obtain ⟨n'', hstat', hkind'⟩ := hadds.covers.stat hstat
      exact ⟨m', root', hm', hpath', n'', hstat', hkind'.trans hkind⟩
    · rw [placeOf_append] at hplace
      obtain rfl := List.append_cancel_left hplace
      obtain ⟨hname, hprefix⟩ := List.cons_prefix_cons.mp ha
      obtain rfl := scratchName_injective hname
      have hstat := stat_above_of_read hr hr' hprefix (fun he => hne (by rw [he])) hread
      exact ⟨m, root, hm, hpath, _, hadds.covers.stat_directory hstat, rfl⟩
    · rw [placeOf_append] at hplace
      obtain ⟨hname, hsegments⟩ := List.cons.inj (List.append_cancel_left hplace)
      obtain rfl := scratchName_injective hname
      obtain rfl := segments_injective hr' hr hsegments
      obtain ⟨n', hstat, hkind⟩ := hadds.covers.stat (read_eq_ok_iff.mp hread)
      exact ⟨m, root, hm, hpath, n', hstat, hkind⟩

/-! ## Any number of copies -/

/-- Any number of copies. -/
abbrev CopiesAll (policy : MirrorPolicy) (serves : Mirror → Path → Prop) : Disk → Disk → Prop :=
  Relation.ReflTransGen (Copies policy serves)

theorem Grown.copiesAll (h : Grown policy serves home d₀ d) (hserving : Serving policy serves d₀)
    (hc : CopiesAll policy serves d d') : Grown policy serves home d₀ d' := by
  induction hc with
  | refl => exact h
  | tail _ hc ih => exact ih.copies hserving hc

theorem Grown.refl (ht : d.files.IsTidy policy d.scratches) (hs : Shelters policy d.scratches home d.files) :
    Grown policy serves home d d :=
  ⟨ht, hs, rfl, rfl, .refl _, fun _ _ => rfl, fun _ _ _ _ hnone hn => nomatch hnone.symm.trans hn⟩

theorem copiesAll_mapM (hm : serves m root) {paths : List Path} (hp : ∀ p ∈ paths, p.IsInner ∧ policy.isSource p) :
    Reaches (paths.mapM fun p => m.copyFile root wrap p) d (fun _ d' => CopiesAll policy serves d d')
      fun _ d' => CopiesAll policy serves d d' :=
  reaches_mapM .refl fun p hmem _ hd =>
    reaches_leaves.mpr (Relation.ReflTransGen.tail hd ⟨m, root, p, wrap, hm, (hp p hmem).1, (hp p hmem).2, rfl⟩)

/-- Copying what was created comes down to copies of single files. -/
theorem copiesAll_copyCreated (ht : d.files.IsTree) (hm : serves m root) (path : Path) :
    CopiesAll policy serves d (leaves (m.copyCreated policy root path) d) := by
  refine reaches_leaves.mp ?_
  unfold copyCreated
  rw [reaches_bind]
  refine (createdSources_isSource ht root path).mono (fun paths d₁ ⟨hsame, hp⟩ => ?_) fun _ d₁ hsame => ?_
  · subst hsame
    exact copiesAll_mapM hm hp
  · subst hsame
    exact .refl

/-! ## What can be copied can still be copied -/

/-- Whatever was copied meanwhile, a mirror admits a file that it could take before. -/
theorem Grown.admits (h : Grown policy serves home d₀ d) (h' : Grown policy serves home d₀ d')
    (hserving : Serving policy serves d₀) (hm : serves m root) (hpath : m.path = policy.tempRoot.child (scratchName k))
    (h0 : 0 < k) (hk : k ≤ d₀.scratches) (hr : relative.IsInner)
    (hread : d₀.files.read (root / relative) = .ok content) (ha : m.Admits k home d relative) :
    m.Admits k home d' relative := by
  obtain ⟨content', hread'⟩ := h'.covers.read hread
  -- What is new in the mirror is of the kind that the workspace has there.
  have hnew : ∀ (above : Path) n, above.IsInner → d₀.files.node? (placeOf home k ++ above.segments) = none →
      d'.files.node? (placeOf home k ++ above.segments) = some n →
        ∃ n', d'.files.stat (root / above) = .ok n' ∧ n'.kind = n.kind := by
    intro above n hi hnone hn
    obtain ⟨m', root', hm', hpath', hstat⟩ := h'.new k above n hi hnone hn
    obtain rfl := eq_of_path (hpath'.trans hpath.symm)
    obtain rfl := hserving.root_eq _ _ _ hm hm'
    exact hstat
  refine ⟨h'.writeFailure.trans (h.writeFailure.symm.trans ha.writable), ha.clean, ha.short, ha.room.named,
    fun above hp hne hlast => ?_, fun hd => ?_⟩
  · obtain ⟨name, below, rfl⟩ := List.exists_cons_of_ne_nil hne
    obtain ⟨rfl, hbelow⟩ := List.cons_prefix_cons.mp hp
    rw [← placeOf_append]
    by_cases hb : below = []
    · -- The directory of the mirror itself may have been made anew.
      subst hb
      have hholds := h'.shelters.holds k h0 (h'.scratches ▸ hk) []
      cases hn : d'.files.node? (placeOf home k ++ []) with
      | none => exact .inl rfl
      | some n =>
          rw [hn] at hholds
          cases n with
          | directory => exact .inr rfl
          | file c =>
              obtain ⟨_, hi, hs, _⟩ := hholds
              exact absurd hs hi.ne_nil
          | link target => exact hholds.elim
    · obtain ⟨above, hi, rfl⟩ := hr.above hb hbelow
      have hstat := stat_above_of_read hr hi hbelow (fun he => hlast (by rw [he])) hread'
      have habove := ha.room.above _ hp hne hlast
      rw [← placeOf_append] at habove
      cases hold : d₀.files.node? (placeOf home k ++ above.segments) with
      | some n =>
          obtain ⟨n', hn', hkind⟩ := h.covers _ _ hold
          obtain rfl : n' = .directory := by
            rw [hn'] at habove
            simpa using habove
          exact .inr (h'.covers.directory (FileNode.kind_eq_directory_iff.mp hkind.symm ▸ hold))
      | none =>
          cases hn : d'.files.node? (placeOf home k ++ above.segments) with
          | none => exact .inl rfl
          | some n =>
              obtain ⟨n', hstat', hkind⟩ := hnew above n hi hold hn
              cases hstat.symm.trans hstat'
              exact .inr (congrArg some (FileNode.kind_eq_directory_iff.mp hkind.symm))
  · rw [← placeOf_append] at hd
    cases hold : d₀.files.node? (placeOf home k ++ relative.segments) with
    | some n =>
        obtain ⟨n', hn', hkind⟩ := h'.covers _ _ hold
        cases hn'.symm.trans hd
        refine ha.room.free ?_
        rw [← placeOf_append]
        exact h.covers.directory (FileNode.kind_eq_directory_iff.mp hkind.symm ▸ hold)
    | none =>
        obtain ⟨n', hstat', hkind⟩ := hnew relative _ hr hold hd
        cases (read_eq_ok_iff.mp hread').symm.trans hstat'
        cases hkind

/-- A file of a workspace that could once be copied into its mirror. -/
def WasTaken (policy : MirrorPolicy) (serves : Mirror → Path → Prop) (home : Place) (d₀ : Disk) (m : Mirror) (k : Nat)
    (root relative : Path) : Prop :=
  FileWork.hasNull (root / relative) = false ∧ ∃ d content, Grown policy serves home d₀ d ∧
    d.files.read (root / relative) = .ok content ∧ m.Admits k home d relative

/-- A file of a workspace that stands in no mirror, and what it holds. -/
def IsSteady (home : Place) (d₀ : Disk) (root relative : Path) (content : ByteArray) : Prop :=
  ∃ place, d₀.files.find true (root / relative) = .ok (place, some (.file content)) ∧ ¬IsOf home d₀.scratches place

theorem IsSteady.read (h : IsSteady home d₀ root relative content) : d₀.files.read (root / relative) = .ok content := by
  obtain ⟨place, hfind, _⟩ := h
  exact read_eq_ok_iff_find.mpr ⟨place, hfind⟩

/-- What stands in no mirror holds what it held. -/
theorem Grown.read_steady (h : Grown policy serves home d₀ d) (hs : IsSteady home d₀ root relative content) :
    d.files.read (root / relative) = .ok content := by
  obtain ⟨place, hfind, hplace⟩ := hs
  obtain ⟨n, hfind', hkind⟩ := h.covers.find hfind
  obtain ⟨content', rfl⟩ := FileNode.kind_eq_file_iff.mp hkind
  have hold := node?_of_walk_file (find_eq_ok_iff.mp hfind).2
  have hnew := node?_of_walk_file (find_eq_ok_iff.mp hfind').2
  rw [h.outside place hplace, hold] at hnew
  cases hnew
  exact read_eq_ok_iff_find.mpr ⟨place, hfind'⟩

section mirror

variable (hserving : Serving policy serves d₀) (hm : serves m root)
  (hpath : m.path = policy.tempRoot.child (scratchName k)) (h0 : 0 < k) (hk : k ≤ d₀.scratches)

include hserving hm hpath

/-- What was copied into a mirror stays there, unless it is copied again, which changes nothing. -/
theorem Grown.planted_copies (h : Grown policy serves home d₀ d) (hr : relative.IsInner)
    (hs : IsSteady home d₀ root relative content)
    (hn : d.files.node? (placeOf home k ++ relative.segments) = some (.file content)) (hc : Copies policy serves d d') :
    d'.files.node? (placeOf home k ++ relative.segments) = some (.file content) := by
  obtain rfl | ⟨m', k', root', relative', content', hc⟩ := hc.cases h hserving
  · exact hn
  obtain ⟨content'', hn'⟩ := hc.adds.covers.file hn
  rw [hn']
  rcases hc.adds.new _ _ hn' with hold | ⟨hd, _⟩ | ⟨hplace, hfile⟩
  · rw [← hold, hn]
  · cases hd
  · rw [placeOf_append] at hplace
    obtain ⟨hname, hsegments⟩ := List.cons.inj (List.append_cancel_left hplace)
    obtain rfl := scratchName_injective hname
    obtain rfl := segments_injective hr hc.inner hsegments
    obtain rfl := eq_of_path (hc.path.trans hpath.symm)
    obtain rfl := hserving.root_eq _ _ _ hm hc.serves
    cases hc.read.symm.trans (h.read_steady hs)
    rw [hfile]

theorem Grown.planted_copiesAll (h : Grown policy serves home d₀ d) (hr : relative.IsInner)
    (hs : IsSteady home d₀ root relative content)
    (hn : d.files.node? (placeOf home k ++ relative.segments) = some (.file content))
    (hc : CopiesAll policy serves d d') :
    d'.files.node? (placeOf home k ++ relative.segments) = some (.file content) := by
  induction hc with
  | refl => exact hn
  | tail hd hc ih => exact (h.copiesAll hserving hd).planted_copies hserving hm hpath hr hs ih hc

include h0 hk

/-- Copies that succeed were taken. -/
theorem Grown.taken_mapM (h : Grown policy serves home d₀ d) {paths : List Path}
    (hp : ∀ p ∈ paths, p.IsInner ∧ policy.isSource p) :
    Reaches (paths.mapM fun p => m.copyFile root wrap p) d
      (fun entries _ => entries.map MirrorEntry.path = paths ∧
        ∀ p ∈ paths, WasTaken policy serves home d₀ m k root p) fun _ _ => True := by
  induction paths generalizing d with
  | nil =>
      rw [List.mapM_nil, reaches_pure]
      exact ⟨rfl, fun _ hp => absurd hp List.not_mem_nil⟩
  | cons p rest ih =>
      obtain ⟨hr, hsource⟩ := hp p List.mem_cons_self
      rw [List.mapM_cons, reaches_bind]
      have hcopy : Reaches (m.copyFile root wrap p) d
          (fun e _ => e.path = p ∧ WasTaken policy serves home d₀ m k root p) fun _ _ => True := by
        unfold copyFile
        rw [reaches_bind, reaches_telling]
        refine FileWork.reaches_ask.mpr ?_
        split
        · rename_i content hread
          refine (writeFile_adds hpath hr h.tidy h.shelters h0 (h.scratches ▸ hk)).mono
            (fun e _ ⟨he, ha, _⟩ => ⟨he ▸ rfl, ?_⟩) fun _ _ _ => trivial
          exact ⟨FileWork.clean_of_about hread, d, content, h, FileWork.about_eq_ok hread, ha⟩
        · trivial
      refine (hcopy.and (reaches_self _ d)).mono (fun e d₁ ⟨⟨he, htaken⟩, _, hd⟩ => ?_) fun _ _ _ => trivial
      have h₁ : Grown policy serves home d₀ d₁ := hd ▸ h.copies hserving ⟨m, root, p, wrap, hm, hr, hsource, rfl⟩
      rw [reaches_bind]
      refine (ih h₁ fun q hq => hp q (List.mem_cons_of_mem _ hq)).mono (fun entries _ ⟨hentries, hall⟩ => ?_)
        fun _ _ _ => trivial
      rw [reaches_pure]
      refine ⟨by rw [List.map_cons, he, hentries], fun q hq => ?_⟩
      rcases List.mem_cons.mp hq with rfl | hq
      · exact htaken
      · exact hall q hq

/-- Files that were taken once are copied again, whatever was copied meanwhile, and then they are in the mirror. -/
theorem Grown.mapM_plants (h : Grown policy serves home d₀ d) {paths : List Path}
    (hp : ∀ p ∈ paths, p.IsInner ∧ policy.isSource p)
    (ht : ∀ p ∈ paths, WasTaken policy serves home d₀ m k root p ∧ ∃ content, IsSteady home d₀ root p content) :
    Reaches (paths.mapM fun p => m.copyFile root wrap p) d
      (fun _ d' => ∀ p ∈ paths, ∀ content, IsSteady home d₀ root p content →
        d'.files.node? (placeOf home k ++ p.segments) = some (.file content)) fun _ _ => False := by
  induction paths generalizing d with
  | nil =>
      rw [List.mapM_nil, reaches_pure]
      exact fun _ hp => absurd hp List.not_mem_nil
  | cons p rest ih =>
      obtain ⟨hr, hsource⟩ := hp p List.mem_cons_self
      obtain ⟨⟨hclean, d₁, _, h₁, _, hadmits⟩, content, hsteady⟩ := ht p List.mem_cons_self
      have hcopy : Reaches (m.copyFile root wrap p) d
          (fun _ d' => d'.files.node? (placeOf home k ++ p.segments) = some (.file content)) fun _ _ => False := by
        have hadmits' := h₁.admits h hserving hm hpath h0 hk hr hsteady.read hadmits
        unfold copyFile
        rw [reaches_bind, reaches_telling]
        refine FileWork.reaches_ask.mpr ?_
        rw [FileWork.about_of_clean hclean, h.read_steady hsteady]
        have hk' : k ≤ d.scratches := h.scratches ▸ hk
        refine ((writeFile_adds hpath hr h.tidy h.shelters h0 hk').and
          (writeFile_of_admits hpath hr h.tidy h.shelters h0 hk' hadmits')).mono (fun _ d' hw => ?_) fun _ _ h => h.2
        rw [placeOf_append]
        exact hw.1.2.2.1
      rw [List.mapM_cons, reaches_bind]
      refine (hcopy.and (reaches_self _ d)).mono (fun _ d₁ ⟨hplanted, _, hd⟩ => ?_) fun _ _ h => h.1
      have h₁ : Grown policy serves home d₀ d₁ := hd ▸ h.copies hserving ⟨m, root, p, wrap, hm, hr, hsource, rfl⟩
      have hrest : ∀ q ∈ rest, q.IsInner ∧ policy.isSource q := fun q hq => hp q (List.mem_cons_of_mem _ hq)
      rw [reaches_bind]
      refine ((ih h₁ hrest fun q hq => ht q (List.mem_cons_of_mem _ hq)).and (copiesAll_mapM hm hrest)).mono
        (fun _ d' ⟨hall, hcopies⟩ => ?_) fun _ _ h => h.1
      rw [reaches_pure]
      intro q hq content' hsteady'
      rcases List.mem_cons.mp hq with rfl | hq
      · cases hsteady.read.symm.trans hsteady'.read
        exact h₁.planted_copiesAll hserving hm hpath hr hsteady hplanted hcopies
      · exact hall q hq content' hsteady'

end mirror

end Mirror

/-! ## What is listed -/

namespace Work

variable {ε σ α β : Type} {s : σ}

/-- Work that does not fail comes to something. -/
theorem Reaches.exists_ok {w : ExceptT ε (StateM σ) α} {ok : α → σ → Prop} (h : Reaches w s ok fun _ _ => False) :
    ∃ a, returns w s = .ok a ∧ ok a (leaves w s) := by
  unfold Reaches at h
  split at h
  · rename_i a ha
    exact ⟨a, ha, h⟩
  · exact h.elim

theorem Looks.of_mapM {xs : List β} {f : β → ExceptT ε (StateM σ) α} (hf : ∀ x, Looks (f x)) {as : List α}
    (h : returns (xs.mapM f) s = .ok as) : ∀ x ∈ xs, ∃ a, returns (f x) s = .ok a := by
  induction xs generalizing as with
  | nil => exact fun _ hx => absurd hx List.not_mem_nil
  | cons x rest ih =>
      rw [List.mapM_cons, returns_bind] at h
      cases hx : returns (f x) s with
      | error e =>
          rw [hx] at h
          cases h
      | ok a =>
          rw [hx] at h
          dsimp only at h
          rw [returns_bind, hf x s] at h
          cases hrest : returns (rest.mapM f) s with
          | error e =>
              rw [hrest] at h
              cases h
          | ok as' =>
              intro y hy
              rcases List.mem_cons.mp hy with rfl | hy
              · exact ⟨a, hx⟩
              · exact ih hrest y hy

end Work

namespace FileWork

open FileSystem

variable {fs fs' : FileSystem} {base : Place} {p : Path}

/-- What a listing that succeeds has listed. -/
theorem list_of_filesBelow {depth : Nat} {files : List Path}
    (h : returns (filesBelow (depth + 1) p) fs = .ok files) : hasNull p = false ∧
      ∃ base, fs.find true p = .ok (base, some .directory) ∧
        ∀ name ∈ (Text.inOrder (fs.names base)).filter (fun n => fs.listsDirectory p n && !fs.isLink (p.child n)),
          ∃ below, returns (filesBelow depth (p.child name)) fs = .ok below := by
  have hreaches : Reaches (filesBelow (depth + 1) p) fs (fun _ _ => hasNull p = false ∧
      ∃ base, fs.find true p = .ok (base, some .directory) ∧
        ∀ name ∈ (Text.inOrder (fs.names base)).filter (fun n => fs.listsDirectory p n && !fs.isLink (p.child n)),
          ∃ below, returns (filesBelow depth (p.child name)) fs = .ok below) fun _ _ => True := by
    rw [filesBelow, reaches_bind, reaches_ask]
    split
    · rename_i names hask
      obtain ⟨base, hfind, rfl⟩ := list_eq_ok_iff.mp (about_eq_ok hask)
      rw [reaches_get, reaches_bind]
      refine (Looks.mapM fun n => looks_filesBelow depth _).reaches (fun below hbelow => ?_) fun _ _ => trivial
      exact ⟨clean_of_about hask, base, hfind, Looks.of_mapM (fun n => looks_filesBelow depth _) hbelow⟩
    · trivial
  exact hreaches.of_ok h

/-- Where a directory could be listed it can still be listed if the same stands below it, with any bound. -/
theorem filesBelow_succeeds (ht : fs.IsTree) (ht' : fs'.IsTree) (hc : fs.Covers fs') {depth depth' : Nat}
    (hsame : ∀ names, names ≠ [] → fs'.node? (base ++ names) = fs.node? (base ++ names))
    (hp : ∀ place, fs.Way maxLinks [] p.segments place → place = base) (hd : fs.node? base = some .directory)
    (hdepth : fs.nodes.size < depth + base.length) {files : List Path}
    (h : returns (filesBelow depth p) fs = .ok files) :
    Reaches (filesBelow depth' p) fs' (fun _ fs'' => fs'' = fs') fun _ _ => False := by
  induction depth' generalizing depth p base files with
  | zero => rfl
  | succ depth' ih =>
      obtain ⟨depth, rfl⟩ : ∃ n, depth = n + 1 := by
        refine Nat.exists_eq_add_one_of_ne_zero fun h0 => ?_
        have hlength := length_le_size ht.closed hd
        omega
      obtain ⟨hclean, place, hfind, hbelow⟩ := list_of_filesBelow h
      have hw := way_iff.mpr (find_eq_ok_iff.mp hfind).2
      obtain rfl := hp place hw
      obtain ⟨n', hfind', hkind⟩ := hc.find hfind
      obtain rfl := FileNode.kind_eq_directory_iff.mp hkind
      have hw' := way_iff.mpr (find_eq_ok_iff.mp hfind').2
      unfold filesBelow
      rw [reaches_bind, reaches_ask, about_of_clean hclean, list_eq_ok_iff.mpr ⟨place, hfind', rfl⟩]
      dsimp only [Except.mapError]
      rw [reaches_get, reaches_bind]
      refine (reaches_mapM (p := fun fs'' => fs'' = fs') rfl fun name hname fs'' he => ?_).mono
        (fun _ _ h => h) fun _ _ h => h
      subst he
      have hn := (mem_entered_iff ht' hw' hfind').mp hname
      rw [hsame _ (List.cons_ne_nil _ _)] at hn
      obtain ⟨files', hfiles'⟩ := hbelow name ((mem_entered_iff ht hw hfind).mpr hn)
      obtain ⟨hs, hup⟩ := ht.plain hn
      refine ih (fun names hne => ?_) (fun _ hthere => way_child hw hs hup hn hthere) hn ?_ hfiles'
      · rw [List.append_assoc]
        exact hsame _ (List.append_ne_nil_of_right_ne_nil _ hne)
      · rw [List.length_append, List.length_singleton]
        omega

/-- What is listed stays listed as long as it leads to something that is no directory. -/
theorem isListed_congr (ht : fs.IsTree) (ht' : fs'.IsTree) (hc : fs.Covers fs')
    (hsame : ∀ names, names ≠ [] → fs'.node? (base ++ names) = fs.node? (base ++ names)) {q : Path}
    (hq : IsListed fs p base q → ∃ n, fs.stat q = .ok n) : IsListed fs' p base q ↔ IsListed fs p base q := by
  have hbelow : ∀ names n, fs'.Below base names n ↔ fs.Below base names n := fun names n => by
    rw [below_iff ht'.closed, below_iff ht.closed]
    exact and_congr_right fun hne => by rw [hsame names hne]
  constructor
  · rintro ⟨hstart, hleads, names, n, hsegments, hn, hnot⟩
    refine ⟨hstart, Bool.eq_false_iff.mpr fun hleads' => ?_, names, n, hsegments, (hbelow names n).mp hn, hnot⟩
    have hstat := hc.stat_directory (leadsToDirectory_iff.mp hleads')
    exact Bool.eq_false_iff.mp hleads (leadsToDirectory_iff.mpr hstat)
  · intro hlisted
    obtain ⟨n', hstat⟩ := hq hlisted
    obtain ⟨hstart, hleads, names, n, hsegments, hn, hnot⟩ := hlisted
    refine ⟨hstart, Bool.eq_false_iff.mpr fun hleads' => ?_, names, n, hsegments, (hbelow names n).mpr hn, hnot⟩
    obtain ⟨n'', hstat', hkind⟩ := hc.stat hstat
    cases (leadsToDirectory_iff.mp hleads').symm.trans hstat'
    rw [FileNode.kind_eq_directory_iff.mp hkind.symm] at hstat
    exact Bool.eq_false_iff.mp hleads (leadsToDirectory_iff.mpr hstat)

end FileWork

namespace Mirror

open FileSystem DiskWork Disk

variable {policy : MirrorPolicy} {serves : Mirror → Path → Prop} {home : Place} {d₀ d : Disk} {m : Mirror}
  {root path : Path} {k : Nat} {wrap : FileError → Failure}

/-- A path that leads to something beside the mirrors: in none of them, and above none of them. -/
def StandsBeside (fs : FileSystem) (home : Place) (mirrors : Nat) (p : Path) : Prop :=
  ∃ place n, fs.find true p = .ok (place, some n) ∧
    ∀ k, 0 < k → k ≤ mirrors → ¬placeOf home k <+: place ∧ ¬place <+: placeOf home k

theorem returns_telling {α : Type} {work : FileWork α} {a : α} (h : returns work d.files = .ok a) :
    returns (telling wrap work) d = .ok a := by
  have hreaches : Reaches (telling wrap work) d (fun b _ => b = a) fun _ _ => False := by
    rw [reaches_telling]
    unfold Reaches
    rw [h]
  obtain ⟨b, hb, rfl⟩ := hreaches.exists_ok
  exact hb

theorem returns_isDirectory {fs : FileSystem} {p : Path} {n : FileNode} (h : fs.stat p = .ok n) :
    returns (FileWork.isDirectory p) fs = .ok (!FileWork.hasNull p && n.isDirectory) := by
  have hreaches : Reaches (FileWork.isDirectory p) fs (fun b _ => b = (!FileWork.hasNull p && n.isDirectory))
      fun _ _ => False := by
    unfold FileWork.isDirectory FileWork.holds
    rw [reaches_get]
    split
    · rename_i hnull
      rw [hnull]
      rfl
    · rename_i hnull
      rw [h, Bool.eq_false_iff.mpr hnull]
      rfl
  obtain ⟨b, hb, rfl⟩ := hreaches.exists_ok
  exact hb

/-- What a created path stands for, once it is known whether it is a directory. -/
theorem returns_createdSources {isDirectory : Bool}
    (h : returns (FileWork.isDirectory path) d.files = .ok isDirectory) :
    returns (createdSources policy root path) d =
      if isDirectory then
        if path.isInside root then
          returns (sources policy path root fun e => .copy (.unlisted path ⟨.unlisted path e, root, none⟩)) d
        else .error (.copy (.outside path root))
      else (checkedRelative policy root path).mapError .copy |>.map fun relative => [relative] := by
  have hlooks : leaves (telling (fun e => .copy (.uncopied path e)) (FileWork.isDirectory path)) d = d :=
    looks_telling (FileWork.looks_holds _ _) d
  unfold createdSources
  rw [returns_bind, returns_telling h, hlooks]
  dsimp only
  split
  · split <;> rfl
  · cases checkedRelative policy root path <;> rfl

theorem returns_sources (policy : MirrorPolicy) (directory root : Path) {files : List Path}
    (h : returns (FileWork.allFilesBelow directory) d.files = .ok files) :
    returns (sources policy directory root wrap) d =
      .ok ((files.filter policy.isSource).filterMap fun p => p.relativeTo? root) := by
  unfold sources
  rw [returns_bind, returns_telling h]
  rfl

theorem exists_of_returns_sources {directory : Path} {paths : List Path}
    (h : returns (sources policy directory root wrap) d = .ok paths) :
    ∃ files, returns (FileWork.allFilesBelow directory) d.files = .ok files := by
  have hreaches : Reaches (sources policy directory root wrap) d
      (fun _ _ => ∃ files, returns (FileWork.allFilesBelow directory) d.files = .ok files) fun _ _ => True := by
    unfold sources
    rw [reaches_bind, reaches_telling]
    exact (reaches_self _ d.files).mono (fun files _ hf => ⟨files, hf.1⟩) fun _ _ _ => trivial
  exact hreaches.of_ok h

/-- Below a directory that stands beside the mirrors nothing changes. -/
theorem Grown.below_eq (h : Grown policy serves home d₀ d) {place : Place}
    (hp : ∀ k, 0 < k → k ≤ d₀.scratches → ¬placeOf home k <+: place ∧ ¬place <+: placeOf home k) (names : List String) :
    d.files.node? (place ++ names) = d₀.files.node? (place ++ names) := by
  refine h.outside _ fun ⟨k, h0, hk, hprefix⟩ => ?_
  obtain ⟨hnot, hnot'⟩ := hp k h0 hk
  rcases List.prefix_or_prefix_of_prefix hprefix (List.prefix_append place names) with hin | habove
  · exact hnot hin
  · exact hnot' habove

/-- Whatever was copied meanwhile, a created path beside the mirrors stands for the same sources. -/
theorem Grown.createdSources_alike (h : Grown policy serves home d₀ d) (ht : d₀.files.IsTree)
    (hp : StandsBeside d₀.files home d₀.scratches path)
    (hlisted : ∀ base q, d₀.files.find true path = .ok (base, some .directory) →
      FileWork.IsListed d₀.files path base q → policy.isSource q → StandsBeside d₀.files home d₀.scratches q)
    {paths₀ : List Path} (hown : returns (createdSources policy root path) d₀ = .ok paths₀) :
    ∃ paths, returns (createdSources policy root path) d = .ok paths ∧ ∀ p, p ∈ paths ↔ p ∈ paths₀ := by
  obtain ⟨place, n, hfind, hbeside⟩ := hp
  obtain ⟨n', hfind', hkind⟩ := h.covers.find hfind
  have hstat := returns_isDirectory (stat_eq_ok_iff.mpr ⟨place, hfind⟩)
  have hstat' := returns_isDirectory (stat_eq_ok_iff.mpr ⟨place, hfind'⟩)
  rw [FileNode.isDirectory_congr hkind] at hstat'
  rw [returns_createdSources hstat] at hown
  rw [returns_createdSources hstat']
  split at hown
  · rename_i hd
    rw [if_pos hd]
    split at hown
    · rename_i hinside
      rw [if_pos hinside]
      obtain ⟨files₀, hfiles₀⟩ := exists_of_returns_sources hown
      rw [returns_sources policy path root hfiles₀] at hown
      cases hown
      obtain rfl : n = .directory := by
        cases n with
        | directory => rfl
        | file | link => simp [FileNode.isDirectory] at hd
      obtain rfl := FileNode.kind_eq_directory_iff.mp hkind
      have hw := way_iff.mpr (find_eq_ok_iff.mp hfind).2
      have hw' := way_iff.mpr (find_eq_ok_iff.mp hfind').2
      have hbelow : ∀ names, names ≠ [] → d.files.node? (place ++ names) = d₀.files.node? (place ++ names) :=
        fun names _ => h.below_eq hbeside names
      have hsucceeds : Reaches (FileWork.allFilesBelow path) d.files (fun _ fs => fs = d.files) fun _ _ => False :=
        FileWork.filesBelow_succeeds ht h.tidy.tree h.covers hbelow (fun _ hplace => hw.eq hplace)
          (hw.node? ht.closed (node?_nil _)) (by omega) hfiles₀
      obtain ⟨files, hfiles, -⟩ := hsucceeds.exists_ok
      have hlists₀ := (FileWork.allFilesBelow_lists ht hw).of_ok hfiles₀
      have hlists := (FileWork.allFilesBelow_lists h.tidy.tree hw').of_ok hfiles
      refine ⟨_, returns_sources policy path root hfiles, fun p => ?_⟩
      rw [List.mem_filterMap, List.mem_filterMap]
      refine exists_congr fun q => and_congr_left fun _ => ?_
      rw [List.mem_filter, List.mem_filter]
      refine and_congr_left fun hsource => ?_
      rw [hlists q, hlists₀ q]
      refine FileWork.isListed_congr ht h.tidy.tree h.covers hbelow fun hq => ?_
      obtain ⟨_, n, hfindq, _⟩ := hlisted place q hfind hq hsource
      exact ⟨n, stat_eq_ok_iff.mpr ⟨_, hfindq⟩⟩
    · cases hown
  · rename_i hd
    rw [if_neg hd]
    exact ⟨paths₀, hown, fun _ => Iff.rfl⟩

/-! ## Created paths -/

theorem leaves_createdSources (policy : MirrorPolicy) (root path : Path) (d : Disk) :
    leaves (createdSources policy root path) d = d :=
  reaches_leaves (p := fun d' => d' = d) |>.mp
    ((createdSources_reaches policy root path d).mono (fun _ _ h => h.1) fun _ _ h => h)

/-- Once it is known what a created path stands for, that is copied. -/
theorem reaches_copyCreated {paths : List Path} (h : returns (createdSources policy root path) d = .ok paths)
    {ok : List MirrorEntry → Disk → Prop} {error : Failure → Disk → Prop} :
    Reaches (m.copyCreated policy root path) d ok error ↔
      Reaches (paths.mapM fun p => m.copyFile root (fun e => .copy (.uncopied path e)) p) d ok error := by
  unfold copyCreated Reaches
  rw [returns_bind, leaves_bind, h, leaves_createdSources]

theorem exists_of_returns_copyCreated {entries : List MirrorEntry}
    (h : returns (m.copyCreated policy root path) d = .ok entries) :
    ∃ paths, returns (createdSources policy root path) d = .ok paths ∧
      returns (paths.mapM fun p => m.copyFile root (fun e => .copy (.uncopied path e)) p) d = .ok entries := by
  unfold copyCreated at h
  rw [returns_bind, leaves_createdSources] at h
  cases hp : returns (createdSources policy root path) d with
  | error e =>
      rw [hp] at h
      cases h
  | ok paths =>
      rw [hp] at h
      exact ⟨paths, rfl, h⟩

/-- A file of a workspace that stands in no mirror is in its own mirror, with what it holds. -/
structure IsPlanted (policy : MirrorPolicy) (serves : Mirror → Path → Prop) (home : Place) (d₀ : Disk) (m : Mirror)
    (k : Nat) (root : Path) (d : Disk) (relative : Path) (content : ByteArray) : Prop where
  inner : relative.IsInner
  steady : IsSteady home d₀ root relative content
  taken : WasTaken policy serves home d₀ m k root relative
  there : d.files.node? (placeOf home k ++ relative.segments) = some (.file content)

theorem isSteady_of_taken {relative : Path} (ht : WasTaken policy serves home d₀ m k root relative)
    (hp : StandsBeside d₀.files home d₀.scratches (root / relative)) :
    ∃ content, IsSteady home d₀ root relative content := by
  obtain ⟨place, n, hfind, hbeside⟩ := hp
  obtain ⟨-, d, content, hd, hread, -⟩ := ht
  obtain ⟨n', hstat, hkind⟩ := hd.covers.stat (stat_eq_ok_iff.mpr ⟨place, hfind⟩)
  cases (read_eq_ok_iff.mp hread).symm.trans hstat
  obtain ⟨content', rfl⟩ := FileNode.kind_eq_file_iff.mp hkind.symm
  exact ⟨content', place, hfind, fun ⟨k, h0, hk, hin⟩ => (hbeside k h0 hk).1 hin⟩

section mirror

variable (hserving : Serving policy serves d₀) (hm : serves m root)
  (hpath : m.path = policy.tempRoot.child (scratchName k)) (h0 : 0 < k) (hk : k ≤ d₀.scratches)

include hserving hm hpath

theorem Grown.isPlanted_copiesAll {d' : Disk} (h : Grown policy serves home d₀ d) {relative : Path}
    {content : ByteArray} (hp : IsPlanted policy serves home d₀ m k root d relative content)
    (hc : CopiesAll policy serves d d') : IsPlanted policy serves home d₀ m k root d' relative content :=
  ⟨hp.inner, hp.steady, hp.taken, h.planted_copiesAll hserving hm hpath hp.inner hp.steady hp.there hc⟩

include h0 hk

omit hserving hm in
theorem Grown.content?_of_isPlanted (h : Grown policy serves home d₀ d) {relative : Path} {content : ByteArray}
    (hp : IsPlanted policy serves home d₀ m k root d relative content) :
    m.content? d.files relative = some content := by
  obtain ⟨hr, -, ⟨-, d₁, _, -, -, ha⟩, hn⟩ := hp
  rw [placeOf_append] at hn
  have hd : d.files.node? (home ++ (scratchName k :: relative.segments).dropLast) = some .directory := by
    rw [← List.dropLast_concat_getLast (List.cons_ne_nil (scratchName k) relative.segments), ← List.append_assoc] at hn
    exact h.tidy.tree.closed _ _ _ hn
  rw [content?_eq_some_iff, read_eq_ok_iff_find]
  refine ⟨_, (h.shelters.find_into h0 (h.scratches ▸ hk) (segments_destination hpath hr) hr.noUp true).mpr
    ⟨Nat.not_le_of_lt ha.short, ?_, rfl, hn.symm⟩⟩
  exact opens_of_directory h.tidy.tree.closed ha.room.named hd

/-- What can be copied alone can be copied behind anything else: a created path beside the mirrors whose own copy
succeeds is copied, whatever was copied before, and then its sources are in the mirror. -/
theorem Grown.copyCreated_plants (h : Grown policy serves home d₀ d) (h₀ : Grown policy serves home d₀ d₀)
    (hp : StandsBeside d₀.files home d₀.scratches path)
    (hlisted : ∀ base q, d₀.files.find true path = .ok (base, some .directory) →
      FileWork.IsListed d₀.files path base q → policy.isSource q → StandsBeside d₀.files home d₀.scratches q)
    {entries : List MirrorEntry} (hown : returns (m.copyCreated policy root path) d₀ = .ok entries)
    (hentries : ∀ e ∈ entries, StandsBeside d₀.files home d₀.scratches (root / e.path)) :
    Reaches (m.copyCreated policy root path) d
      (fun _ d' => ∀ e ∈ entries, ∃ content, IsPlanted policy serves home d₀ m k root d' e.path content)
      fun _ _ => False := by
  have ht := h₀.tidy.tree
  obtain ⟨paths₀, hpaths₀, hcopied⟩ := exists_of_returns_copyCreated hown
  have hinner := ((createdSources_isSource ht root path).of_ok hpaths₀).2
  obtain ⟨rfl, htaken⟩ := (h₀.taken_mapM hserving hm hpath h0 hk hinner).of_ok hcopied
  obtain ⟨paths, hpaths, hsame⟩ := h.createdSources_alike ht hp hlisted hpaths₀
  have hsteady : ∀ p ∈ entries.map MirrorEntry.path, ∃ content, IsSteady home d₀ root p content := by
    intro p hmem
    obtain ⟨e, he, rfl⟩ := List.mem_map.mp hmem
    exact isSteady_of_taken (htaken _ hmem) (hentries e he)
  rw [reaches_copyCreated hpaths]
  refine (h.mapM_plants hserving hm hpath h0 hk (fun p hmem => hinner p ((hsame p).mp hmem)) fun p hmem =>
    ⟨htaken p ((hsame p).mp hmem), hsteady p ((hsame p).mp hmem)⟩).mono (fun _ d' hplanted e he => ?_) fun _ _ h => h
  have hmem := List.mem_map_of_mem (f := MirrorEntry.path) he
  obtain ⟨content, hs⟩ := hsteady _ hmem
  exact ⟨content, (hinner _ hmem).1, hs, htaken _ hmem, hplanted _ ((hsame _).mpr hmem) content hs⟩

end mirror

end Mirror

end InkServer
