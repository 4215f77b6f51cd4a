import InkServer.Proofs.Failures.Operations
import InkServer.Proofs.Mirror.Apart
import InkServer.Proofs.Mirror.Created
import InkServer.Proofs.Workspace.Custody
import InkServer.Proofs.Workspace.Settling

/-!
# Created paths one after the other

What a created path comes to is what its own copy comes to, whatever was copied before, unless one of the paths cannot
even be asked about: then all of them come to nothing.
-/

namespace InkServer

open Work ServerAct DiskWork

variable {l : Loop ServerState Operation} {path : Path}

namespace ServerState

open FileSystem Mirror

variable {s s' : ServerState} {path root : Path} {m : Mirror} {d d' : Disk} {status : SyncStatus}

/-! ## What becomes of a path -/

/-- Which mirror takes the created files of which directory. -/
def Serves (s : ServerState) (m : Mirror) (root : Path) : Prop := ∃ path, s.destination path = .ok (m, root)

/-- A server at rest: nobody writes into a mirror, and each mirror is that of one workspace. -/
structure Rests (s : ServerState) : Prop where
  tidy : s.disk.files.IsTidy s.policy s.disk.scratches
  made : ∀ id m, s.Has id m → m.IsMade s.policy s.disk
  apart : ∀ id id' m, s.Has id m → s.Has id' m → id = id'
  free : ∀ w ∈ s.workspaces, w.writing = {}

/-- A path that leads to something beside the mirrors. -/
def IsBeside (s : ServerState) (p : Path) : Prop :=
  ∃ home, s.disk.files.Way maxLinks [] s.policy.tempRoot.segments home ∧
    StandsBeside s.disk.files home s.disk.scratches p

/-- A created path whose own copy succeeds, where nothing that is read for it stands in a mirror or above one. -/
structure CanCopy (s : ServerState) (m : Mirror) (root path : Path) (entries : List MirrorEntry) : Prop where
  destination : s.destination path = .ok (m, root)
  fits : returns (FileWork.isDirectory path) s.disk.files = .ok true ∨ s.policy.isSource path
  copies : returns (m.copyCreated s.policy root path) s.disk = .ok entries
  beside : s.IsBeside path
  listed : ∀ base q, s.disk.files.find true path = .ok (base, some .directory) →
    FileWork.IsListed s.disk.files path base q → s.policy.isSource q → s.IsBeside q
  sources : ∀ e ∈ entries, s.IsBeside (root / e.path)

/-- A path of a ready workspace that cannot even be asked about. -/
structure IsUnaskable (s : ServerState) (d : Disk) (path : Path) (e : Errno) : Prop where
  destination : ∃ m root, s.destination path = .ok (m, root)
  clean : FileWork.hasNull path = false
  stat : d.files.stat path = .error e
  present : ¬meansAbsent e

/-- Copies that were made from where the server rested. -/
def HasCopied (s : ServerState) (d : Disk) : Prop := CopiesAll s.policy s.Serves s.disk d

/-- Why a created path ends everything, and on which disk. -/
inductive Raises (s : ServerState) (path : Path) : Failure → Disk → Prop
  /-- It cannot be asked about. -/
  | unaskable {d : Disk} {e : Errno} (h : s.IsUnaskable d path e) : Raises s path (.file (.os ⟨e, some path.text⟩)) d
  /-- Its own copy meets a null character. -/
  | nullCharacter {m : Mirror} {root : Path} {d : Disk} (hd : s.destination path = .ok (m, root)) (hc : s.HasCopied d)
      (h : returns (m.copyCreated s.policy root path) d = .error (.file .nullCharacter)) :
      Raises s path (.file .nullCharacter) (leaves (m.copyCreated s.policy root path) d)

/-- A file of a workspace is in its mirror, and stays there. -/
def IsPlanted (s : ServerState) (m : Mirror) (root : Path) (d : Disk) (relative : Path) : Prop :=
  ∃ home k content, Shelters s.policy s.disk.scratches home s.disk.files ∧ 0 < k ∧ k ≤ s.disk.scratches ∧
    m.path = s.policy.tempRoot.child (scratchName k) ∧
    Mirror.IsPlanted s.policy s.Serves home s.disk m k root d relative content

/-- A server whose mirrors are looked after is at rest when nobody writes. -/
theorem Custody.rests {charges : List Charge} (h : s.Custody charges)
    (ht : s.disk.files.IsTidy s.policy s.disk.scratches) (hfree : ∀ w ∈ s.workspaces, w.writing = {}) : s.Rests :=
  ⟨ht, fun _ _ => h.has_isMade, h.apart, hfree⟩

theorem Serves.exists_workspace (h : s.Serves m root) :
    ∃ (id : WorkspaceId) (w : Workspace), s.workspaces[id]? = some w ∧ w.mirror = some m ∧ w.root = root := by
  obtain ⟨path, hd⟩ := h
  obtain ⟨id, -, hready⟩ := exists_of_destination hd
  obtain ⟨w, hw, -, hm, hroot⟩ := readyMirror?_eq_some_iff.mp hready
  exact ⟨id, w, hw, hm, hroot⟩

namespace Rests

theorem serving (h : s.Rests) : Serving s.policy s.Serves s.disk := by
  refine ⟨fun m root hs => ?_, fun m root root' hs hs' => ?_⟩
  · obtain ⟨id, w, hw, hm, -⟩ := hs.exists_workspace
    exact h.made id m ⟨w, hw, hm⟩
  · obtain ⟨id, w, hw, hm, rfl⟩ := hs.exists_workspace
    obtain ⟨id', w', hw', hm', rfl⟩ := hs'.exists_workspace
    obtain rfl := h.apart _ _ _ ⟨w, hw, hm⟩ ⟨w', hw', hm'⟩
    cases hw.symm.trans hw'
    rfl

/-- Where mirrors are served they stand somewhere. -/
theorem exists_home (h : s.Rests) (hd : s.destination path = .ok (m, root)) :
    ∃ home k, Shelters s.policy s.disk.scratches home s.disk.files ∧ 0 < k ∧ k ≤ s.disk.scratches ∧
      m.path = s.policy.tempRoot.child (scratchName k) := by
  obtain ⟨k, h0, hk, hpath⟩ := h.serving.made m root ⟨path, hd⟩
  obtain ⟨home, hs⟩ := h.tidy.shelters (Nat.ne_of_gt (Nat.lt_of_lt_of_le h0 hk))
  exact ⟨home, k, hs, h0, hk, hpath⟩

theorem grown (h : s.Rests) {home : Place} (hs : Shelters s.policy s.disk.scratches home s.disk.files)
    (hc : s.HasCopied d) : Grown s.policy s.Serves home s.disk d := (Grown.refl h.tidy hs).copiesAll h.serving hc

theorem isPlanted_copiesAll (h : s.Rests) (hserves : s.Serves m root) {relative : Path}
    (hp : s.IsPlanted m root d relative) (hc : s.HasCopied d) (hc' : CopiesAll s.policy s.Serves d d') :
    s.IsPlanted m root d' relative := by
  obtain ⟨home, k, content, hs, h0, hk, hpath, hp⟩ := hp
  exact ⟨home, k, content, hs, h0, hk, hpath, (h.grown hs hc).isPlanted_copiesAll h.serving hserves hpath hp hc'⟩

/-- What was put into a mirror is read there. -/
theorem content?_of_isPlanted (h : s.Rests) (hc : s.HasCopied d) {relative : Path}
    (hp : s.IsPlanted m root d relative) :
    ∃ content, s.disk.files.read (root / relative) = .ok content ∧ m.content? d.files relative = some content := by
  obtain ⟨home, k, content, hs, h0, hk, hpath, hp⟩ := hp
  exact ⟨content, hp.steady.read, (h.grown hs hc).content?_of_isPlanted hpath h0 hk hp⟩

end Rests

theorem IsBeside.standsBeside {p : Path} {home : Place} (h : s.IsBeside p)
    (hs : Shelters s.policy s.disk.scratches home s.disk.files) :
    StandsBeside s.disk.files home s.disk.scratches p := by
  obtain ⟨home', hway, hbeside⟩ := h
  exact hs.way.eq hway ▸ hbeside

/-- What comes of asking whether a path is a directory. -/
theorem reaches_isDirectory (path : Path) (d : Disk) :
    Reaches (plainly (FileWork.isDirectory path)) d
      (fun _ d' => d' = d ∧ ∀ e, FileWork.hasNull path = false → d.files.stat path = .error e → meansAbsent e)
      fun f d' => d' = d ∧ ∃ e, FileWork.hasNull path = false ∧ d.files.stat path = .error e ∧ ¬meansAbsent e ∧
        f = .file (.os ⟨e, some path.text⟩) := by
  unfold plainly
  rw [reaches_telling]
  unfold FileWork.isDirectory FileWork.holds
  rw [reaches_get]
  split
  · rename_i hnull
    exact ⟨rfl, fun e hclean => absurd (hnull.symm.trans hclean) (by decide)⟩
  · rename_i hnull
    split
    · rename_i n hn
      exact ⟨rfl, fun e _ he => nomatch hn.symm.trans he⟩
    · rename_i e he
      split
      · rename_i habsent
        refine ⟨rfl, fun e' _ he' => ?_⟩
        cases he.symm.trans he'
        exact habsent
      · rename_i hpresent
        exact ⟨rfl, e, Bool.eq_false_iff.mpr hnull, he, hpresent, rfl⟩

theorem reaches_statusAfter {work : DiskWork (List MirrorEntry)} {ok : SyncStatus → Disk → Prop}
    {error : Failure → Disk → Prop} :
    Reaches (ExceptT.mk (CreatedFiles.statusAfter <$> work.run)) d ok error ↔
      match CreatedFiles.statusAfter (returns work d) with
      | .ok status => ok status (leaves work d)
      | .error f => error f (leaves work d) := by
  have hreturns : returns (ExceptT.mk (CreatedFiles.statusAfter <$> work.run)) d =
      CreatedFiles.statusAfter (returns work d) := rfl
  have hleaves : leaves (ExceptT.mk (CreatedFiles.statusAfter <$> work.run)) d = leaves work d := rfl
  unfold Reaches
  rw [hreturns, hleaves]
  cases CreatedFiles.statusAfter (returns work d) <;> rfl

/-- What becomes of a created path once others were copied. -/
structure Settles (s : ServerState) (path : Path) (d : Disk) (status : SyncStatus) (d' : Disk) : Prop where
  copies : CopiesAll s.policy s.Serves d d'
  asks : ∀ e, ¬s.IsUnaskable s.disk path e
  applied : ∀ m root entries, s.CanCopy m root path entries → status = .applied
  planted : ∀ m root entries, s.CanCopy m root path entries → ∀ e ∈ entries, s.IsPlanted m root d' e.path

/-- A path for which no workspace is ready. -/
theorem settles_of_error (hd : s.destination path = .error status) (status' : SyncStatus) :
    s.Settles path d status' d := by
  refine ⟨.refl, fun e hu => ?_, fun m root _ hcan => ?_, fun m root _ hcan => ?_⟩
  · obtain ⟨m, root, h⟩ := hu.destination
    cases hd.symm.trans h
  · cases hd.symm.trans hcan.destination
  · cases hd.symm.trans hcan.destination

namespace Rests

/-- A path that can be copied on its own is copied, whatever was copied before. -/
theorem copyCreated_plants (h : s.Rests) (hc : s.HasCopied d) {entries : List MirrorEntry}
    (hcan : s.CanCopy m root path entries) :
    Reaches (m.copyCreated s.policy root path) d (fun _ d' => ∀ e ∈ entries, s.IsPlanted m root d' e.path)
      fun _ _ => False := by
  obtain ⟨home, k, hs, h0, hk, hpath⟩ := h.exists_home hcan.destination
  have hplants := (h.grown hs hc).copyCreated_plants h.serving ⟨path, hcan.destination⟩ hpath h0 hk (h.grown hs .refl)
    (hcan.beside.standsBeside hs) (fun base q hf hl hq => (hcan.listed base q hf hl hq).standsBeside hs) hcan.copies
    fun e he => (hcan.sources e he).standsBeside hs
  refine hplants.mono (fun _ d' hp e he => ?_) fun _ _ h => h
  obtain ⟨content, hp⟩ := hp e he
  exact ⟨home, k, content, hs, h0, hk, hpath, hp⟩

/-- A path that can be copied on its own is taken for a directory or a source file, whatever was copied before. -/
theorem fits_of_canCopy (h : s.Rests) (hc : s.HasCopied d) {entries : List MirrorEntry}
    (hcan : s.CanCopy m root path entries) {isDirectory : Bool}
    (hd : returns (plainly (FileWork.isDirectory path)) d = .ok isDirectory) :
    (!isDirectory && !s.policy.isSource path) = false := by
  rcases hcan.fits with hdirectory | hsource
  · obtain ⟨home, k, hs, -⟩ := h.exists_home hcan.destination
    obtain ⟨place, n, hfind, -⟩ := hcan.beside.standsBeside hs
    have hstat := stat_eq_ok_iff.mpr ⟨place, hfind⟩
    obtain ⟨n', hstat', hkind⟩ := (h.grown hs hc).covers.stat hstat
    have hthere : returns (plainly (FileWork.isDirectory path)) d = .ok true := by
      refine returns_telling ((returns_isDirectory hstat').trans ?_)
      rw [FileNode.isDirectory_congr hkind, ← returns_isDirectory hstat, hdirectory]
    cases hd.symm.trans hthere
    rfl
  · rw [hsource, Bool.not_true, Bool.and_false]

/-- One path after others: it is copied if it can be copied on its own, unless it raises something. -/
theorem settle_reaches (h : s.Rests) (hc : s.HasCopied d) (path : Path) :
    Reaches (s.settle path) d (s.Settles path d) fun f d' => s.Raises path f d' := by
  cases hd : s.destination path with
  | error status =>
      unfold settle
      rw [hd]
      exact settles_of_error hd status
  | ok target =>
      obtain ⟨m, root⟩ := target
      obtain ⟨home, k, hs, -⟩ := h.exists_home hd
      have hgrown := h.grown hs hc
      rw [CreatedFiles.settle_of_ok hd, reaches_bind]
      refine ((reaches_isDirectory path d).and (reaches_self _ d)).mono
        (fun isDirectory d₁ ⟨⟨hsame, hasks⟩, hreturns, _⟩ => ?_) fun f d₁ ⟨⟨hsame, e, hclean, hstat, he, hf⟩, _⟩ => ?_
      · subst hsame
        have hasks₀ : ∀ e, ¬s.IsUnaskable s.disk path e := fun e hu =>
          hu.present (hasks e hu.clean (hgrown.covers.stat_error hu.present hu.stat))
        by_cases hnot : (!isDirectory && !s.policy.isSource path) = true
        · rw [if_pos hnot]
          have hno : ∀ {m root entries}, ¬s.CanCopy m root path entries := fun hcan =>
            Bool.false_ne_true ((h.fits_of_canCopy hc hcan hreturns).symm.trans hnot)
          exact ⟨.refl, hasks₀, fun _ _ _ hcan => (hno hcan).elim, fun _ _ _ hcan => (hno hcan).elim⟩
        · rw [if_neg hnot, reaches_statusAfter]
          have hcopies : CopiesAll s.policy s.Serves d₁ _ := copiesAll_copyCreated hgrown.tidy.tree ⟨path, hd⟩ path
          have hfails : (m.copyCreated s.policy root path).Failing
              fun f => f = .file .nullCharacter ∨ ∃ e, f = .copy e :=
            failing_copyCreated (.inl rfl) (fun e => .inr ⟨e, rfl⟩) m s.policy root path
          have hplants : ∀ m' root' entries, s.CanCopy m' root' path entries →
              Reaches (m.copyCreated s.policy root path) d₁
                (fun _ d' => ∀ e ∈ entries, s.IsPlanted m' root' d' e.path) fun _ _ => False := by
            intro m' root' entries hcan
            cases hd.symm.trans hcan.destination
            exact h.copyCreated_plants hc hcan
          cases hr : returns (m.copyCreated s.policy root path) d₁ with
          | ok entries' =>
              exact ⟨hcopies, hasks₀, fun _ _ _ _ => rfl, fun _ _ _ hcan => (hplants _ _ _ hcan).of_ok hr⟩
          | error f =>
              have hno : ∀ {m root entries}, ¬s.CanCopy m root path entries := fun hcan =>
                (hplants _ _ _ hcan).of_error hr
              rcases hfails d₁ _ hr with rfl | ⟨e, rfl⟩
              · exact .nullCharacter hd hc hr
              · exact ⟨hcopies, hasks₀, fun _ _ _ hcan => (hno hcan).elim, fun _ _ _ hcan => (hno hcan).elim⟩
      · subst hsame hf
        exact .unaskable ⟨⟨m, root, hd⟩, hclean, hstat, he⟩

end Rests

/-! ## What becomes of all of them -/

variable {results results' : Dict Path SyncStatus} {rest paths : List Path}

/-- What becomes of created paths, of which the first are known already. -/
structure SettlesAll (s : ServerState) (results : Dict Path SyncStatus) (paths : List Path) (d : Disk)
    (results' : Dict Path SyncStatus) (d' : Disk) : Prop where
  copies : CopiesAll s.policy s.Serves d d'
  keys : ∀ p, p ∈ results'.keys ↔ p ∈ results.keys ∨ p ∈ paths
  others : ∀ p, p ∉ paths → results'.get? p = results.get? p
  asks : ∀ p ∈ paths, ∀ e, ¬s.IsUnaskable s.disk p e
  applied : ∀ p ∈ paths, ∀ m root entries, s.CanCopy m root p entries → results'.get? p = some .applied
  planted : ∀ p ∈ paths, ∀ m root entries, s.CanCopy m root p entries → ∀ e ∈ entries, s.IsPlanted m root d' e.path

theorem Rests.settlesAll_cons (h : s.Rests) (hc : s.HasCopied d) {d'' : Disk} (hone : s.Settles path d status d')
    (hrest : s.SettlesAll (results.insert path status) rest d' results' d'') :
    s.SettlesAll results (path :: rest) d results' d'' := by
  refine ⟨hone.copies.trans hrest.copies, fun p => ?_, fun p hp => ?_, fun p hp => ?_,
    fun p hp m root entries hcan => ?_, fun p hp m root entries hcan e he => ?_⟩
  · rw [hrest.keys, Dict.mem_keys_insert, List.mem_cons]
    exact or_assoc.trans or_left_comm
  · rw [hrest.others p (List.not_mem_of_not_mem_cons hp),
      Dict.get?_insert_of_ne _ _ (List.ne_of_not_mem_cons hp).symm]
  · rcases List.mem_cons.mp hp with rfl | hp
    · exact hone.asks
    · exact hrest.asks p hp
  · by_cases hmem : p ∈ rest
    · exact hrest.applied p hmem m root entries hcan
    · obtain rfl := (List.mem_cons.mp hp).resolve_right hmem
      rw [hrest.others p hmem, Dict.get?_insert_self, hone.applied m root entries hcan]
  · rcases List.mem_cons.mp hp with rfl | hp
    · exact h.isPlanted_copiesAll ⟨p, hcan.destination⟩ (hone.planted m root entries hcan e he) (hc.trans hone.copies)
        hrest.copies
    · exact hrest.planted p hp m root entries hcan e he

/-- Paths one after the other: each of them that can be copied on its own is copied, unless one raises something. -/
theorem Rests.settleAll_reaches (h : s.Rests) (hc : s.HasCopied d) (results : Dict Path SyncStatus)
    (paths : List Path) :
    Reaches (s.settleAll results paths) d (s.SettlesAll results paths d)
      fun f d' => ∃ path ∈ paths, s.Raises path f d' := by
  induction paths generalizing results d with
  | nil =>
      refine ⟨.refl, fun p => ?_, fun _ _ => rfl, ?_, ?_, ?_⟩
      · simp
      all_goals exact fun _ hp => absurd hp List.not_mem_nil
  | cons path rest ih =>
      unfold settleAll
      rw [reaches_bind]
      refine (h.settle_reaches hc path).mono (fun status d₁ hone => ?_) fun f d₁ hr => ?_
      · refine (ih (hc.trans hone.copies) _).mono (fun results' d₂ hrest => h.settlesAll_cons hc hone hrest)
          fun f d₂ hraises => ?_
        obtain ⟨p, hp, hr⟩ := hraises
        exact ⟨p, List.mem_cons_of_mem _ hp, hr⟩
      · exact ⟨path, List.mem_cons_self, hr⟩

/-- What created paths come to in the end. Each of them has a status, and those that can be copied on their own
are copied, unless one of them raises something. -/
structure Settled (s : ServerState) (paths : List Path) (r : Except Failure (Dict Path SyncStatus)) (s' : ServerState) :
    Prop where
  statuses : ∀ results, r = .ok results → ∀ p, p ∈ results.keys ↔ p ∈ paths
  copied : ∀ results, r = .ok results → ∀ path ∈ paths, ∀ m root entries, s.CanCopy m root path entries →
    results.get? path = some .applied ∧ ∀ e ∈ entries, ∃ content,
      s.disk.files.read (root / e.path) = .ok content ∧ m.content? s'.disk.files e.path = some content
  fails : ∀ f, r = .error f → ∃ path ∈ paths, s.Raises path f s'.disk
  unaskable : ∀ path ∈ paths, ∀ e, s.IsUnaskable s.disk path e → ∃ f, r = .error f

theorem Rests.settled (h : s.Rests) {r : Except Failure (Dict Path SyncStatus)}
    (hd : s.Did (s.settleAll {} paths) r s') : s.Settled paths r s' := by
  have hreaches := h.settleAll_reaches .refl {} paths
  have hends : ∀ results, r = .ok results → s.SettlesAll {} paths s.disk results s'.disk := fun results hr => by
    rw [hd.disk]
    exact hreaches.of_ok (hd.returns.symm.trans hr)
  have hfails : ∀ f, r = .error f → ∃ path ∈ paths, s.Raises path f s'.disk := fun f hf => by
    rw [hd.disk]
    exact hreaches.of_error (hd.returns.symm.trans hf)
  refine ⟨fun results hr p => ?_, fun results hr path hp m root entries hcan => ?_, hfails, fun path hp e hu => ?_⟩
  · exact ((hends results hr).keys p).trans (or_iff_right List.not_mem_nil)
  · have hends := hends results hr
    exact ⟨hends.applied path hp m root entries hcan, fun e he =>
      h.content?_of_isPlanted hends.copies (hends.planted path hp m root entries hcan e he)⟩
  · cases r with
    | ok results => exact ((hends results rfl).asks path hp e hu).elim
    | error f => exact ⟨f, rfl⟩

end ServerState

/-- Created paths are handled independently of each other, unless one of them cannot even be asked about or has a
null character: what can be copied on its own is copied, and every path has a status. -/
theorem CreatedFiles.created_paths_are_independent (h : l.state.Rests) (paths : List Path) :
    Act.Settles (resume · .go) Eq (l.state.Settled paths) (start paths) l :=
  (settles_copyAll h.free {} paths).mono fun _ _ => h.settled

/-! ## A server with a mirror -/

namespace CreatedFiles

/-- A server that has made a mirror of a workspace with one file. -/
def restingServer : Server :=
  (Session.ofState (Server.sample [])).after serverMachine Mirror.Wish.act [.outside (.create (.ofText "/p")), .turn]

def restingMirror : Mirror := ⟨.ofText "/m/inkls-1"⟩

theorem rests_restingServer : restingServer.loop.state.Rests := by
  have hruns : Relation.ReflTransGen Mirror.HappensAsked (Session.ofState (Server.sample [])) restingServer := by
    refine Mirror.happens_after (fun move hm s => ?_) _
    simp only [List.mem_cons, List.not_mem_nil, or_false] at hm
    rcases hm with rfl | rfl
    · exact .asks rfl
    · exact .turn
  have hstate : ∀ {s : Server}, s.state.Knows → s.loop.state.Knows := fun h => h
  have hknows := hstate ((Mirror.isAsked_of_hasNoMirrors Mirror.hasNoMirrors_sample).runs hruns).knows
  have hone : restingServer.loop.state.workspaces.length = 1 := by decide +kernel
  have hfree : (restingServer.loop.state.workspaces.all fun w => decide (w.writing = {})) = true := by decide +kernel
  have hzero : ∀ (id : WorkspaceId) m, restingServer.loop.state.Has id m → id = 0 := by
    rintro id m ⟨w, hw, -⟩
    have hlt := (List.getElem?_eq_some_iff.mp hw).1
    rw [hone] at hlt
    exact Nat.lt_one_iff.mp hlt
  refine ⟨hknows.tidy, ?_, fun id id' m h h' => (hzero id m h).trans (hzero id' m h').symm, fun w hw => ?_⟩
  · rintro id m ⟨w, hw, hm⟩
    exact hknows.made w (List.mem_of_getElem? hw) m hm
  · exact of_decide_eq_true (List.all_eq_true.mp hfree w hw)

/-- The file of the workspace is a file, and stands where its path says. -/
theorem find_restingServer : ∃ n, restingServer.loop.state.disk.files.find true (.ofText "/p/a.ink") =
    .ok (["p", "a.ink"], some n) ∧ n.isDirectory = false := by
  have hfind : ((restingServer.loop.state.disk.files.find true (.ofText "/p/a.ink")).toOption.map fun found =>
      (found.1, found.2.map FileNode.isDirectory)) = some (["p", "a.ink"], some false) := by decide +kernel
  obtain ⟨⟨place, found⟩, hfind, he⟩ := Option.map_eq_some_iff.mp hfind
  obtain ⟨rfl, hfound⟩ := Prod.mk.inj he
  obtain ⟨n, rfl, hn⟩ := Option.map_eq_some_iff.mp hfound
  exact ⟨n, toOption_eq_some_iff.mp hfind, hn⟩

theorem isBeside_restingServer : restingServer.loop.state.IsBeside (.ofText "/p/a.ink") := by
  have hscratches : restingServer.loop.state.disk.scratches = 1 := by decide +kernel
  obtain ⟨home, hs⟩ := rests_restingServer.tidy.shelters (by rw [hscratches]; decide)
  have hhome : (restingServer.loop.state.disk.files.walk true FileSystem.maxLinks []
      restingServer.loop.state.policy.tempRoot.segments).toOption.map Prod.fst = some ["m"] := by decide +kernel
  rw [FileSystem.way_iff.mp hs.way] at hhome
  obtain rfl : home = ["m"] := Option.some.inj hhome
  obtain ⟨n, hfind, -⟩ := find_restingServer
  refine ⟨["m"], hs.way, ["p", "a.ink"], n, hfind, fun k h0 hk => ?_⟩
  obtain rfl : k = 1 := by omega
  decide +kernel

theorem canCopy_restingServer : ∃ entries, entries.map MirrorEntry.path = [.ofText "a.ink"] ∧
    restingServer.loop.state.CanCopy restingMirror (.ofText "/p") (.ofText "/p/a.ink") entries := by
  have hcopies : (returns
      (restingMirror.copyCreated restingServer.loop.state.policy (.ofText "/p") (.ofText "/p/a.ink"))
      restingServer.loop.state.disk).toOption.map (·.map MirrorEntry.path) = some [.ofText "a.ink"] := by decide +kernel
  obtain ⟨entries, hcopies, hpaths⟩ := Option.map_eq_some_iff.mp hcopies
  have hroot : (Path.ofText "/p") / .ofText "a.ink" = .ofText "/p/a.ink" := by decide +kernel
  refine ⟨entries, hpaths, ?_, .inr ?_, toOption_eq_some_iff.mp hcopies, isBeside_restingServer, fun base q hf => ?_,
    fun e he => ?_⟩
  · rw [← toOption_eq_some_iff]
    decide +kernel
  · decide +kernel
  · obtain ⟨n, hfind, hn⟩ := find_restingServer
    cases hf.symm.trans hfind
    cases hn
  · have hpath := List.mem_map_of_mem (f := MirrorEntry.path) he
    rw [hpaths, List.mem_singleton] at hpath
    rw [hpath, hroot]
    exact isBeside_restingServer

/-- A file is copied behind a path of no workspace and one that leads nowhere. -/
theorem file_behind_missing_ones_is_copied : restingServer.loop.state.Rests ∧
    (∃ entries, entries.map MirrorEntry.path = [.ofText "a.ink"] ∧
      restingServer.loop.state.CanCopy restingMirror (.ofText "/p") (.ofText "/p/a.ink") entries) ∧
    Act.Settles (resume · .go) Eq
      (restingServer.loop.state.Settled [.ofText "/q/b.ink", .ofText "/p/c.ink", .ofText "/p/a.ink"])
      (start [.ofText "/q/b.ink", .ofText "/p/c.ink", .ofText "/p/a.ink"]) restingServer.loop :=
  ⟨rests_restingServer, canCopy_restingServer, created_paths_are_independent rests_restingServer _⟩

/-- A path that cannot be asked about ends everything at once if it comes first. -/
theorem start_of_isUnaskable {e : Errno} (h : l.state.IsUnaskable l.state.disk path e) (rest : List Path) :
    ∃ f, (start (path :: rest)).returns l = .ends (.error f) := by
  obtain ⟨m, root, hd⟩ := h.destination
  obtain ⟨id, -, hleaves, hreturns⟩ := examine_of_ok hd
  cases hr : returns (plainly (FileWork.isDirectory path)) l.state.disk with
  | ok isDirectory =>
      have hasks := ((ServerState.reaches_isDirectory path l.state.disk).of_ok hr).2
      exact absurd (hasks e h.clean h.stat) h.present
  | error f =>
      refine ⟨f, ?_⟩
      unfold start copyAll
      rw [Act.returns_bind, hreturns, hr]
      rfl

/-- A name of a given length. -/
def longName (n : Nat) : String := String.ofList (List.replicate n 'n')

theorem toList_longName (n : Nat) : (longName n).toList = List.replicate n 'n' := String.toList_ofList

theorem isSegment_longName {n : Nat} (h : 1 < n) : IsSegment (longName n) := by
  have hlength : (longName n).length = n := by rw [← String.length_toList, toList_longName, List.length_replicate]
  refine ⟨fun he => ?_, fun he => ?_, fun hslash => ?_⟩
  · have hempty : (longName n).length = 0 := he ▸ rfl
    omega
  · have hdot : (longName n).length = 1 := he ▸ rfl
    omega
  · rw [toList_longName] at hslash
    exact absurd (List.eq_of_mem_replicate hslash) (by decide)

/-- A path of the workspace with a name that is too long. -/
def overlong : Path where
  start := .root
  segments := ["p", longName 256]
  valid s hs := by
    rcases List.mem_cons.mp hs with rfl | hs
    · decide
    · exact List.mem_singleton.mp hs ▸ isSegment_longName (by decide)

theorem hasNull_overlong : FileWork.hasNull overlong = false := by
  have htext : overlong.text.toList = '/' :: 'p' :: '/' :: List.replicate 256 'n' := by
    rw [← toList_longName]
    simp [overlong, Path.text, Path.startText]
  have hrest : '\x00' ∉ List.replicate 256 'n' := fun h => absurd (List.eq_of_mem_replicate h) (by decide)
  unfold FileWork.hasNull
  rw [htext, List.contains_eq_mem, decide_eq_false_iff_not, List.mem_cons, List.mem_cons, List.mem_cons]
  exact not_or.mpr ⟨by decide, not_or.mpr ⟨by decide, not_or.mpr ⟨by decide, hrest⟩⟩⟩

theorem isUnaskable_overlong :
    restingServer.loop.state.IsUnaskable restingServer.loop.state.disk overlong .nameTooLong := by
  have hdestination : (restingServer.loop.state.destination overlong).toOption =
      some (restingMirror, .ofText "/p") := by decide +kernel
  have hstat : (match restingServer.loop.state.disk.files.stat overlong with
      | .error e => decide (e = .nameTooLong)
      | .ok _ => false) = true := by decide +kernel
  refine ⟨⟨restingMirror, .ofText "/p", toOption_eq_some_iff.mp hdestination⟩, hasNull_overlong, ?_, by decide⟩
  split at hstat
  · rename_i e he
    rw [he, of_decide_eq_true hstat]
  · cases hstat

/-- A path that cannot be asked about costs the ones behind it their copies, and all of them their statuses. -/
theorem overlong_path_ends_everything :
    ¬ ∀ (l : Loop ServerState Operation) (paths : List Path), l.state.Rests → paths.Nodup →
      Act.Settles (resume · .go) Eq (fun r s' => ∃ results, r = .ok results ∧ (∀ p ∈ paths, p ∈ results.keys) ∧
        ∀ path ∈ paths, ∀ m root entries, l.state.CanCopy m root path entries →
          results.get? path = some .applied ∧ ∀ e ∈ entries, ∃ content,
            l.state.disk.files.read (root / e.path) = .ok content ∧ m.content? s'.disk.files e.path = some content)
        (start paths) l := by
  intro h
  obtain ⟨f, hf⟩ := start_of_isUnaskable (l := restingServer.loop) isUnaskable_overlong [.ofText "/p/a.ink"]
  have hnodup : [overlong, .ofText "/p/a.ink"].Nodup := by decide +kernel
  obtain ⟨results, hr, -⟩ := (h restingServer.loop _ rests_restingServer hnodup).of_ends hf
  cases hr

end CreatedFiles

end InkServer
