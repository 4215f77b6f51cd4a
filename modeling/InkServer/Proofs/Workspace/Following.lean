import InkServer.Proofs.Documents.Tracking
import InkServer.Proofs.Workspace.Innermost
import InkServer.Proofs.Workspace.Renewing
import InkServer.Proofs.Workspace.Settling

/-!
# Documents that follow their workspaces

While operations come one at a time, the text of each open source document is in the mirror of the workspace that
the document belongs to, except for those that fell back to a workspace when theirs was removed. What is done for
one workspace or one document keeps it so for all others.
-/

namespace InkServer

open Work ServerAct DiskWork Mirror

/-! ## Where documents belong -/

/-- A document that is received is kept under its URI with its text. -/
theorem Documents.change_eq_ok {documents documents' : Documents} {document : OpenDocument} {t : TrackedDocument}
    (h : documents.change document = .ok (t, documents')) :
    documents' = ⟨documents.tracked.insert document.uri t⟩ ∧ t.content = document.content := by
  unfold change at h
  split at h
  · unfold open_ at h
    cases hp : Uri.toPath document.uri with
    | error e =>
        rw [hp] at h
        cases h
    | ok path =>
        rw [hp] at h
        cases h
        exact ⟨rfl, rfl⟩
  · cases h
    exact ⟨rfl, rfl⟩

namespace Mirror

/-- What is written for a path if nothing else is. -/
theorem latest_of_mem {κ α : Type} [DecidableEq κ] {k : κ} {v : α} {pairs : List (κ × α)} (hm : (k, v) ∈ pairs)
    (h : ∀ v', (k, v') ∈ pairs → v' = v) : latest k pairs = some v := by
  cases hl : latest k pairs with
  | none => exact absurd (List.mem_map_of_mem hm) (latest_eq_none_iff.mp hl)
  | some v' => rw [h v' (mem_of_latest hl)]

end Mirror

namespace ServerState

variable {s s' : ServerState} {id : WorkspaceId} {m : Mirror} {w : Workspace} {uri : String} {path relative : Path}
  {d : TrackedDocument} {fell : String → Mirror → Prop}

/-- Open documents are at pairwise distinct paths. -/
def HasDistinctPaths (s : ServerState) : Prop := (s.documents.contents.map fun c => c.1.normalized).Nodup

/-- The contents that files of mirrors and open documents were given. -/
def texts (s : ServerState) : Set ByteArray :=
  {c | (∃ m relative, .wrote m relative c ∈ s.disk.history) ∨
    ∃ task document, .received task document ∈ s.events ∧ document.content = c}

/-- Nothing failed, and the open documents and their digests can be told apart. -/
structure GoesWell (s : ServerState) : Prop where
  calm : ¬s.IsAlarmed
  distinct : s.HasDistinctPaths
  digests : Set.InjOn Digest.sha256 s.texts

theorem GoesWell.of_noted {record : List Event} (h : GoesWell { s with events := s.events ++ record }) :
    s.GoesWell := by
  refine ⟨fun ⟨text, hm⟩ => h.calm ⟨text, List.mem_append_left _ hm⟩, h.distinct, h.digests.mono fun c hc => ?_⟩
  exact hc.imp_right fun ⟨task, document, hm, hcontent⟩ => ⟨task, document, List.mem_append_left _ hm, hcontent⟩

theorem not_goesWell_of_told (s : ServerState) (text : Option String) :
    ¬GoesWell { s with events := s.events ++ [.noticed (.serverError text)] } := fun h =>
  h.calm ⟨text, List.mem_append_right _ (List.mem_singleton_self _)⟩

/-- The text of a source file belongs into the mirror of the workspace that the file belongs to. -/
structure Places (s : ServerState) (path : Path) (id : WorkspaceId) (m : Mirror) (relative : Path) : Prop where
  source : s.policy.isSource path
  sourceInside : s.policy.isSource relative
  found : s.findWorkspace path = some id
  workspace : ∃ w, s.workspaces[id]? = some w ∧ w.mirror = some m ∧ path.relativeTo? w.root = some relative

theorem Places.has (h : s.Places path id m relative) : s.Has id m := by
  obtain ⟨w, hw, hm, -⟩ := h.workspace
  exact ⟨w, hw, hm⟩

theorem Places.isInner (h : s.Places path id m relative) : relative.IsInner := by
  obtain ⟨w, -, -, hr⟩ := h.workspace
  exact Path.isInner_of_relativeTo? hr

/-- Every open document is in its place, except for some. -/
structure Follows (fell : String → Mirror → Prop) (s : ServerState) : Prop extends IsUpkept s where
  ready : ∀ w ∈ s.workspaces, w.mirror.isSome → w.isReady
  folders : s.folders = .nobody
  settings : s.settings.current = {}
  known : s.documents.Known
  held : ∀ uri d id m relative, s.documents.get? uri = some d → s.Places d.path id m relative →
    m.content? s.disk.files relative = some d.content ∨ fell uri m

/-- Two open documents at the same place are the same. -/
theorem HasDistinctPaths.uri_eq (h : s.HasDistinctPaths) {uri' : String} {d' : TrackedDocument}
    (hg : s.documents.get? uri = some d) (hg' : s.documents.get? uri' = some d')
    (hp : d.path.normalized = d'.path.normalized) : uri = uri' := by
  unfold HasDistinctPaths Documents.contents Dict.values at h
  rw [List.map_map, List.map_map] at h
  exact congrArg Prod.fst
    (List.inj_on_of_nodup_map h (Dict.mem_of_lookup_eq_some hg) (Dict.mem_of_lookup_eq_some hg') hp)

theorem normalized_eq_of_relativeTo? {p q root : Path} (hp : p.relativeTo? root = some relative)
    (hq : q.relativeTo? root = some relative) : p.normalized = q.normalized := by
  obtain ⟨hstart, hsegments, -⟩ := Path.relativeTo?_eq_some_iff.mp hp
  obtain ⟨hstart', hsegments', -⟩ := Path.relativeTo?_eq_some_iff.mp hq
  exact Path.eq_of_segments (hstart.trans hstart'.symm) (hsegments.trans hsegments'.symm)

/-- The workspace of a path is there, and the path lies inside. -/
theorem exists_relative_of_findWorkspace (h : s.findWorkspace path = some id) :
    ∃ w relative, s.workspaces[id]? = some w ∧ path.relativeTo? w.root = some relative := by
  obtain ⟨w, hmem, hinside, -⟩ := exists_of_findWorkspace h
  obtain ⟨relative, hr⟩ := Path.isInside_iff.mp hinside
  obtain ⟨id', -, hget⟩ := List.mem_filterMap.mp hmem
  obtain ⟨w', hw', he⟩ := Option.map_eq_some_iff.mp hget
  cases he
  exact ⟨w, relative, hw', hr⟩

/-- Documents at distinct paths are written into distinct files of a mirror. -/
theorem latest_overlays (hd : s.HasDistinctPaths) (hg : s.documents.get? uri = some d)
    (hf : s.findWorkspace d.path = some id) {root : Path} (hr : d.path.relativeTo? root = some relative)
    (hs : s.policy.isSource relative) :
    latest relative (Mirror.overlays s.policy root (s.openDocumentsOf id)) = some d.content := by
  have hentry := Dict.mem_of_lookup_eq_some hg
  have hmem : (d.path, d.content) ∈ s.documents.contents :=
    List.mem_map.mpr ⟨d, List.mem_map.mpr ⟨_, hentry, rfl⟩, rfl⟩
  have hopen : (d.path, d.content) ∈ s.openDocumentsOf id := List.mem_filter.mpr ⟨hmem, decide_eq_true hf⟩
  refine Mirror.latest_of_mem (List.mem_filterMap.mpr ⟨_, hopen, ?_⟩) fun content hc => ?_
  · dsimp only
    rw [hr]
    exact if_pos hs
  · obtain ⟨⟨path, content'⟩, hopen', hc⟩ := List.mem_filterMap.mp hc
    dsimp only at hc
    split at hc
    · rename_i relative' hr'
      split at hc
      · cases hc
        exact congrArg Prod.snd (List.inj_on_of_nodup_map hd (List.mem_filter.mp hopen').1 hmem
          (normalized_eq_of_relativeTo? hr' hr))
      · cases hc
    · cases hc

/-- What an operation comes to after which every open document is in its place if all went well. -/
def EndsWell {α : Type} (fell : String → Mirror → Prop) (r : Except Failure α) (s : ServerState) : Prop :=
  r.isOk → s.GoesWell → s.Follows fell

theorem endsWell_error {α : Type} (f : Failure) : EndsWell fell (.error f : Except Failure α) s := fun h => by
  cases h

/-! ## What keeps documents in their places -/

/-- Whatever was done for one workspace left what belongs to others where it is. -/
theorem WorksFor.places (h : WorksFor id s s') {other : WorkspaceId} (ho : other ≠ id)
    (hp : s'.Places path other m relative) : s.Places path other m relative := by
  obtain ⟨hsource, hinside, hfound, w, hw, hmirror⟩ := hp
  rw [h.policy] at hsource hinside
  rw [h.findWorkspace] at hfound
  rw [h.others other ho] at hw
  exact ⟨hsource, hinside, hfound, w, hw, hmirror⟩

theorem WorksFor.held (h : WorksFor id s s') (hf : s.Follows fell) {other : WorkspaceId} (ho : other ≠ id)
    (hg : s'.documents.get? uri = some d) (hp : s'.Places d.path other m relative) :
    m.content? s'.disk.files relative = some d.content ∨ fell uri m := by
  have hp := h.places ho hp
  rw [h.documents] at hg
  refine (hf.held uri d other m relative hg hp).imp_left fun hc => ?_
  exact (hf.faithful other m hp.has).content?_leftAlone (h.spared other m ho hp.has) hp.isInner hc

theorem WorksFor.ready (h : WorksFor id s s') (hf : s.Follows fell)
    (hid : ∀ w, s'.workspaces[id]? = some w → w.mirror.isSome → w.isReady) :
    ∀ w ∈ s'.workspaces, w.mirror.isSome → w.isReady := by
  intro w hw
  obtain ⟨other, hget⟩ := List.mem_iff_getElem?.mp hw
  by_cases ho : other = id
  · exact hid w (ho ▸ hget)
  · rw [h.others other ho] at hget
    exact hf.ready w (List.mem_of_getElem? hget)

/-- A new mirror holds the documents that belong there. -/
theorem Follows.renews (h : s.Follows fell) (hr : Renews id s s') (hd : s'.HasDistinctPaths) : s'.Follows fell := by
  obtain ⟨hworks, hupkept, w, m, hw, hready, hmirror, -, hholds⟩ := hr
  refine ⟨hupkept, hworks.ready h fun w' hw' _ => ?_, hworks.folders.trans h.folders, ?_,
    hworks.documents ▸ h.known, fun uri d other m' relative hg hp => ?_⟩
  · cases hw.symm.trans hw'
    exact hready
  · rw [hworks.settings]
    exact h.settings
  · by_cases ho : other = id
    · subst ho
      obtain ⟨-, hinside, hfound, w', hw', hm', hr'⟩ := hp
      cases hw.symm.trans hw'
      cases hmirror.symm.trans hm'
      rw [hworks.policy] at hinside
      rw [hworks.findWorkspace] at hfound
      have hd : s.HasDistinctPaths := by
        unfold HasDistinctPaths at hd ⊢
        rwa [hworks.documents] at hd
      rw [hworks.documents] at hg
      exact .inl (hholds relative d.content (latest_overlays hd hg hfound hr' hinside))
    · exact hworks.held h ho hg hp

/-- Only what mirrors and workspaces are matters. -/
theorem IsUpkept.of_same (h : s.IsUpkept) (hp : s'.policy = s.policy) (hd : s'.disk = s.disk)
    (hi : s'.indexes = s.indexes) (hw : s'.workspaces = s.workspaces) : s'.IsUpkept := by
  refine h.leftAlone (by rw [hp, hd]; exact h.tidy) (fun other m hm => ⟨?_, .of_same hp hd hi⟩) (hw ▸ h.free)
  unfold Has at hm ⊢
  rwa [hw] at hm

/-- What is told and published does not matter. -/
theorem Follows.noted (h : s.Follows fell) (publisher : Option Publisher) (events : List Event) :
    Follows fell { s with publisher, events } where
  toIsUpkept := h.toIsUpkept.of_same rfl rfl rfl rfl
  ready := h.ready
  folders := h.folders
  settings := h.settings
  known := h.known
  held uri d id m relative hg hp :=
    h.held uri d id m relative hg ⟨hp.source, hp.sourceInside, hp.found, hp.workspace⟩

theorem Follows.mono {fell' : String → Mirror → Prop} (h : s.Follows fell) (hf : ∀ uri m, fell uri m → fell' uri m) :
    s.Follows fell' :=
  { h with held := fun uri d id m relative hg hp => (h.held uri d id m relative hg hp).imp_right (hf uri m) }

/-- A text that was received is not in its place yet. -/
theorem Follows.receives (h : s.Follows fell) {document : OpenDocument} {t : TrackedDocument} {documents : Documents}
    (hc : s.documents.change document = .ok (t, documents)) (events : List Event) :
    Follows (fun uri m => uri = document.uri ∨ fell uri m) { s with documents, events } where
  toIsUpkept := h.toIsUpkept.of_same rfl rfl rfl rfl
  ready := h.ready
  folders := h.folders
  settings := h.settings
  known := h.known.changed hc
  held uri d id m relative hg hp := by
    by_cases hu : uri = document.uri
    · exact .inr (.inl hu)
    · obtain ⟨rfl, -⟩ := Documents.change_eq_ok hc
      have hg : (s.documents.tracked.insert document.uri t).get? uri = some d := hg
      rw [Dict.get?_insert_of_ne _ _ (Ne.symm hu)] at hg
      exact (h.held uri d id m relative hg ⟨hp.source, hp.sourceInside, hp.found, hp.workspace⟩).imp_right .inr

/-- What is left of a document is in its place. -/
theorem Follows.settles_document (h : s.Follows fun uri' m => uri' = uri ∨ fell uri' m)
    (hd : ∀ d id m relative, s.documents.get? uri = some d → s.Places d.path id m relative →
      m.content? s.disk.files relative = some d.content) : s.Follows fun uri' m => uri' ≠ uri ∧ fell uri' m :=
  { h with
    held := fun uri' d id m relative hg hp => by
      by_cases hu : uri' = uri
      · subst hu
        exact .inl (hd d id m relative hg hp)
      · exact (h.held uri' d id m relative hg hp).imp_right fun hf => ⟨hu, hf.resolve_left hu⟩ }

end ServerState

open ServerState

variable {s : ServerState} {l : Loop ServerState Operation} {id : WorkspaceId} {w : Workspace} {m : Mirror}
  {fell : String → Mirror → Prop}

/-! ## Workspaces that are to be ready -/

/-- What comes of seeing to it that a workspace is ready. -/
inductive Prepared (id : WorkspaceId) (s : ServerState) : Except Failure Bool → ServerState → Prop
  | failed (f : Failure) (s' : ServerState) : Prepared id s (.error f) s'
  | alarmed {s' : ServerState} (h : s'.IsAlarmed) : Prepared id s (.ok false) s'
  | unready (h : ∀ m, ¬s.Has id m) : Prepared id s (.ok false) s
  | ready (h : ∃ m, s.Has id m) : Prepared id s (.ok true) s
  | renewed {s' : ServerState} (h : Renews id s s') : Prepared id s (.ok true) s'

/-- Mirrors are only made anew where there is none. -/
theorem settles_ensureReady (hf : l.state.Follows fell) (hw : l.state.workspaces[id]? = some w) :
    Act.Settles (Initialization.resume · .go) Eq (Prepared id l.state) (ensureReady id) l := by
  have hreturns : (workspace? id).returns l = some w := hw
  have hsame : (workspace? id).leaves l = l := rfl
  have hready := hf.ready w (List.mem_of_getElem? hw)
  have hnone : w.isReady = false → ∀ m, ¬l.state.Has id m := by
    rintro hnot m ⟨w', hw', hm⟩
    cases hw.symm.trans hw'
    rw [hready (hm ▸ rfl)] at hnot
    cases hnot
  unfold ensureReady withWorkspace
  refine .bind ?_ (.refl l)
  rw [hreturns, hsame]
  dsimp only
  split
  · rename_i hstate
    exact Act.settles_ends (.unready (hnone (by simp [Workspace.isReady, hstate])))
  · rename_i hstate
    refine (Initialization.settles_start hf.toIsUpkept hw (by rw [hstate]; exact Lifecycle.noConfusion)).mono
      fun r s' h => ?_
    cases h with
    | failed f => exact .failed f s'
    | alarmed h hpending =>
        obtain rfl := hpending w hw hstate
        exact .alarmed h
    | renewed h => exact .renewed h
  · split
    · rename_i hm
      have hnot : w.isReady = false := by simp [Workspace.isReady, hm]
      rw [hnot]
      exact Act.settles_ends (.unready (hnone hnot))
    · rename_i m hm
      have hthere := (hf.faithful id m ⟨w, hw, hm⟩).stands.isThere
      have hlooks : leaves m.isThere l.state.disk = l.state.disk := looks_telling (FileWork.looks_holds _ _) _
      have hleaves : (onDisk m.isThere).leaves l = l := by
        rw [leaves_onDisk, hlooks]
      refine .bind ?_ (hleaves.symm ▸ .refl l)
      rw [returns_onDisk, hthere, hleaves, hready (hm ▸ rfl)]
      exact Act.settles_ends (.ready ⟨m, w, hw, hm⟩)

/-! ## Texts that are written -/

/-- A text was brought into the mirror of a workspace, unless another one with the same digest is there. -/
structure Wrote (id : WorkspaceId) (m : Mirror) (relative : Path) (content : ByteArray) (s s' : ServerState) : Prop
    extends WorksFor id s s' where
  upkept : s'.IsUpkept
  workspaces : s'.workspaces = s.workspaces
  holds : (∀ c, .wrote m.path relative c ∈ s'.disk.history → Digest.sha256 c = Digest.sha256 content → c = content) →
    m.content? s'.disk.files relative = some content
  rest : ∀ other c, other ≠ relative → other.IsInner → m.content? s.disk.files other = some c →
    m.content? s'.disk.files other = some c

variable {relative : Path} {content : ByteArray} {task : TaskId}

/-- A text is written. -/
theorem wrote_of_fills (h : s.IsUpkept) (hm : s.Has id m) {base : Place} {d : Disk}
    (hf : m.Fills base s.disk [(relative, content)] d) (hc : Disk.Confined s.policy s.disk d) :
    Wrote id m relative content s (s.indexing m d ((s.indexOf m).record [.ofContent relative content])) := by
  have hleft : ∀ other m', s.Has other m' → m' ≠ m →
      m'.IsLeftAlone s (s.indexing m d ((s.indexOf m).record [.ofContent relative content])) := fun other m' hm' hne =>
    hf.isLeftAlone hc h.tidy (h.faithful id m hm).stands (h.faithful other m' hm').stands hne
  have hlatest : ∀ other, other ≠ relative → latest other [(relative, content)] = none := fun other hne => by
    rw [latest_singleton]
    exact if_neg (Ne.symm hne)
  refine ⟨{ WorksFor.refl with spared := fun other m' ho hm' => ?_ }, ⟨⟨hc.tidy, fun other m' hm' => ?_, h.apart,
    h.free⟩, fun other m' hm' => ?_⟩, rfl, fun _ => ?_, fun other c hne hr hcontent => ?_⟩
  · refine hleft other m' hm' ?_
    rintro rfl
    exact ho (h.apart other id m' hm' hm)
  · exact (h.made other m' hm').confined hc
  · by_cases he : m' = m
    · subst he
      exact hf.isFaithful hc (h.faithful other m' hm')
    · exact (h.faithful other m' hm').leftAlone (hleft other m' hm' he)
  · refine hf.holds relative content (hf.inner _ (List.mem_singleton_self _)) ?_
    rw [latest_singleton, if_pos rfl]
    rfl
  · refine hf.holds other c hr ?_
    rw [hlatest other hne, Option.none_or]
    exact hcontent

/-- A text that the index knows need not be written. -/
theorem wrote_of_known (h : s.IsUpkept) (hm : s.Has id m) {e : MirrorEntry}
    (he : (s.indexOf m).get? relative = some e) (hd : e.fingerprint = Digest.sha256 content) :
    Wrote id m relative content s s := by
  obtain ⟨-, c, hc, hw, rfl⟩ := (h.faithful id m hm).isTrue relative e he
  exact ⟨.refl, h, rfl, fun hsame => by rw [hc, hsame c hw hd], fun _ _ _ _ hc => hc⟩

/-- The text of a document was brought where it belongs. -/
theorem Wrote.follows {uri : String} {d : TrackedDocument} {s' : ServerState}
    (hw : Wrote id m relative d.content s s') (h : s.Follows fun uri' m => uri' = uri ∨ fell uri' m)
    (hg : s.documents.get? uri = some d) (hp : s.Places d.path id m relative) (hwell : s'.GoesWell)
    (ht : d.content ∈ s'.texts) : s'.Follows fun uri' m => uri' ≠ uri ∧ fell uri' m := by
  have hworks := hw.toWorksFor
  have hdistinct : s.HasDistinctPaths := by
    have hd := hwell.distinct
    unfold HasDistinctPaths at hd ⊢
    rwa [hworks.documents] at hd
  have hcontent := hw.holds fun c hc he => hwell.digests (.inl ⟨_, _, hc⟩) ht he
  obtain ⟨w, hget, hmirror, hrelative⟩ := hp.workspace
  have hready : ∀ w ∈ s'.workspaces, w.mirror.isSome → w.isReady := by
    rw [hw.workspaces]
    exact h.ready
  refine ⟨hw.upkept, hready, hworks.folders.trans h.folders, ?_, hworks.documents ▸ h.known,
    fun uri' d' other m' relative' hg' hp' => ?_⟩
  · rw [hworks.settings]
    exact h.settings
  · have hg₀ := hg'
    rw [hworks.documents] at hg₀
    by_cases ho : other = id
    · subst ho
      obtain ⟨w', hget', hmirror', hrelative'⟩ := hp'.workspace
      rw [hw.workspaces] at hget'
      cases hget.symm.trans hget'
      cases hmirror.symm.trans hmirror'
      by_cases hu : uri' = uri
      · subst hu
        cases hg.symm.trans hg₀
        cases hrelative.symm.trans hrelative'
        exact .inl hcontent
      · have hne : relative' ≠ relative := by
          rintro rfl
          exact hu (hdistinct.uri_eq hg₀ hg (normalized_eq_of_relativeTo? hrelative' hrelative))
        have hp₀ : s.Places d'.path other m relative' := by
          refine ⟨hworks.policy ▸ hp'.source, hworks.policy ▸ hp'.sourceInside, ?_, w, hget, hmirror, hrelative'⟩
          rw [← hworks.findWorkspace]
          exact hp'.found
        rcases h.held uri' d' other m relative' hg₀ hp₀ with hc | hf
        · exact .inl (hw.rest relative' d'.content hne hp'.isInner hc)
        · exact .inr ⟨hu, hf.resolve_left hu⟩
    · refine (hworks.held h ho hg' hp').imp_right fun hf => ?_
      have hu : uri' ≠ uri := by
        rintro rfl
        cases hg.symm.trans hg₀
        have hfound := hp'.found
        rw [hworks.findWorkspace, hp.found] at hfound
        exact ho (Option.some.inj hfound).symm
      exact ⟨hu, hf.resolve_left hu⟩

namespace DocumentWrite

open CreatedCopy (set_writingLock get_writingLock workspace_of_holding)

variable {τ α : Type} {resume' : τ → ServerAct (Step τ α)} {post : Except Failure α → ServerState → Prop}

/-- The lock is given back. -/
theorem settles_finish {r : Except Failure α} (hw : s.workspaces[id]? = some w) (hfree : w.writing = {})
    (task : TaskId) (hl : l.state = (writingLock id).set { holder := some task } s) (h : post r s) :
    Act.Settles resume' Eq post (finish id r) l := by
  have hget : (writingLock id).get l.state = { holder := some task } := by
    rw [hl]
    exact get_writingLock (workspace_of_holding hw _)
  unfold finish
  refine Act.Settles.bind (Act.settles_ends ?_) ?_
  · rw [Act.leaves_unlock, hget, hl]
    exact (set_writingLock s hw hfree _).symm ▸ h
  · rw [Act.leaves_unlock, hget]
    exact ⟨rfl, rfl, List.append_nil _⟩

/-- What comes of a write. -/
def Brings (id : WorkspaceId) (m : Mirror) (relative : Path) (content : ByteArray) (s : ServerState)
    (r : Except Failure MirrorEntry) (s' : ServerState) : Prop :=
  r.isOk → s.policy.isSource relative ∧ Wrote id m relative content s s'

theorem brings_error (f : Failure) {s' : ServerState} : Brings id m relative content s (.error f) s' := fun h => by
  cases h

section holding

variable (h : s.IsUpkept) (hw : s.workspaces[id]? = some w) (hm : w.mirror = some m) (hr : relative.IsInner)
  (hs : s.policy.isSource relative)

include h hw hm hr hs

theorem settles_write (hl : l.state = (writingLock id).set { holder := some task } s) :
    Act.Settles (resume · .go) Eq (Brings id m relative content s) (write id m relative content) l := by
  have hfree := h.free w (List.mem_of_getElem? hw)
  have hdisk : l.state.disk = s.disk := hl ▸ rfl
  have hreaches := writeFile_faithfully (h.faithful id m ⟨w, hw, hm⟩) h.tidy
    (fun e => .copy (.unwritten relative (m.path / relative) e)) hr content hs
  unfold write
  refine .bind ?_ ⟨rfl, rfl, rfl⟩
  rw [returns_onDisk, leaves_onDisk, hdisk]
  cases hret : returns (m.update relative content) s.disk with
  | error f =>
      refine settles_finish (s := { s with disk := leaves (m.update relative content) s.disk }) hw hfree task ?_ (brings_error _)
      rw [hl]
      rfl
  | ok e =>
      obtain ⟨rfl, hconfined, base, hfills⟩ := hreaches.of_ok hret
      have hwrote := wrote_of_fills h ⟨w, hw, hm⟩ hfills hconfined
      refine .bind (settles_finish (s := s.indexing m _ _) hw hfree task ?_ fun _ => ⟨hs, hwrote⟩) ⟨rfl, rfl, rfl⟩
      unfold record
      rw [Act.leaves_modifyState, hl]
      rfl

theorem settles_takeTurn (hl : l.state = (writingLock id).set { holder := some task } s) :
    Act.Settles (resume · .go) Eq (Brings id m relative content s) (takeTurn id m relative content) l := by
  have hfree := h.free w (List.mem_of_getElem? hw)
  have hreturns : (index m).returns l = s.indexOf m := by
    show (l.state.indexes.get? m.path).getD {} = _
    rw [hl]
    rfl
  have hsame : (index m).leaves l = l := rfl
  have hdisk : l.state.disk = s.disk := hl ▸ rfl
  have hlooks : leaves (m.isUpToDate (s.indexOf m) relative content) s.disk = s.disk := looks_isUpToDate _ _ _ _ _
  have hleaves : (onDisk (m.isUpToDate (s.indexOf m) relative content)).leaves l = l := by
    rw [leaves_onDisk, hdisk, hlooks, ← hdisk]
  unfold takeTurn
  refine .bind ?_ (.refl l)
  rw [hreturns, hsame]
  refine .bind ?_ (hleaves.symm ▸ .refl l)
  rw [returns_onDisk, hleaves, hdisk]
  cases hret : returns (m.isUpToDate (s.indexOf m) relative content) s.disk with
  | error f => exact settles_finish hw hfree task hl (brings_error _)
  | ok known =>
      cases known with
      | true =>
          obtain ⟨e, he, hd⟩ := ((isUpToDate_reaches _ _).of_ok hret).2 rfl
          exact settles_finish hw hfree task hl fun _ => ⟨hs, wrote_of_known h ⟨w, hw, hm⟩ he hd⟩
      | false => exact Act.settles_through rfl rfl fun l' hl' => settles_write h hw hm hr hs (hl'.symm.trans hl)

end holding

/-- A text is brought into the mirror of its workspace. -/
theorem settles_start (h : l.state.IsUpkept) (hw : l.state.workspaces[id]? = some w) (hm : w.mirror = some m)
    (hr : relative.IsInner) (content : ByteArray) :
    Act.Settles (resume · .go) Eq (Brings id m relative content l.state) (start id relative content) l := by
  have hreturns : (workspace? id).returns l = some w := hw
  have hsame : (workspace? id).leaves l = l := rfl
  have hcandidate : (if relative.isAbsolute then relative else w.root / relative) = w.root / relative := by
    rw [Path.isAbsolute, hr.start]
    rfl
  unfold start withWorkspace
  refine .bind ?_ (.refl l)
  rw [hreturns, hsame]
  dsimp only
  rw [hm]
  refine .bind ?_ (.refl l)
  rw [Act.returns_state, Act.leaves_state]
  unfold Mirror.checkedRelative
  rw [hcandidate]
  dsimp only
  rw [Path.relativeTo?_join hr]
  dsimp only
  by_cases hs : l.state.policy.isSource relative
  · rw [if_pos hs]
    exact Act.settles_acquire ((get_writingLock hw).trans (h.free w (List.mem_of_getElem? hw)))
      (settles_takeTurn h hw hm hr hs rfl)
  · rw [if_neg hs]
    exact Act.settles_ends (brings_error _)

end DocumentWrite

/-! ## Documents that are taken in -/

namespace Applying

variable {path : Path} {document : OpenDocument} {d : TrackedDocument} {r : Except Failure Applied}

/-- A document with a text that was received and is to be brought where it belongs. -/
structure Awaits (fell : String → Mirror → Prop) (document : OpenDocument) (d : TrackedDocument) (path : Path)
    (s : ServerState) : Prop where
  upkept : s.IsUpkept
  follows : s.HasDistinctPaths → s.Follows fun uri m => uri = document.uri ∨ fell uri m
  tracked : s.documents.get? document.uri = some d
  content : d.content = document.content
  path : d.path = path
  received : ∃ task, .received task document ∈ s.events

theorem settles_writing (h : Awaits fell document d path l.state) (hf : l.state.findWorkspace path = some id)
    (hs : l.state.policy.isSource path) (hw : l.state.workspaces[id]? = some w) (hm : w.mirror = some m)
    (hr : path.relativeTo? w.root = some relative) :
    Act.Settles (resume · .go) Eq (EndsWell fun uri m => uri ≠ document.uri ∧ fell uri m)
      (afterWriting id (DocumentWrite.start id relative document.content)) l := by
  have hwrites := DocumentWrite.settles_start h.upkept hw hm (Path.isInner_of_relativeTo? hr) document.content
  refine hwrites.afterwards (fun _ => rfl) fun r l' hbrings => ?_
  cases r with
  | ok e =>
      obtain ⟨hsource, hwrote⟩ := hbrings rfl
      refine .bind (.bind (Act.settles_ends fun _ hwell => ?_) ⟨rfl, rfl, rfl⟩) (.refl l')
      have hwell : l'.state.GoesWell := hwell.of_noted
      rw [← h.content] at hwrote
      have hdistinct : l.state.HasDistinctPaths := by
        have hd := hwell.distinct
        unfold HasDistinctPaths at hd ⊢
        rwa [hwrote.documents] at hd
      obtain ⟨task, hreceived⟩ := h.received
      have hfollows := hwrote.follows (h.follows hdistinct) h.tracked
        ⟨h.path ▸ hs, hsource, h.path ▸ hf, w, hw, hm, h.path ▸ hr⟩ hwell
        (.inr ⟨task, document, hwrote.record.subset hreceived, h.content.symm⟩)
      exact hfollows.noted l'.state.publisher _
  | error f =>
      cases f with
      | copy e => exact .bind (Act.settles_ends fun _ hwell => (not_goesWell_of_told _ _ hwell).elim) ⟨rfl, rfl, rfl⟩
      | _ => exact Act.settles_ends (endsWell_error _)

/-- A text that was received is written once its workspace is ready. -/
theorem settles_preparing (h : l.state.Follows fun uri m => uri = document.uri ∨ fell uri m)
    (ha : Awaits fell document d path l.state) (hf : l.state.findWorkspace path = some id)
    (hs : l.state.policy.isSource path) :
    Act.Settles (resume · .go) Eq (EndsWell fun uri m => uri ≠ document.uri ∧ fell uri m)
      (afterPreparing document path id (ensureReady id)) l := by
  obtain ⟨w, relative, hw, hr⟩ := exists_relative_of_findWorkspace hf
  have hplace : ∀ {l' : Loop ServerState Operation} {w'}, l'.state.workspaces[id]? = some w' → w'.root = w.root →
      (((workspace? id).returns l').bind fun w => path.relativeTo? w.root) = some relative := by
    intro l' w' hw' hroot
    have hreturns : (workspace? id).returns l' = some w' := hw'
    rw [hreturns, Option.bind_some, hroot, hr]
  refine (settles_ensureReady h hw).afterwards (fun _ => rfl) fun r l' hprepared => ?_
  generalize hs' : l'.state = s' at hprepared
  cases hprepared with
  | failed f => exact Act.settles_ends (endsWell_error _)
  | alarmed halarmed => exact Act.settles_ends fun _ hwell => (hwell.calm (hs' ▸ halarmed)).elim
  | unready hnone =>
      refine Act.settles_ends fun _ _ => ?_
      rw [hs']
      refine h.settles_document fun d' id' m relative' hg hp => ?_
      cases ha.tracked.symm.trans hg
      have hfound := hp.found
      rw [ha.path, hf] at hfound
      cases hfound
      exact absurd hp.has (hnone m)
  | ready hhas =>
      obtain ⟨m, w', hw', hm⟩ := hhas
      cases hw.symm.trans hw'
      rw [← hs'] at ha hf hs hw
      refine .bind ?_ (.refl l')
      rw [hplace hw rfl]
      exact settles_writing ha hf hs hw hm hr
  | renewed hrenews =>
      have hworks := hrenews.toWorksFor
      obtain ⟨w', m, hw', -, hm, -⟩ := hrenews.ready
      have hroot := hworks.root
      rw [hw, hw'] at hroot
      obtain ⟨task, hreceived⟩ := ha.received
      have ha' : Awaits fell document d path s' := ⟨hrenews.upkept, h.renews hrenews, hworks.documents ▸ ha.tracked,
        ha.content, ha.path, task, hworks.record.subset hreceived⟩
      have hroot := Option.some.inj hroot
      subst hs'
      have hfound : l'.state.findWorkspace path = some id := by rw [hworks.findWorkspace, hf]
      have hsource : l'.state.policy.isSource path := by rw [hworks.policy, hs]
      refine .bind ?_ (.refl l')
      rw [hplace hw' hroot]
      exact settles_writing ha' hfound hsource hw' hm (hroot ▸ hr)

/-- With nobody to ask for folders a document belongs to a workspace as things are, or to none. -/
theorem locates (hf : l.state.folders = .nobody) (path : Path) :
    (Locating.start path).leaves l = l ∧ (Locating.start path).returns l =
      match l.state.findWorkspace path with
      | some id => .done id
      | none => .fail (.noWorkspace path) := by
  unfold Locating.start
  rw [Act.returns_bind, Act.leaves_bind, Act.returns_state, Act.leaves_state]
  cases hfind : l.state.findWorkspace path with
  | some id => exact ⟨rfl, rfl⟩
  | none =>
      have hknown : l.state.knownFolders = .ok none := by
        unfold knownFolders
        rw [hf]
      dsimp only
      rw [hknown]
      unfold Locating.look
      rw [Act.returns_bind, Act.leaves_bind, Act.returns_state, Act.leaves_state, hfind]
      exact ⟨rfl, rfl⟩

theorem settles_locating (h : l.state.Follows fun uri m => uri = document.uri ∨ fell uri m)
    (ha : Awaits fell document d path l.state) (hs : l.state.policy.isSource path) :
    Act.Settles (resume · .go) Eq (EndsWell fun uri m => uri ≠ document.uri ∧ fell uri m)
      (afterLocating document path (Locating.start path)) l := by
  obtain ⟨hleaves, hreturns⟩ := locates h.folders path
  unfold afterLocating Act.afterwards
  refine .bind ?_ (hleaves.symm ▸ .refl l)
  rw [hreturns, hleaves]
  cases hfind : l.state.findWorkspace path with
  | some id => exact settles_preparing h ha hfind hs
  | none =>
      refine .bind (Act.settles_ends fun _ _ => ?_) ⟨rfl, rfl, rfl⟩
      have hsettled : l.state.Follows fun uri m => uri ≠ document.uri ∧ fell uri m := by
        refine h.settles_document fun d' id m relative hg hp => ?_
        cases ha.tracked.symm.trans hg
        have hfound := hp.found
        rw [ha.path, hfind] at hfound
        cases hfound
      exact hsettled.noted l.state.publisher _

/-- A document that is taken in while nothing else happens is brought where it belongs. -/
theorem settles_start (h : l.state.Follows fell) (document : OpenDocument) :
    Act.Settles (resume · .go) Eq (EndsWell fun uri m => uri ≠ document.uri ∧ fell uri m) (start document) l := by
  unfold start
  refine .bind (.bind ?_ ⟨rfl, rfl, rfl⟩) (.refl l)
  rw [Act.returns_self, Act.leaves_self]
  have h₁ : ((note (.received l.current document)).leaves l).state.Follows fell := h.noted l.state.publisher _
  have hreceived : .received l.current document ∈ ((note (.received l.current document)).leaves l).state.events :=
    List.mem_append_right _ (List.mem_singleton_self _)
  generalize (note (.received l.current document)).leaves l = l₁ at h₁ hreceived ⊢
  refine .bind ?_ (.refl l₁)
  rw [Act.returns_state, Act.leaves_state]
  cases hpath : Uri.toPath document.uri with
  | error e => exact Act.settles_ends (endsWell_error _)
  | ok path =>
      dsimp only
      cases hchange : l₁.state.documents.change document with
      | error e => exact Act.settles_ends (endsWell_error _)
      | ok changed =>
          obtain ⟨d, documents⟩ := changed
          obtain ⟨hdocuments, hcontent⟩ := Documents.change_eq_ok hchange
          have hreceives := h₁.receives hchange l₁.state.events
          have htracked : documents.get? document.uri = some d := by
            rw [hdocuments]
            exact Dict.get?_insert_self _ _ _
          have hdpath : d.path = path := by
            obtain ⟨-, hd⟩ := hreceives.known _ (Dict.mem_of_lookup_eq_some htracked)
            exact Except.ok.inj (hd.symm.trans hpath)
          refine .bind ?_ ⟨rfl, rfl, rfl⟩
          rw [Act.leaves_setState]
          by_cases hs : l₁.state.policy.isSource path
          · rw [if_pos hs]
            exact settles_locating hreceives ⟨hreceives.toIsUpkept, fun _ => hreceives, htracked, hcontent, hdpath, _,
              hreceived⟩ hs
          · rw [if_neg hs]
            refine Act.settles_ends fun _ _ => hreceives.settles_document fun d' id m relative hg hp => ?_
            cases htracked.symm.trans hg
            exact absurd (hdpath ▸ hp.source) hs

end Applying

end InkServer
