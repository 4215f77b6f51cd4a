import InkServer.Proofs.Mirror.Apart
import InkServer.Proofs.Server.Runs
import InkServer.Proofs.Workspace.Shutdown
import InkServer.Proofs.Workspace.Following

/-!
# Documents whose workspace changes

A folder that is added takes documents over from the workspaces around it, with their texts. One that is removed
gives them back, and there the mirror may have been made before their last edits: such documents fall back. In a run in
which each operation ends before the next one begins, every other open source document is in the mirror of the
innermost workspace with the text that was last received.
-/

namespace InkServer

open Work ServerAct DiskWork Mirror

namespace Dict

variable {κ α : Type} [DecidableEq κ] {d : Dict κ α} {k : κ} {v : α}

theorem values_insert_of_get?_eq_none (h : d.get? k = none) : (d.insert k v).values = d.values ++ [v] := by
  obtain ⟨es⟩ := d
  unfold insert values
  have hne := ne_of_lookup_eq_none h
  clear h
  induction es with
  | nil => rfl
  | cons e es ih =>
      have hrest := ih fun e' he => hne e' (List.mem_cons_of_mem _ he)
      simp only [put, if_neg (hne e List.mem_cons_self), List.map_cons, List.cons_append]
      exact congrArg _ hrest

/-- A key with a value of its own takes it along. -/
theorem values_erase [DecidableEq α] (hk : d.keys.Nodup) (hv : d.get? k = some v)
    (h : ∀ k', d.get? k' = some v → k' = k) : (d.erase k).values = d.values.filter fun v' => v' ≠ v := by
  unfold erase values
  rw [List.filter_map]
  refine congrArg (List.map Prod.snd) (List.filter_congr fun e he => ?_)
  have hget := get?_of_mem hk (k := e.1) (v := e.2) he
  have hiff : e.1 = k ↔ e.2 = v := by
    constructor
    · rintro rfl
      exact Option.some.inj (hget.symm.trans hv)
    · rintro rfl
      exact h e.1 hget
  simp [hiff]

end Dict

/-- A path that does not end in `..` ends in the same name wherever it is seen from. -/
theorem Path.name_of_relativeTo?_of_ne {p root relative : Path} (hup : p.name ≠ "..")
    (h : p.relativeTo? root = some relative) : relative.name = p.name := by
  obtain hnil | ⟨names, name, hlast⟩ := List.eq_nil_or_concat p.segments
  · obtain ⟨-, hsegments, -, hne⟩ := Path.relativeTo?_eq_some_iff.mp h
    rw [segments_normalized, hnil] at hsegments
    exact absurd (List.append_eq_nil_iff.mp hsegments.symm).2 hne
  · rw [List.concat_eq_append] at hlast
    refine Path.name_of_relativeTo? hlast (fun he => hup ?_) h
    unfold Path.name
    rw [hlast, List.getLastD_concat, he]

namespace ServerState

variable {s s' : ServerState} {id : WorkspaceId} {m : Mirror} {w : Workspace} {uri : String} {path relative : Path}
  {d : TrackedDocument} {fell : String → Mirror → Prop}

/-! ## Where paths belong when folders come and go -/

/-- The best of a list stays the best when others are taken out. -/
theorem argmax_filter {α : Type} {f : α → Nat} {q : α → Bool} {l : List α} (h : ∀ x, l.argmax f = some x → q x) :
    (l.filter q).argmax f = l.argmax f := by
  induction l using List.reverseRecOn with
  | nil => rfl
  | append_singleton l a ih =>
      have hconcat := List.argmax_concat f a l
      rw [List.filter_append]
      cases hmax : l.argmax f with
      | none =>
          obtain rfl := List.argmax_eq_none.mp hmax
          have ha : q a = true := h a (by simp)
          simp [ha]
      | some c =>
          rw [hmax] at hconcat
          dsimp only at hconcat
          split at hconcat
          · rename_i hless
            have ha : q a = true := h a hconcat
            rw [hconcat, List.filter_cons_of_pos ha, List.filter_nil, List.argmax_concat]
            cases hrest : (l.filter q).argmax f with
            | none => rfl
            | some c' =>
                have hle := List.le_of_mem_argmax (List.mem_of_mem_filter (List.argmax_mem hrest)) hmax
                exact if_pos (Nat.lt_of_le_of_lt hle hless)
          · rename_i hless
            have hrest : (l.filter q).argmax f = some c := (ih fun x hx => h x (hconcat.trans (hmax ▸ hx))).trans hmax
            rw [hconcat]
            by_cases ha : q a = true
            · rw [List.filter_cons_of_pos ha, List.filter_nil, List.argmax_concat, hrest]
              exact if_neg hless
            · rw [List.filter_cons_of_neg ha, List.filter_nil, List.append_nil, hrest]

/-- A folder that is registered takes paths over from others, or leaves them where they are. -/
theorem findWorkspace_of_concat {e : WorkspaceId × Workspace}
    (h : s'.registeredWorkspaces = s.registeredWorkspaces ++ [e]) (path : Path) :
    s'.findWorkspace path = some e.1 ∨ s'.findWorkspace path = s.findWorkspace path := by
  rw [findWorkspace_eq_argmax, findWorkspace_eq_argmax]
  unfold workspacesAround
  rw [h, List.filter_append]
  by_cases he : path.isInside e.2.root = true
  · have hone : [e].filter (fun e => path.isInside e.2.root) = [e] := by simp [he]
    rw [hone, List.argmax_concat]
    cases (s.registeredWorkspaces.filter fun e => path.isInside e.2.root).argmax depth with
    | none => exact .inl rfl
    | some c =>
        dsimp only
        split
        · exact .inl rfl
        · exact .inr rfl
  · have hnone : [e].filter (fun e => path.isInside e.2.root) = [] := by simp [he]
    rw [hnone, List.append_nil]
    exact .inr rfl

/-- A folder that is no longer registered leaves the paths of others where they are. -/
theorem findWorkspace_of_filter (h : s'.registeredWorkspaces = s.registeredWorkspaces.filter fun e => e.1 ≠ id)
    (hp : s.findWorkspace path ≠ some id) : s'.findWorkspace path = s.findWorkspace path := by
  rw [findWorkspace_eq_argmax] at hp
  rw [findWorkspace_eq_argmax, findWorkspace_eq_argmax]
  unfold workspacesAround at hp ⊢
  rw [h, List.filter_comm, argmax_filter]
  intro x hx
  rw [hx] at hp
  exact decide_eq_true fun he => hp (congrArg some he)

/-- The server after a folder was registered. -/
def registering (s : ServerState) (uri : String) (w : Workspace) : ServerState :=
  { s with workspaces := s.workspaces ++ [w], registered := s.registered.insert uri s.workspaces.length }

/-- The server after a folder is no longer registered. -/
def unregistering (s : ServerState) (uri : String) : ServerState := { s with registered := s.registered.erase uri }

theorem Sound.lt_of_mem_values (h : s.Sound) (hk : s.registered.keys.Nodup) (hid : id ∈ s.registered.values) :
    id < s.workspaces.length := by
  obtain ⟨e, he, rfl⟩ := List.mem_map.mp hid
  obtain ⟨w, hw, -⟩ := h.keyed e.1 e.2 (Dict.get?_of_mem hk he)
  exact (List.getElem?_eq_some_iff.mp hw).1

theorem registeredWorkspaces_registering (h : s.Sound) (hk : s.registered.keys.Nodup)
    (hu : s.registered.get? uri = none) (w : Workspace) :
    (s.registering uri w).registeredWorkspaces = s.registeredWorkspaces ++ [(s.workspaces.length, w)] := by
  show (s.registered.insert uri s.workspaces.length).values.filterMap
    (fun id => (s.workspaces ++ [w])[id]?.map fun w => (id, w)) = _
  rw [Dict.values_insert_of_get?_eq_none hu, List.filterMap_append]
  congr 1
  · refine List.filterMap_congr fun id hid => ?_
    rw [List.getElem?_append_left (h.lt_of_mem_values hk hid)]
  · simp

theorem registeredWorkspaces_unregistering (h : s.Sound) (hk : s.registered.keys.Nodup)
    (hu : s.registered.get? uri = some id) :
    (s.unregistering uri).registeredWorkspaces = s.registeredWorkspaces.filter fun e => e.1 ≠ id := by
  have hown : ∀ uri', s.registered.get? uri' = some id → uri' = uri := by
    intro uri' hu'
    obtain ⟨w, hw, rfl⟩ := h.keyed uri id hu
    obtain ⟨w', hw', rfl⟩ := h.keyed uri' id hu'
    cases hw.symm.trans hw'
    rfl
  show (s.registered.erase uri).values.filterMap (fun id => s.workspaces[id]?.map fun w => (id, w)) = _
  rw [Dict.values_erase hk hu hown]
  unfold registeredWorkspaces
  generalize s.registered.values = ids
  induction ids with
  | nil => rfl
  | cons other ids ih =>
      by_cases ho : other = id
      · rw [List.filter_cons_of_neg (by simpa using ho), ih, List.filterMap_cons]
        cases s.workspaces[other]? with
        | none => rfl
        | some w => exact (List.filter_cons_of_neg (by simpa using ho)).symm
      · rw [List.filter_cons_of_pos (by simpa using ho), List.filterMap_cons, List.filterMap_cons]
        cases s.workspaces[other]? with
        | none => exact ih
        | some w => exact (congrArg _ ih).trans (List.filter_cons_of_pos (by simpa using ho)).symm

/-! ## Folders that come and go -/

/-- A folder that is registered has no mirror yet. -/
theorem Follows.registering (h : s.Follows fell) (hs : s.Sound) (hk : s.registered.keys.Nodup)
    (hu : s.registered.get? uri = none) (hm : w.mirror = none) (hw : w.writing = {}) :
    (s.registering uri w).Follows fell := by
  have hget : ∀ {other : WorkspaceId} {w' : Workspace}, (s.registering uri w).workspaces[other]? = some w' →
      w' = w ∨ s.workspaces[other]? = some w' := by
    intro other w' hw'
    have hw' : (s.workspaces ++ [w])[other]? = some w' := hw'
    rcases Nat.lt_or_ge other s.workspaces.length with hlt | hge
    · rw [List.getElem?_append_left hlt] at hw'
      exact .inr hw'
    · rw [List.getElem?_append_right hge] at hw'
      exact .inl (List.mem_singleton.mp (List.mem_of_getElem? hw'))
  have hhas : ∀ other m, (s.registering uri w).Has other m → s.Has other m := by
    rintro other m ⟨w', hw', hmirror⟩
    rcases hget hw' with rfl | hw'
    · cases hm.symm.trans hmirror
    · exact ⟨w', hw', hmirror⟩
  have hmem : ∀ w' ∈ (s.registering uri w).workspaces, w' ∈ s.workspaces ∨ w' = w := fun w' hw' =>
    (List.mem_append.mp hw').imp_right List.mem_singleton.mp
  refine ⟨h.toIsUpkept.leftAlone h.tidy (fun other m hm => ⟨hhas other m hm, .of_same rfl rfl rfl⟩) fun w' hw' => ?_,
    fun w' hw' hsome => ?_, h.folders, h.settings, h.known, fun uri' d other m relative hg hp => ?_⟩
  · exact (hmem w' hw').elim (h.free w') fun he => he ▸ hw
  · rcases hmem w' hw' with hw' | rfl
    · exact h.ready w' hw' hsome
    · rw [hm] at hsome
      cases hsome
  · obtain ⟨hsource, hinside, hfound, w', hw', hmirror, hrelative⟩ := hp
    rcases hget hw' with rfl | hw'
    · cases hm.symm.trans hmirror
    · refine h.held uri' d other m relative hg ⟨hsource, hinside, ?_, w', hw', hmirror, hrelative⟩
      rcases findWorkspace_of_concat (registeredWorkspaces_registering hs hk hu w) d.path with hnew | hold
      · cases hnew.symm.trans hfound
        exact absurd (List.getElem?_eq_some_iff.mp hw').1 (Nat.lt_irrefl _)
      · exact hold.symm.trans hfound

/-- A document whose workspace is removed falls back to another one that has its mirror already. -/
def FallsBack (s : ServerState) (id : WorkspaceId) (uri : String) (m : Mirror) : Prop :=
  ∃ d other, s.documents.get? uri = some d ∧ s.findWorkspace d.path = some id ∧ other ≠ id ∧ s.Has other m

/-- A workspace was removed with its mirror. -/
structure Removes (uri : String) (id : WorkspaceId) (s s' : ServerState) : Prop where
  policy : s'.policy = s.policy
  documents : s'.documents = s.documents
  folders : s'.folders = s.folders
  settings : s'.settings = s.settings
  indexes : s'.indexes = s.indexes
  registered : s'.registered = s.registered.erase uri
  workspaces : ∃ f : Workspace → Workspace, s'.workspaces = s.workspaces.modify id f ∧
    ∀ w, s.workspaces[id]? = some w → (f w).mirror = none ∧ (f w).root = w.root ∧ (f w).writing = w.writing
  deleted : ∀ m, s.Has id m → s'.disk = (m.delete.run s.disk).2
  undisturbed : (∀ m, ¬s.Has id m) → s'.disk = s.disk

/-- A workspace that is removed leaves those of others alone, and its documents fall back. -/
theorem Follows.removes (h : s.Follows fell) (hs : s.Sound) (hk : s.registered.keys.Nodup)
    (hu : s.registered.get? uri = some id) (hr : Removes uri id s s') :
    s'.Follows fun uri' m => fell uri' m ∨ s.FallsBack id uri' m := by
  obtain ⟨f, hworkspaces, hf⟩ := hr.workspaces
  have hget : ∀ other : WorkspaceId, other ≠ id → s'.workspaces[other]? = s.workspaces[other]? := fun other ho => by
    rw [hworkspaces]
    simp [Ne.symm ho]
  have hgone : ∀ w, s'.workspaces[id]? = some w → w.mirror = none := fun w hw => by
    rw [hworkspaces, List.getElem?_modify_eq] at hw
    obtain ⟨w', hw', rfl⟩ := Option.map_eq_some_iff.mp hw
    exact (hf w' hw').1
  have hhas : ∀ other m, s'.Has other m → other ≠ id ∧ s.Has other m := by
    rintro other m ⟨w, hw, hm⟩
    have ho : other ≠ id := by
      rintro rfl
      cases (hgone w hw).symm.trans hm
    exact ⟨ho, w, hget other ho ▸ hw, hm⟩
  have hdisk : s'.disk.files.IsTidy s.policy s'.disk.scratches ∧ ∀ other m, s'.Has other m → m.IsLeftAlone s s' := by
    by_cases hmirror : ∃ m, s.Has id m
    · obtain ⟨m, hm⟩ := hmirror
      have hmade := h.made id m hm
      have hconfined := confined_delete h.tidy hmade
      rw [← hr.deleted m hm] at hconfined
      refine ⟨hconfined.tidy, fun other m' hm' => ?_⟩
      obtain ⟨ho, hold⟩ := hhas other m' hm'
      have hne : m' ≠ m := by
        rintro rfl
        exact ho (h.apart other id m' hold hm)
      have hleft := isLeftAlone_delete h.tidy hmade (h.faithful other m' hold).stands hne
      rw [← hr.deleted m hm] at hleft
      exact hleft.trans (.of_same hr.policy rfl hr.indexes)
    · have hsame := hr.undisturbed (not_exists.mp hmirror)
      exact ⟨hsame ▸ h.tidy, fun _ _ _ => .of_same hr.policy hsame hr.indexes⟩
  have hroots : ∀ other : WorkspaceId,
      (s'.workspaces[other]?).map Workspace.root = ((s.unregistering uri).workspaces[other]?).map Workspace.root := by
    intro other
    by_cases ho : other = id
    · subst ho
      show _ = (s.workspaces[other]?).map Workspace.root
      rw [hworkspaces, List.getElem?_modify_eq]
      cases hw : s.workspaces[other]? with
      | none => rfl
      | some w => exact congrArg some (hf w hw).2.1
    · rw [hget other ho]
      rfl
  have hfind : ∀ path, s.findWorkspace path ≠ some id → s'.findWorkspace path = s.findWorkspace path := fun path hp =>
    (findWorkspace_congr hr.registered hroots path).trans
      (findWorkspace_of_filter (registeredWorkspaces_unregistering hs hk hu) hp)
  refine ⟨h.toIsUpkept.leftAlone (hr.policy ▸ hdisk.1) (fun other m hm => ⟨(hhas other m hm).2, hdisk.2 other m hm⟩)
    fun w hw => ?_, fun w hw hsome => ?_, hr.folders.trans h.folders, ?_, hr.documents ▸ h.known,
    fun uri' d other m relative hg hp => ?_⟩
  · obtain ⟨other, hother⟩ := List.mem_iff_getElem?.mp hw
    by_cases ho : other = id
    · rw [ho, hworkspaces, List.getElem?_modify_eq] at hother
      obtain ⟨w', hw', rfl⟩ := Option.map_eq_some_iff.mp hother
      exact (hf w' hw').2.2.trans (h.free w' (List.mem_of_getElem? hw'))
    · exact h.free w (List.mem_of_getElem? (hget other ho ▸ hother))
  · obtain ⟨other, hother⟩ := List.mem_iff_getElem?.mp hw
    by_cases ho : other = id
    · rw [hgone w (ho ▸ hother)] at hsome
      cases hsome
    · exact h.ready w (List.mem_of_getElem? (hget other ho ▸ hother)) hsome
  · rw [hr.settings]
    exact h.settings
  · obtain ⟨ho, hold⟩ := hhas other m hp.has
    rw [hr.documents] at hg
    by_cases hfallen : s.findWorkspace d.path = some id
    · exact .inr (.inr ⟨d, other, hg, hfallen, ho, hold⟩)
    · obtain ⟨hsource, hinside, hfound, w, hw, hmirror, hrelative⟩ := hp
      rw [hfind d.path hfallen] at hfound
      rw [hr.policy] at hsource hinside
      rw [hget other ho] at hw
      have hp : s.Places d.path other m relative := ⟨hsource, hinside, hfound, w, hw, hmirror, hrelative⟩
      refine (h.held uri' d other m relative hg hp).imp (fun hc => ?_) .inl
      have hleft := hdisk.2 other m ⟨w, hget other ho ▸ hw, hmirror⟩
      exact (h.faithful other m hold).content?_leftAlone hleft hp.isInner hc

/-- A document that is closed has no place any more. -/
theorem Follows.closes (h : s.Follows fell) (uri : String) (settings : SettingsCache) (hs : settings.current = {}) :
    Follows fell { s with documents := s.documents.close uri, settings } where
  toIsUpkept := h.toIsUpkept.of_same rfl rfl rfl rfl
  ready := h.ready
  folders := h.folders
  settings := hs
  known := h.known.closed uri
  held uri' d id m relative hg hp := by
    have hg : (s.documents.tracked.erase uri).get? uri' = some d := hg
    rw [Dict.get?_erase] at hg
    split at hg
    · cases hg
    · exact h.held uri' d id m relative hg ⟨hp.source, hp.sourceInside, hp.found, hp.workspace⟩

end ServerState

open ServerState

variable {l : Loop ServerState Operation} {fell : String → Mirror → Prop}

/-! ## What the operations come to -/

/-- What the removal of a folder makes of the documents that fell back before. -/
def FallsWith (s : ServerState) (folder : String) (fell : String → Mirror → Prop) (uri : String) (m : Mirror) : Prop :=
  fell uri m ∨ ∃ id, s.registered.get? folder = some id ∧ s.FallsBack id uri m

namespace Removal

variable {s : ServerState} {id : WorkspaceId} {w : Workspace} {uri : String}

/-- A workspace that is removed and has its mirror still. -/
def dismissed (w : Workspace) : Workspace :=
  { w.enter .removed with initializations := w.initializations + 1, published := [] }

/-- The server after a workspace was removed, before its mirror is deleted. -/
def dismissing (s : ServerState) (uri : String) (id : WorkspaceId) (publisher : Option Publisher)
    (record : List Event) : ServerState :=
  { s with
    registered := s.registered.erase uri
    workspaces := s.workspaces.modify id dismissed
    publisher
    events := s.events ++ record }

theorem removes_of_no_mirror (hw : s.workspaces[id]? = some w) (hm : w.mirror = none) (publisher : Option Publisher)
    (record : List Event) : Removes uri id s (dismissing s uri id publisher record) where
  policy := rfl
  documents := rfl
  folders := rfl
  settings := rfl
  indexes := rfl
  registered := rfl
  workspaces := ⟨dismissed, rfl, fun w' hw' => by
    cases hw.symm.trans hw'
    exact ⟨hm, rfl, rfl⟩⟩
  deleted m := by
    rintro ⟨w', hw', hm'⟩
    cases hw.symm.trans hw'
    cases hm.symm.trans hm'
  undisturbed _ := rfl

theorem removes_of_mirror (hw : s.workspaces[id]? = some w) {m : Mirror} (hm : w.mirror = some m)
    (publisher : Option Publisher) (record : List Event) {s' : ServerState}
    (hs : s' = { dismissing s uri id publisher record with
      disk := (m.delete.run s.disk).2
      workspaces := (s.workspaces.modify id dismissed).modify id fun w => { w with mirror := none } }) :
    Removes uri id s s' where
  policy := hs ▸ rfl
  documents := hs ▸ rfl
  folders := hs ▸ rfl
  settings := hs ▸ rfl
  indexes := hs ▸ rfl
  registered := hs ▸ rfl
  workspaces := ⟨fun w => { dismissed w with mirror := none }, by rw [hs, List.modify_modify_eq]; rfl,
    fun _ _ => ⟨rfl, rfl, rfl⟩⟩
  deleted m' := by
    rintro ⟨w', hw', hm'⟩
    cases hw.symm.trans hw'
    cases hm.symm.trans hm'
    rw [hs]
  undisturbed hno := (hno m ⟨w, hw, hm⟩).elim

/-- The mirror of a workspace that was removed is deleted. -/
theorem settles_deleting {post : ServerState → Prop} (publisher : Option Publisher) (record : List Event)
    (hl : l.state = dismissing s uri id publisher record) (hw : s.workspaces[id]? = some w) {w' : Workspace}
    (hm : w.mirror = w'.mirror) (hpost : ∀ s', Removes uri id s s' → post s') :
    Act.Settles (resume · .go) Eq (fun _ => post) (match w'.mirror with
      | some mirror => Act.through "delete" ⟨id, mirror⟩ do
          deleteMirror id mirror
          pure (.done true)
      | none => pure (.done true)) l := by
  cases hm' : w'.mirror with
  | none => exact Act.settles_ends (hpost _ (hl ▸ removes_of_no_mirror hw (hm.trans hm') publisher record))
  | some m =>
      refine Act.settles_through rfl rfl fun l' hl' => .bind (Act.settles_ends (hpost _ ?_)) ?_
      · refine removes_of_mirror hw (hm.trans hm') publisher record ?_
        have hdisk : (dismissing s uri id publisher record).disk = s.disk := rfl
        unfold deleteMirror
        rw [Act.leaves_bind, Initialization.leaves_delete, ← show l.state = l'.state from hl', hl, hdisk]
        generalize (m.delete.run s.disk).2 = d
        rfl
      · unfold deleteMirror
        rw [Act.leaves_bind, Initialization.leaves_delete]
        generalize (m.delete.run l'.state.disk).2 = d
        exact ⟨rfl, rfl, rfl⟩

/-- A removal is over once the mirror is deleted. -/
theorem settles_start (h : l.state.Follows fell) (hs : l.state.Sound) (hk : l.state.registered.keys.Nodup)
    (uri : String) :
    Act.Settles (resume · .go) Eq (fun _ s' => s'.Follows (FallsWith l.state uri fell)) (start uri) l := by
  have hreturns : (unregister uri).returns l = l.state.registered.get? uri := rfl
  have hleaves : (unregister uri).leaves l = { l with state := l.state.unregistering uri } := rfl
  unfold start
  refine .bind ?_ (hleaves ▸ ⟨rfl, rfl, rfl⟩)
  rw [hreturns, hleaves]
  cases hu : l.state.registered.get? uri with
  | none =>
      refine Act.settles_ends ?_
      have hsame : l.state.unregistering uri = l.state := by
        unfold unregistering
        rw [Dict.erase_of_get?_eq_none hu]
      rw [hsame]
      exact h.mono fun _ _ => .inl
  | some id =>
      obtain ⟨w, hw, -⟩ := hs.keyed uri id hu
      have hget : (l.state.workspaces.modify id fun w =>
          { w.enter .removed with initializations := w.initializations + 1 })[id]? =
          some { w.enter .removed with initializations := w.initializations + 1 } := by
        rw [List.getElem?_modify_eq, hw]
        rfl
      have hmodify : (l.state.workspaces.modify id fun w =>
          { w.enter .removed with initializations := w.initializations + 1 }).modify id
            (fun w => { w with published := [] }) = l.state.workspaces.modify id dismissed := by
        rw [List.modify_modify_eq]
        rfl
      dsimp only
      refine .bind ?_ ⟨rfl, rfl, rfl⟩
      generalize hl₁ : (updateWorkspace id _).leaves { l with state := l.state.unregistering uri } = l₁
      have hstate : l₁.state = { l.state.unregistering uri with
          workspaces := l.state.workspaces.modify id fun w =>
            { w.enter .removed with initializations := w.initializations + 1 } } := by
        rw [← hl₁]
        rfl
      have hreturns : (workspace? id).returns l₁ =
          some { w.enter .removed with initializations := w.initializations + 1 } := by
        show l₁.state.workspaces[id]? = _
        rw [hstate]
        exact hget
      unfold withWorkspace
      refine .bind ?_ (.refl l₁)
      rw [hreturns]
      dsimp only
      obtain ⟨publisher, record, hp, -⟩ := publishingAll_eq l₁.state (empties w.published)
      have hfalls : ∀ s', Removes uri id l.state s' → s'.Follows (FallsWith l.state uri fell) := fun s' hr =>
        (h.removes hs hk hu hr).mono fun _ _ hf => hf.imp_right fun hf => ⟨id, hu, hf⟩
      refine .bind (.bind (.bind (settles_deleting publisher (record ++ [Event.removed id]) ?_ hw rfl
        hfalls) ⟨rfl, rfl, rfl⟩) ⟨rfl, rfl, rfl⟩) ?_
      · have hsame : (workspace? id).leaves l₁ = l₁ := rfl
        have hpublished : (w.enter .removed).published = w.published := rfl
        have hcleared : ∀ l₂ : Loop ServerState Operation,
            ((note (.removed id)).leaves ((updateWorkspace id fun w => { w with published := [] }).leaves l₂)).state =
              { l₂.state with
                workspaces := l₂.state.workspaces.modify id fun w => { w with published := [] }
                events := l₂.state.events ++ [.removed id] } := fun _ => rfl
        rw [leaves_clearAll, hsame, hpublished, hp, hcleared, hstate]
        unfold dismissing
        rw [← hmodify, ← List.append_assoc]
        rfl
      · rw [leaves_clearAll]
        exact ⟨rfl, rfl, rfl⟩

end Removal

/-- A workspace that is initialized gets a new mirror, unless it was removed. -/
theorem Initialization.settles_following (h : l.state.Follows fell) {id : WorkspaceId} {w : Workspace}
    (hw : l.state.workspaces[id]? = some w) :
    Act.Settles (resume · .go) Eq (EndsWell fell) (start id) l := by
  by_cases hs : w.state = .removed
  · have hreturns : (workspace? id).returns l = some w := hw
    have hsame : (workspace? id).leaves l = l := rfl
    unfold start withWorkspace
    refine .bind ?_ (.refl l)
    rw [hreturns, hsame]
    dsimp only
    rw [if_pos hs]
    exact Act.settles_ends fun _ _ => h
  · refine (Initialization.settles_start h.toIsUpkept hw hs).mono fun r s' hr => ?_
    cases hr with
    | failed f => exact endsWell_error f
    | alarmed halarmed => exact fun _ hwell => (hwell.calm halarmed).elim
    | renewed hrenews => exact fun _ hwell => h.renews hrenews hwell.distinct

namespace Waiting

/-- What an operation is made of decides what it comes to. -/
theorem settles_ending {τ α : Type} {part : ServerAct (Step τ α)} {resume' : τ → ServerAct (Step τ α)}
    {wrap : τ → Waiting} {f : α → Result} (h : Act.Settles resume' Eq (EndsWell fell) part l)
    (hr : ∀ state, resume (wrap state) .go = ending (resume' state) wrap f) :
    Act.Settles (resume · .go) Eq (EndsWell fell) (ending part wrap f) l := by
  refine h.afterwards hr fun r l' hends => ?_
  cases r with
  | ok a => exact Act.settles_ends hends
  | error e => exact Act.settles_ends (endsWell_error _)

/-- A folder is registered already, has no path, or is registered without a mirror. -/
theorem registers (folder : Folder) (l : Loop ServerState Operation) :
    (∃ id, l.state.registered.get? folder.uri = some id ∧
      (JointInitialization.register folder).returns l = .ok id ∧ (JointInitialization.register folder).leaves l = l) ∨
    (∃ f, (JointInitialization.register folder).returns l = .error f ∧
      (JointInitialization.register folder).leaves l = l) ∨
    ∃ w, l.state.registered.get? folder.uri = none ∧ w.mirror = none ∧ w.writing = {} ∧
      (JointInitialization.register folder).returns l = .ok l.state.workspaces.length ∧
      (JointInitialization.register folder).leaves l = { l with state := l.state.registering folder.uri w } := by
  unfold JointInitialization.register
  rw [Act.returns_bind, Act.leaves_bind, Act.returns_state, Act.leaves_state]
  cases hu : l.state.registered.get? folder.uri with
  | some id => exact .inl ⟨id, rfl, rfl, rfl⟩
  | none =>
      refine .inr ?_
      dsimp only
      unfold Workspace.ofFolder
      cases Uri.toPath folder.uri with
      | error e => exact .inl ⟨.uri e, rfl, rfl⟩
      | ok root => exact .inr ⟨_, rfl, rfl, rfl, rfl, rfl⟩

/-- A folder is registered and initialized. -/
theorem settles_add (h : l.state.Follows fell) (hs : l.state.Sound) (hk : l.state.registered.keys.Nodup)
    (folder : Folder) : Act.Settles (resume · .go) Eq (EndsWell fell) (add folder) l := by
  have hstart : ∀ (l' : Loop ServerState Operation) id w, l'.state.Follows fell → l'.state.workspaces[id]? = some w →
      Act.Settles (resume · .go) Eq (EndsWell fell) (ending (Initialization.start id) .initializing .truth) l' :=
    fun l' id w h' hw => settles_ending (Initialization.settles_following h' hw) fun _ => rfl
  unfold add
  rcases registers folder l with
    ⟨id, hu, hreturns, hleaves⟩ | ⟨f, hreturns, hleaves⟩ | ⟨w, hu, hm, hw, hreturns, hleaves⟩
  · obtain ⟨w, hw, -⟩ := hs.keyed folder.uri id hu
    refine .bind ?_ (hleaves.symm ▸ .refl l)
    rw [hreturns, hleaves]
    exact hstart l id w h hw
  · refine .bind ?_ (hleaves.symm ▸ .refl l)
    rw [hreturns]
    exact Act.settles_ends (endsWell_error _)
  · refine .bind ?_ (hleaves.symm ▸ ⟨rfl, rfl, rfl⟩)
    rw [hreturns, hleaves]
    exact hstart _ _ w (h.registering hs hk hu hm hw) List.getElem?_concat_length

/-- The workspace that came last under a URI is initialized. -/
theorem settles_initializeLast (h : l.state.Follows fell) (uri : String) :
    Act.Settles (resume · .go) Eq (EndsWell fell)
      (withLast uri fun id => ending (Initialization.start id) .initializing .truth) l := by
  unfold withLast
  refine .bind ?_ (.refl l)
  rw [Act.returns_state, Act.leaves_state]
  cases hlast : l.state.lastWorkspace? uri with
  | none => exact Act.settles_ends (endsWell_error _)
  | some id =>
      obtain ⟨-, hany⟩ := List.mem_filter.mp (List.mem_of_getLast? hlast)
      obtain ⟨w, hw, -⟩ := (Option.any_eq_true _ _).mp hany
      exact settles_ending (Initialization.settles_following h hw) fun _ => rfl

/-- The operations that make up a run in which documents follow their workspaces. -/
def IsSequel : Operation → Prop
  | .add _ | .initializeLast _ | .remove _ | .update _ => True
  | _ => False

/-- Which documents are out of place after an operation. -/
def fallenAfter (s : ServerState) (fell : String → Mirror → Prop) : Operation → String → Mirror → Prop
  | .remove folder => FallsWith s folder fell
  | .update document => fun uri m => uri ≠ document.uri ∧ fell uri m
  | _ => fell

/-- However one of these operations goes while nothing else happens, documents follow their workspaces. -/
theorem settles_begin (h : l.state.Follows fell) (hs : l.state.Sound) (hk : l.state.registered.keys.Nodup)
    {operation : Operation} (ho : IsSequel operation) :
    Act.Settles (resume · .go) Eq (EndsWell (fallenAfter l.state fell operation)) (begin operation) l := by
  cases operation with
  | add folder => exact settles_add h hs hk folder
  | initializeLast uri => exact settles_initializeLast h uri
  | remove uri =>
      refine settles_ending ((Removal.settles_start h hs hk uri).mono fun r s' hr => ?_) fun _ => rfl
      exact fun _ _ => hr
  | update document => exact settles_ending (Applying.settles_start h document) fun _ => rfl
  | _ => exact ho.elim

end Waiting

/-! ## Runs in which one thing happens after the other -/

namespace Server

open Waiting

/-- What happens in a run in which folders and documents come and go: nothing is cancelled, and whoever waits at a gate
is let through in the end. -/
def IsOfSequence : Session.Move External → Prop
  | .turn | .passes _ .go | .closes _ | .opens _ => True
  | .outside (.asks operation) => IsSequel operation
  | .outside (.closes _) => True
  | _ => False

/-- A run in which everything that was begun has ended before something else is asked for. -/
structure IsSequential (s : ServerState) (moves : List (Session.Move External)) : Prop where
  ofSequence : ∀ move ∈ moves, IsOfSequence move
  oneByOne : ∀ earlier e later, moves = earlier ++ .outside e :: later → (run s earlier).tasks = []

/-- Nothing has failed so far. -/
structure IsUnharmed (s : Server) : Prop where
  succeeded : ∀ r ∈ s.ended, r.2.isOk
  goesWell : s.state.GoesWell

/-- The workspace of a document was removed when the one around it had its mirror already, and the document was not
received since. -/
def HasFallenBack (s : ServerState) (moves : List (Session.Move External)) (uri : String) (m : Mirror) : Prop :=
  ∃ earlier folder later id, moves = earlier ++ .outside (.asks (.remove folder)) :: later ∧
    (run s earlier).state.registered.get? folder = some id ∧ (run s earlier).state.FallsBack id uri m ∧
    ∀ document, .outside (.asks (.update document)) ∈ later → uri ≠ document.uri

variable {s : ServerState} {moves : List (Session.Move External)} {move : Session.Move External} {uri : String}
  {m : Mirror}

theorem HasFallenBack.concat (h : HasFallenBack s moves uri m)
    (hm : ∀ document, move = .outside (.asks (.update document)) → uri ≠ document.uri) :
    HasFallenBack s (moves ++ [move]) uri m := by
  obtain ⟨earlier, folder, later, id, rfl, hu, hf, hlater⟩ := h
  refine ⟨earlier, folder, later ++ [move], id, by simp, hu, hf, fun document hmem => ?_⟩
  rcases List.mem_append.mp hmem with hmem | hmem
  · exact hlater document hmem
  · exact hm document (List.mem_singleton.mp hmem).symm

/-- What an operation puts out of place has fallen back. -/
theorem hasFallenBack_of_fallenAfter {operation : Operation}
    (h : fallenAfter (run s moves).state (HasFallenBack s moves) operation uri m) :
    HasFallenBack s (moves ++ [.outside (.asks operation)]) uri m := by
  have hstays : ∀ operation, (∀ document, operation ≠ .update document) → HasFallenBack s moves uri m →
      HasFallenBack s (moves ++ [.outside (.asks operation)]) uri m := fun operation ho hf =>
    hf.concat fun document he => (ho document (by cases he; rfl)).elim
  cases operation with
  | remove folder =>
      rcases h with hf | ⟨id, hu, hf⟩
      · exact hstays _ nofun hf
      · exact ⟨moves, folder, [], id, rfl, hu, hf, fun _ hm => absurd hm List.not_mem_nil⟩
  | update document =>
      refine h.2.concat fun document' he => ?_
      cases he
      exact h.1
  | _ => exact hstays _ nofun h

/-- Where a run stands: if nothing has failed, the documents that have not fallen back are in their places. -/
def InStep (s : ServerState) (moves : List (Session.Move External)) : List (TaskId × Except Failure Result) →
    ServerState → Prop := fun ended s' =>
  (∀ r ∈ ended, r.2.isOk) → s'.GoesWell → s'.Follows (HasFallenBack s moves)

theorem inStep_concat (hm : ∀ document, move ≠ .outside (.asks (.update document)))
    {ended : List (TaskId × Except Failure Result)} {s' : ServerState} (h : InStep s moves ended s') :
    InStep s (moves ++ [move]) ended s' := fun hok hwell =>
  (h hok hwell).mono fun _ _ hf => hf.concat fun document he => (hm document he).elim

/-- A server on which folders and documents can come and go. -/
structure IsUnused (s : ServerState) : Prop extends IsFresh s where
  noMirrors : s.HasNoMirrors
  folders : s.folders = .nobody
  settings : s.settings.current = {}

theorem IsUnused.follows (h : IsUnused s) (fell : String → Mirror → Prop) : s.Follows fell := by
  have hnone : ∀ id m, ¬s.Has id m := by
    rintro id m ⟨w, hw, -⟩
    rw [h.workspaces] at hw
    cases hw
  refine ⟨⟨⟨⟨h.noMirrors.tree, h.noMirrors.noLinks, fun hm => absurd h.noMirrors.scratches hm⟩, fun id m hm => ?_,
    fun id _ m hm => ?_, fun w hw => ?_⟩, fun id m hm => ?_⟩, fun w hw => ?_, h.folders, h.settings, ?_,
    fun uri d id m relative hg => ?_⟩
  · exact (hnone id m hm).elim
  · exact (hnone id m hm).elim
  · rw [h.workspaces] at hw
    cases hw
  · exact (hnone id m hm).elim
  · rw [h.workspaces] at hw
    cases hw
  · rw [h.documents]
    exact Documents.Arises.none.known
  · rw [h.documents] at hg
    cases hg

theorem run_concat (s : ServerState) (moves : List (Session.Move External)) (move : Session.Move External) :
    run s (moves ++ [move]) = (run s moves).advance serverMachine External.act move := by
  unfold run
  rw [Session.after_append]
  rfl

/-- Closing a document takes no time. -/
theorem alone_closes {server : Server} (h : server.Alone serverMachine Eq (InStep s moves)) (ht : server.tasks = [])
    (hf : server.state.Follows (HasFallenBack s moves)) (uri : String) :
    (server.act (closeDocument uri)).2.Alone serverMachine Eq
      (InStep s (moves ++ [.outside (.closes uri)])) := by
  have hleaves : (closeDocument uri).leaves server.loop = { server.loop with
      state := { server.state with
        documents := server.state.documents.close uri
        settings := { server.state.settings with current := server.state.settings.current.erase uri } } } := by
    unfold closeDocument
    rw [Act.leaves_bind, Act.leaves_bind, Act.returns_state, Act.leaves_state, Act.leaves_setState]
    have hnone : server.loop.state.settings.current.get? uri = none := by
      rw [show server.loop.state.settings.current = {} from hf.settings]
      rfl
    rw [hnone]
    rfl
  obtain ⟨hact, hcalm⟩ := h.isCalm.act (a := closeDocument uri) (by rw [hleaves]) (by rw [hleaves])
    (by rw [hleaves]; exact fun _ hw => .inl hw)
  rw [hact] at hcalm ⊢
  refine .idle hcalm ht fun _ _ => ?_
  have hcloses := hf.closes uri { server.state.settings with current := server.state.settings.current.erase uri }
    (by rw [hf.settings]; rfl)
  have hstate : ((closeDocument uri).leaves server.loop).state = { server.state with
      documents := server.state.documents.close uri
      settings := { server.state.settings with current := server.state.settings.current.erase uri } } := by
    rw [hleaves]
  show ServerState.Follows _ ((closeDocument uri).leaves server.loop).state
  rw [hstate]
  exact hcloses.mono fun _ _ hf => hf.concat nofun

/-- However such a run goes, its tasks come one at a time and leave the documents in step. -/
theorem alone_run (hu : IsUnused s) (hs : IsSequential s moves)
    (hw : ∀ earlier, earlier <+: moves → IsUnharmed (run s earlier)) :
    (run s moves).Alone serverMachine Eq (InStep s moves) := by
  induction moves using List.reverseRecOn with
  | nil => exact .idle ⟨rfl, rfl, fun _ h => absurd h List.not_mem_nil⟩ rfl fun _ _ => hu.follows _
  | append_singleton moves move ih =>
      have ih := ih ⟨fun move hm => hs.ofSequence move (List.mem_append_left _ hm), fun earlier e later he =>
        hs.oneByOne earlier e (later ++ [move]) (by rw [he]; simp)⟩ fun earlier he =>
          hw earlier (he.trans (List.prefix_append _ _))
      have hmove := hs.ofSequence move (List.mem_append_right _ (List.mem_singleton_self _))
      have hunharmed := hw moves (List.prefix_append _ _)
      have hfollows : (run s moves).tasks = [] → (run s moves).state.Follows (HasFallenBack s moves) := fun ht =>
        ih.settled ht hunharmed.succeeded hunharmed.goesWell
      have hsteps : Steps (fun _ => True) s (run s moves).state := steps_run hu.toIsFresh fun _ _ => allows_all
      have hkeys : (run s moves).state.registered.keys.Nodup :=
        nodup_registered hsteps hu.sound (by rw [hu.registered]; exact List.nodup_nil)
      have hsound := hsteps.sound hu.sound
      rw [run_concat]
      cases move with
      | turn => exact (ih.turn fun _ => rfl).mono fun _ _ => inStep_concat fun _ he => by cases he
      | cancels task => exact hmove.elim
      | passes task signal =>
          cases signal with
          | go =>
              obtain ⟨l, hact, hstate, hcalm⟩ := ih.isCalm.pass task
              show ((run s moves).act (Act.pass task .go)).2.Alone serverMachine Eq _
              rw [hact]
              exact (ih.loop hstate hcalm).mono fun _ _ => inStep_concat fun _ he => by cases he
          | _ => exact hmove.elim
      | closes gate =>
          obtain ⟨hact, hcalm⟩ := ih.isCalm.act (a := Act.close gate) rfl rfl fun _ => .inl
          show ((run s moves).act (Act.close gate)).2.Alone serverMachine Eq _
          rw [hact] at hcalm ⊢
          have hloop := ih.loop (l := (Act.close gate).leaves _) rfl hcalm
          exact hloop.mono fun _ _ => inStep_concat fun _ he => by cases he
      | opens gate =>
          obtain ⟨hact, hcalm⟩ := ih.isCalm.act (a := Act.open_ gate) rfl rfl fun _ => .inl
          show ((run s moves).act (Act.open_ gate)).2.Alone serverMachine Eq _
          rw [hact] at hcalm ⊢
          have hloop := ih.loop (l := (Act.open_ gate).leaves _) rfl hcalm
          exact hloop.mono fun _ _ => inStep_concat fun _ he => by cases he
      | outside e =>
          have ht := hs.oneByOne moves e [] rfl
          cases e with
          | asks operation =>
              have hserved : operation.isServed = true := by
                cases operation <;> first | rfl | exact hmove.elim
              show ((run s moves).act (if operation.isServed then discard (Act.create operation) else pure ())).2.Alone
                serverMachine Eq _
              rw [if_pos hserved]
              refine ih.isCalm.alone ht fun task l hl => ?_
              have hl : (run s moves).state = l.state := hl
              rw [hl] at hkeys hsound
              refine (settles_begin (hl ▸ hfollows ht) hsound hkeys hmove).mono fun r s' hends hok hwell => ?_
              refine (hends (hok (task, r) (List.mem_append_right _ (List.mem_singleton_self _))) hwell).mono ?_
              rw [← hl]
              exact fun _ _ => hasFallenBack_of_fallenAfter
          | closes uri => exact alone_closes ih ht (hfollows ht) uri
          | _ => exact hmove.elim

/-- In a run in which each operation ends before the next one begins, and in which nothing fails, every open source
document is in the mirror of the workspace that it belongs to with the text that was last received, unless it fell back
to that workspace. -/
theorem documents_follow_their_workspace (hu : IsUnused s) (hs : IsSequential s moves)
    (hw : ∀ earlier, earlier <+: moves → IsUnharmed (run s earlier)) (ht : (run s moves).tasks = [])
    {d : TrackedDocument} (hd : (run s moves).state.documents.get? uri = some d)
    (hsource : (run s moves).state.policy.isSource d.path) (hup : d.path.name ≠ "..") {id : WorkspaceId} {w : Workspace}
    (hid : (run s moves).state.findWorkspace d.path = some id) (hget : (run s moves).state.workspaces[id]? = some w)
    (hready : w.isReady) :
    ∃ m relative, w.mirror = some m ∧ d.path.relativeTo? w.root = some relative ∧
      (m.content? (run s moves).state.disk.files relative = some d.content ∨ HasFallenBack s moves uri m) := by
  have hunharmed := hw moves List.prefix_rfl
  have hfollows := (alone_run hu hs hw).settled ht hunharmed.succeeded hunharmed.goesWell
  obtain ⟨m, hm⟩ := Option.isSome_iff_exists.mp ((Bool.and_eq_true _ _).mp hready).1
  obtain ⟨w', relative, hget', hr⟩ := exists_relative_of_findWorkspace hid
  cases hget.symm.trans hget'
  have hinside : (run s moves).state.policy.isSource relative :=
    (Path.isSource_congr (Path.name_of_relativeTo?_of_ne hup hr) _).trans hsource
  exact ⟨m, relative, hm, hr, hfollows.held uri d id m relative hd ⟨hsource, hinside, hid, w, hget, hm, hr⟩⟩

/-! ## A folder in a folder -/

/-- A server on a machine with a story in `/p` and a chapter in `/p/q`. -/
def neighbours : ServerState :=
  { sample [] with
    disk := { files := ⟨⟨[(["p"], .directory), (["p", "main.ink"], .file "Outer.".toUTF8), (["p", "q"], .directory),
      (["p", "q", "a.ink"], .file "Disk.".toUTF8), (["m"], .directory)]⟩⟩ } }

/-- An operation that takes one turn. -/
def atOnce (operation : Operation) : List (Session.Move External) := [.outside (.asks operation), .turn]

/-- The chapter is edited in the folder around it, and then its own folder is added. -/
def movingIn : List (Session.Move External) :=
  atOnce (.add ⟨"file:///p", "p"⟩) ++ atOnce (.update ⟨"file:///p/q/a.ink", 1, "Edited."⟩) ++
    atOnce (.add ⟨"file:///p/q", "q"⟩)

/-- The chapter is edited in its own folder, which is then removed. -/
def movingOut : List (Session.Move External) :=
  atOnce (.add ⟨"file:///p", "p"⟩) ++ atOnce (.add ⟨"file:///p/q", "q"⟩) ++
    atOnce (.update ⟨"file:///p/q/a.ink", 1, "Edited."⟩) ++ atOnce (.remove "file:///p/q")

theorem isUnused_neighbours : IsUnused neighbours := by
  refine ⟨⟨rfl, rfl, rfl, rfl, rfl⟩, ⟨fun _ hw => absurd hw List.not_mem_nil, rfl, rfl,
    FileSystem.isTree_of_all rfl (by decide), fun directory k target hl => ?_⟩, rfl, rfl⟩
  have hmem := FileSystem.mem_nodes_of_node? (List.append_ne_nil_of_right_ne_nil _ (List.cons_ne_nil _ _)) hl
  simp [neighbours] at hmem

/-- Each operation ends before the next one begins. -/
def comesOneByOne (s : ServerState) (moves : List (Session.Move External)) : Bool :=
  (List.range moves.length).all fun n => match moves[n]? with
    | some (.outside _) => (run s (moves.take n)).tasks.isEmpty
    | _ => true

theorem oneByOne_of_comesOneByOne (h : comesOneByOne s moves = true) (earlier : List (Session.Move External))
    (e : External) (later : List (Session.Move External)) (hm : moves = earlier ++ .outside e :: later) :
    (run s earlier).tasks = [] := by
  have hlt : earlier.length < moves.length := by
    rw [hm, List.length_append, List.length_cons]
    omega
  have hone := List.all_eq_true.mp h earlier.length (List.mem_range.mpr hlt)
  rw [show moves[earlier.length]? = some (.outside e) by rw [hm]; simp,
    show moves.take earlier.length = earlier by rw [hm]; simp] at hone
  exact List.isEmpty_iff.mp hone

/-- Nothing has failed, and the texts that were written or received are some known ones. -/
def goesUnharmed (known : List ByteArray) (server : Server) : Bool :=
  (server.ended.all fun r => r.2.isOk) &&
    (server.state.events.all fun
      | .noticed (.serverError _) => false
      | .received _ document => decide (document.content.data ∈ known.map ByteArray.data)
      | _ => true) &&
    (server.state.disk.history.all fun
      | .wrote _ _ content => decide (content.data ∈ known.map ByteArray.data)
      | _ => true) &&
    decide (server.state.documents.contents.map fun c => c.1.normalized).Nodup

theorem isUnharmed_of_goesUnharmed {known : List ByteArray} (hk : (known.map Digest.sha256).Nodup) {server : Server}
    (h : goesUnharmed known server = true) : IsUnharmed server := by
  unfold goesUnharmed at h
  simp only [Bool.and_eq_true, List.all_eq_true, decide_eq_true_eq] at h
  obtain ⟨⟨⟨hok, hevents⟩, hhistory⟩, hdistinct⟩ := h
  refine ⟨hok, fun ⟨text, hm⟩ => ?_, hdistinct, fun c hc c' hc' he => ?_⟩
  · cases hevents _ hm
  · have hmem : ∀ {c : ByteArray}, c.data ∈ known.map ByteArray.data → c ∈ known := fun hdata => by
      obtain ⟨c, hc, he⟩ := List.mem_map.mp hdata
      exact ByteArray.ext he ▸ hc
    have hknown : ∀ c ∈ server.state.texts, c ∈ known := by
      rintro c (⟨m, relative, hm⟩ | ⟨task, document, hm, rfl⟩)
      · exact hmem (of_decide_eq_true (hhistory _ hm))
      · exact hmem (of_decide_eq_true (hevents _ hm))
    exact List.inj_on_of_nodup_map hk (hknown c hc) (hknown c' hc') he

/-- The texts of the story and the chapter. -/
def versions : List ByteArray := ["Outer.".toUTF8, "Disk.".toUTF8, "Edited.".toUTF8]

/-- Nothing fails from the beginning to the end. -/
def staysUnharmed (s : ServerState) (moves : List (Session.Move External)) : Bool :=
  (List.range (moves.length + 1)).all fun n => goesUnharmed versions (run s (moves.take n))

theorem isUnharmed_of_staysUnharmed (h : staysUnharmed s moves = true) (earlier : List (Session.Move External))
    (he : earlier <+: moves) : IsUnharmed (run s earlier) := by
  have hversions : (versions.map Digest.sha256).Nodup := by decide +kernel
  refine isUnharmed_of_goesUnharmed hversions ?_
  rw [List.prefix_iff_eq_take.mp he]
  exact List.all_eq_true.mp h _ (List.mem_range.mpr (Nat.lt_succ_of_le he.length_le))

/-- A document is taken over by the folder that is added around it. -/
theorem chapter_moves_in :
    ∃ m relative, (Path.ofText "/p/q/a.ink").relativeTo? (.ofText "/p/q") = some relative ∧
      (run neighbours movingIn).state.Has 1 m ∧
      m.content? (run neighbours movingIn).state.disk.files relative = some "Edited.".toUTF8 := by
  have hrun : comesOneByOne neighbours movingIn = true ∧ staysUnharmed neighbours movingIn = true ∧
      (run neighbours movingIn).tasks.isEmpty = true ∧
      (run neighbours movingIn).state.policy.isSource (.ofText "/p/q/a.ink") = true ∧
      (run neighbours movingIn).state.findWorkspace (.ofText "/p/q/a.ink") = some 1 ∧
      ((run neighbours movingIn).state.documents.get? "file:///p/q/a.ink").map (fun d => (d.path, d.content.data)) =
        some (.ofText "/p/q/a.ink", "Edited.".toUTF8.data) ∧
      (run neighbours movingIn).state.workspaces[1]?.map (fun w => (w.root, w.isReady)) =
        some (.ofText "/p/q", true) := by decide +kernel
  obtain ⟨hone, hunharmed, htasks, hsource, hfound, hdocument, hworkspace⟩ := hrun
  have hsequential : IsSequential neighbours movingIn :=
    ⟨by simp [movingIn, atOnce, IsOfSequence, IsSequel], oneByOne_of_comesOneByOne hone⟩
  obtain ⟨d, hd, hd'⟩ := Option.map_eq_some_iff.mp hdocument
  obtain ⟨w, hw, hw'⟩ := Option.map_eq_some_iff.mp hworkspace
  obtain ⟨hpath, hcontent⟩ := Prod.mk.inj hd'
  obtain ⟨hroot, hready⟩ := Prod.mk.inj hw'
  obtain ⟨m, relative, hm, hr, hheld⟩ := documents_follow_their_workspace isUnused_neighbours hsequential
    (isUnharmed_of_staysUnharmed hunharmed) (List.isEmpty_iff.mp htasks) hd (hpath ▸ hsource)
    (hpath ▸ by decide +kernel) (hpath ▸ hfound) hw hready
  refine ⟨m, relative, hpath ▸ hroot ▸ hr, ⟨w, hw, hm⟩, ?_⟩
  rw [← ByteArray.ext hcontent]
  refine hheld.resolve_right fun ⟨earlier, folder, later, id, hmoves, _⟩ => ?_
  have hmem : .outside (.asks (.remove folder)) ∈ movingIn := hmoves ▸ List.mem_append_right _ List.mem_cons_self
  simp [movingIn, atOnce] at hmem

/-- When the workspace of a document is removed, its last text does not come into the mirror of the folder around it. -/
theorem chapter_falls_back :
    ¬ ∀ (s : ServerState) (moves : List (Session.Move External)), IsUnused s → IsSequential s moves →
      (∀ earlier, earlier <+: moves → IsUnharmed (run s earlier)) → (run s moves).tasks = [] →
      ∀ (uri : String) (d : TrackedDocument) (id : WorkspaceId) (w : Workspace),
        (run s moves).state.documents.get? uri = some d → (run s moves).state.policy.isSource d.path →
        d.path.name ≠ ".." → (run s moves).state.findWorkspace d.path = some id →
        (run s moves).state.workspaces[id]? = some w → w.isReady →
        ∃ m relative, w.mirror = some m ∧ d.path.relativeTo? w.root = some relative ∧
          m.content? (run s moves).state.disk.files relative = some d.content := by
  intro h
  have hrun : comesOneByOne neighbours movingOut = true ∧ staysUnharmed neighbours movingOut = true ∧
      (run neighbours movingOut).tasks.isEmpty = true ∧
      (run neighbours movingOut).state.policy.isSource (.ofText "/p/q/a.ink") = true ∧
      (run neighbours movingOut).state.findWorkspace (.ofText "/p/q/a.ink") = some 0 ∧
      ((run neighbours movingOut).state.documents.get? "file:///p/q/a.ink").map (fun d => (d.path, d.content.data)) =
        some (.ofText "/p/q/a.ink", "Edited.".toUTF8.data) ∧
      (run neighbours movingOut).state.workspaces[0]?.map (fun w => (w.root, w.isReady, w.mirror)) =
        some (.ofText "/p", true, some ⟨.ofText "/m/inkls-1"⟩) ∧
      ((Mirror.mk (.ofText "/m/inkls-1")).content? (run neighbours movingOut).state.disk.files (.ofText "q/a.ink")).map
        ByteArray.data = some "Disk.".toUTF8.data := by decide +kernel
  obtain ⟨hone, hunharmed, htasks, hsource, hfound, hdocument, hworkspace, hfile⟩ := hrun
  have hsequential : IsSequential neighbours movingOut :=
    ⟨by simp [movingOut, atOnce, IsOfSequence, IsSequel], oneByOne_of_comesOneByOne hone⟩
  obtain ⟨d, hd, hd'⟩ := Option.map_eq_some_iff.mp hdocument
  obtain ⟨w, hw, hw'⟩ := Option.map_eq_some_iff.mp hworkspace
  obtain ⟨hpath, hcontent⟩ := Prod.mk.inj hd'
  obtain ⟨hroot, hw'⟩ := Prod.mk.inj hw'
  obtain ⟨hready, hmirror⟩ := Prod.mk.inj hw'
  obtain ⟨m, relative, hm, hr, hheld⟩ := h neighbours movingOut isUnused_neighbours hsequential
    (isUnharmed_of_staysUnharmed hunharmed) (List.isEmpty_iff.mp htasks) "file:///p/q/a.ink" d 0 w hd
    (hpath ▸ hsource) (hpath ▸ by decide +kernel) (hpath ▸ hfound) hw hready
  cases hmirror.symm.trans hm
  have hrelative : (Path.ofText "/p/q/a.ink").relativeTo? (.ofText "/p") = some (.ofText "q/a.ink") := by decide +kernel
  rw [hpath, hroot, hrelative] at hr
  cases hr
  rw [hheld, Option.map_some, hcontent] at hfile
  exact absurd hfile (by decide +kernel)

end Server

end InkServer
