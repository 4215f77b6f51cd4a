import InkServer.Proofs.Workspace.Accounts
import InkServer.Proofs.Workspace.Overtaken

/-!
# The mirror of a registered workspace is there

The server deletes mirrors that came too late, mirrors that were replaced, and those of workspaces that were
removed. None of them is the mirror of a workspace that is registered. So the directory that a compiler was started
in is deleted only after another mirror has taken its place.
-/

namespace InkServer

open ServerState

/-! ## What is mentioned by duties -/

/-- The mirror that somebody with this charge is going to hand over or to delete. -/
def Charge.mirror? : Charge → Option Mirror
  | .scratch m | .leaving _ m => some m
  | .serving _ => none

/-- The mirrors that are going to be handed over or deleted. -/
def mirrorsOf (held : List Duty) : List Mirror := held.flatten.filterMap Charge.mirror?

section mirrorsOf

variable {held held' : List Duty} {d : Duty} {id : WorkspaceId} {m : Mirror}

theorem mirrorsOf_cons (d : Duty) (held : List Duty) : mirrorsOf (d :: held) = mirrorsOf [d] ++ mirrorsOf held := by
  unfold mirrorsOf
  rw [List.flatten_cons, List.filterMap_append, List.flatten_cons, List.flatten_nil, List.append_nil]

theorem mirrorsOf_append (held held' : List Duty) : mirrorsOf (held ++ held') = mirrorsOf held ++ mirrorsOf held' := by
  unfold mirrorsOf
  rw [List.flatten_append, List.filterMap_append]

theorem mirrorsOf_perm (h : held.Perm held') : (mirrorsOf held).Perm (mirrorsOf held') := h.flatten.filterMap _

theorem mem_mirrorsOf_of_bringing (h : Duty.bringing id m ∈ held) : m ∈ mirrorsOf held :=
  List.mem_filterMap.mpr ⟨.scratch m, List.mem_flatten.mpr ⟨_, h, List.mem_cons_self⟩, rfl⟩

end mirrorsOf

/-! ## Nothing that a registered workspace has is deleted -/

/-- Mirrors of registered workspaces are neither deleted nor going to be, and a mirror that a workspace is to get is
in nobody else's charge. -/
structure Spared (held : List Duty) (s : ServerState) : Prop where
  placed : s.Placed
  made : ∀ m ∈ mirrorsOf held, m.IsMade s.policy s.disk
  gone : ∀ m ∈ mirrorsOf held, ∀ id, s.Has id m → s.Gone id
  single : ∀ id m, .bringing id m ∈ held → (mirrorsOf held).count m = 1
  free : ∀ id m, .bringing id m ∈ held → ∀ i, ¬s.Has i m
  fresh : ∀ id m, .bringing id m ∈ held → .deleted m.path ∉ s.disk.history
  apart : ∀ id id' m, s.Has id m → s.Has id' m → id = id'
  known : ∀ path, .deleted path ∈ s.disk.history → ∃ m : Mirror, m.IsMade s.policy s.disk ∧ m.path = path
  there : ∀ id m, s.Has id m → .deleted m.path ∈ s.disk.history → s.Gone id

namespace Spared

variable {held held' : List Duty} {s s' : ServerState} {d : Duty} {id i : WorkspaceId} {m n : Mirror} {disk : Disk}

theorem mem_of_deleted {history : List MirrorEvent} (h : .deleted n.path ∈ history ++ [.deleted m.path]) :
    .deleted n.path ∈ history ∨ n = m := by
  refine (List.mem_append.mp h).imp_right fun h => ?_
  cases m
  cases n
  cases List.mem_singleton.mp h
  rfl

/-- Who is in charge of what does not matter. -/
theorem of_mirrors (h : Spared held s) (hm : (mirrorsOf held).Perm (mirrorsOf held'))
    (hb : ∀ id m, .bringing id m ∈ held' → .bringing id m ∈ held) : Spared held' s where
  placed := h.placed
  made m hmem := h.made m (hm.mem_iff.mpr hmem)
  gone m hmem := h.gone m (hm.mem_iff.mpr hmem)
  single id m hmem := hm.count_eq m ▸ h.single id m (hb id m hmem)
  free id m hmem := h.free id m (hb id m hmem)
  fresh id m hmem := h.fresh id m (hb id m hmem)
  apart := h.apart
  known := h.known
  there := h.there

/-- What a workspace is to get is not in the charge of others. -/
theorem ne_of_bringing (h : Spared (d :: held) s) (hd : m ∈ mirrorsOf [d]) (hb : .bringing id n ∈ held) : n ≠ m := by
  rintro rfl
  have hone := h.single id n (List.mem_cons_of_mem _ hb)
  rw [mirrorsOf_cons, List.count_append] at hone
  have hfirst := List.count_pos_iff.mpr hd
  have hrest := List.count_pos_iff.mpr (mem_mirrorsOf_of_bringing hb)
  omega

/-- Somebody forgets a duty. -/
theorem forgets (h : Spared (d :: held) s) : Spared held s := by
  have hsub : mirrorsOf held ⊆ mirrorsOf (d :: held) := fun m hm => by
    rw [mirrorsOf_cons]
    exact List.mem_append_right _ hm
  refine ⟨h.placed, fun m hm => h.made m (hsub hm), fun m hm => h.gone m (hsub hm), fun id m hm => ?_,
    fun id m hm => h.free id m (List.mem_cons_of_mem _ hm), fun id m hm => h.fresh id m (List.mem_cons_of_mem _ hm),
    h.apart, h.known, h.there⟩
  have hone := h.single id m (List.mem_cons_of_mem _ hm)
  rw [mirrorsOf_cons, List.count_append] at hone
  have hrest := List.count_pos_iff.mpr (mem_mirrorsOf_of_bringing hm)
  omega

/-- Workspaces may lose mirrors and leave as long as no mirror is made or deleted. -/
theorem of_has (h : Spared held s) (hp : s'.Placed) (hpolicy : s'.policy = s.policy) (hd : s.disk.Extends s'.disk)
    (hhas : ∀ i n, s'.Has i n → s.Has i n) (hgone : ∀ i, s.Gone i → s'.Gone i) : Spared held s' := by
  have hmade : ∀ {n : Mirror}, n.IsMade s.policy s.disk → n.IsMade s'.policy s'.disk := fun hn => by
    unfold Mirror.IsMade
    rw [hpolicy, hd.scratches]
    exact hn
  refine ⟨hp, fun m hm => hmade (h.made m hm), fun m hm id hid => hgone id (h.gone m hm id (hhas id m hid)), h.single,
    fun id m hm i hi => h.free id m hm i (hhas i m hi), fun id m hm hdeleted => h.fresh id m hm (hd.deleted _ hdeleted),
    fun id id' m hi hi' => h.apart id id' m (hhas id m hi) (hhas id' m hi'), fun path hp => ?_,
    fun id m hi hdeleted => hgone id (h.there id m (hhas id m hi) (hd.deleted _ hdeleted))⟩
  obtain ⟨m, hm, he⟩ := h.known path (hd.deleted path hp)
  exact ⟨m, hmade hm, he⟩

/-- A mirror that is in somebody's charge, and not to become that of a workspace, is deleted. -/
theorem deletes (h : Spared (d :: held) s) (hd : mirrorsOf [d] = [m]) (hs : disk.scratches = s.disk.scratches)
    (hh : disk.history = s.disk.history ++ [.deleted m.path]) : Spared held { s with disk } := by
  have hmem : m ∈ mirrorsOf [d] := hd ▸ List.mem_singleton_self m
  have hheld : m ∈ mirrorsOf (d :: held) := by
    rw [mirrorsOf_cons]
    exact List.mem_append_left _ hmem
  have hmade : ∀ {n : Mirror}, n.IsMade s.policy s.disk → n.IsMade s.policy disk := fun hn => by
    unfold Mirror.IsMade
    rw [hs]
    exact hn
  have hgone : ∀ {i}, s.Gone i → ({ s with disk } : ServerState).Gone i := fun hg => ⟨hg.known, hg.unregistered⟩
  have hrest := h.forgets
  refine ⟨⟨h.placed.keyed, fun w hw n hn => hmade (h.placed.made w hw n hn)⟩, fun n hn => hmade (hrest.made n hn),
    fun n hn i hi => hgone (hrest.gone n hn i hi), hrest.single, hrest.free, fun id n hn hdeleted => ?_, h.apart,
    fun path hp => ?_, fun id n hi hdeleted => ?_⟩
  · rw [hh] at hdeleted
    rcases mem_of_deleted hdeleted with hdeleted | hsame
    · exact hrest.fresh id n hn hdeleted
    · exact h.ne_of_bringing hmem hn hsame
  · rw [hh] at hp
    rcases List.mem_append.mp hp with hp | hp
    · obtain ⟨n, hn, he⟩ := h.known path hp
      exact ⟨n, hmade hn, he⟩
    · cases List.mem_singleton.mp hp
      exact ⟨m, hmade (h.made m hheld), rfl⟩
  · rw [hh] at hdeleted
    rcases mem_of_deleted hdeleted with hdeleted | rfl
    · exact hgone (h.there id n hi hdeleted)
    · exact hgone (h.gone n hheld id hi)

/-- A mirror is made for a workspace. -/
theorem makes (h : Spared held s) (hd : s.disk.Grows s.policy disk m) :
    Spared (.bringing id m :: held) { s with disk } := by
  have hmade : ∀ {n : Mirror}, n.IsMade s.policy s.disk → n.IsMade s.policy disk :=
    fun hn => hd.isMade_iff.mpr (.inr hn)
  have hgone : ∀ {i}, s.Gone i → ({ s with disk } : ServerState).Gone i := fun hg => ⟨hg.known, hg.unregistered⟩
  have hmirrors : mirrorsOf (.bringing id m :: held) = m :: mirrorsOf held := mirrorsOf_cons _ _
  have hnew : m ∉ mirrorsOf held := fun hm => hd.not_isMade (h.made m hm)
  have hfree : ∀ i, ¬s.Has i m := fun i ⟨w, hw, hi⟩ =>
    hd.not_isMade (h.placed.made w (List.mem_of_getElem? hw) m hi)
  have hfresh : .deleted m.path ∉ s.disk.history := fun hdeleted => by
    obtain ⟨n, hn, he⟩ := h.known _ hdeleted
    cases m
    cases n
    cases he
    exact hd.not_isMade hn
  refine ⟨⟨h.placed.keyed, fun w hw n hn => hmade (h.placed.made w hw n hn)⟩, fun n hn => ?_, fun n hn i hi => ?_,
    fun id' n hn => ?_, fun id' n hn => ?_, fun id' n hn hdeleted => ?_, h.apart, fun path hp => ?_,
    fun id' n hi hdeleted => hgone (h.there id' n hi (hd.deleted _ hdeleted))⟩
  · rw [hmirrors] at hn
    rcases List.mem_cons.mp hn with rfl | hn
    · exact hd.isMade_iff.mpr (.inl rfl)
    · exact hmade (h.made n hn)
  · rw [hmirrors] at hn
    rcases List.mem_cons.mp hn with rfl | hn
    · exact absurd hi (hfree i)
    · exact hgone (h.gone n hn i hi)
  · rw [hmirrors]
    rcases List.mem_cons.mp hn with he | hn
    · cases he
      rw [List.count_cons_self, List.count_eq_zero.mpr hnew]
    · have hne : m ≠ n := fun he => hnew (he ▸ mem_mirrorsOf_of_bringing hn)
      rw [List.count_cons_of_ne hne]
      exact h.single id' n hn
  · rcases List.mem_cons.mp hn with he | hn
    · cases he
      exact hfree
    · exact h.free id' n hn
  · have hdeleted := hd.deleted _ hdeleted
    rcases List.mem_cons.mp hn with he | hn
    · cases he
      exact hfresh hdeleted
    · exact h.fresh id' n hn hdeleted
  · obtain ⟨n, hn, he⟩ := h.known path (hd.deleted _ hp)
    exact ⟨n, hmade hn, he⟩

/-- A workspace gets its new mirror, and the previous one is to be deleted. -/
theorem installs {w : Workspace} {f : Workspace → Workspace} (h : Spared (.bringing id m :: held) s)
    (hw : s.workspaces[id]? = some w) (hu : (f w).uri = w.uri) (hm : (f w).mirror = some m) :
    Spared ((w.mirror.filter (· ≠ m)).toList.map .clearing ++ held)
      { s with workspaces := s.workspaces.modify id f } := by
  have hhas : ∀ {i n}, ({ s with workspaces := s.workspaces.modify id f } : ServerState).Has i n ↔
      (i ≠ id ∧ s.Has i n) ∨ (i = id ∧ m = n) := by
    intro i n
    rw [has_modify hw, hm, Option.some.injEq]
  have hgone : ∀ {i}, s.Gone i → ({ s with workspaces := s.workspaces.modify id f } : ServerState).Gone i :=
    fun hg => ⟨(List.length_modify f _ _).symm ▸ hg.known, hg.unregistered⟩
  have hrest := h.forgets
  have hmem : m ∈ mirrorsOf (.bringing id m :: held) := mem_mirrorsOf_of_bringing List.mem_cons_self
  have hfree : ∀ i, ¬s.Has i m := h.free id m List.mem_cons_self
  have hprevious : ∀ {n}, n ∈ mirrorsOf ((w.mirror.filter (· ≠ m)).toList.map Duty.clearing) → s.Has id n := by
    intro n hn
    cases hfilter : w.mirror.filter (· ≠ m) with
    | none =>
        rw [hfilter] at hn
        cases hn
    | some previous =>
        rw [hfilter] at hn
        cases List.mem_singleton.mp hn
        exact ⟨w, hw, (Option.filter_eq_some_iff.mp hfilter).1⟩
  have hnone : ∀ {n}, (∃ i, .bringing i n ∈ held) →
      (mirrorsOf ((w.mirror.filter (· ≠ m)).toList.map Duty.clearing)).count n = 0 := fun ⟨i, hn⟩ =>
    List.count_eq_zero.mpr fun hp => hrest.free i _ hn id (hprevious hp)
  have hbringing : ∀ {i n}, Duty.bringing i n ∈ (w.mirror.filter (· ≠ m)).toList.map Duty.clearing ++ held →
      .bringing i n ∈ held := fun hn => by
    refine (List.mem_append.mp hn).resolve_left fun hn => ?_
    obtain ⟨_, _, he⟩ := List.mem_map.mp hn
    cases he
  refine ⟨h.placed.modify hw hu fun n hn => ?_, fun n hn => ?_, fun n hn i hi => ?_, fun i n hn => ?_,
    fun i n hn j hj => ?_, fun i n hn => hrest.fresh i n (hbringing hn), fun i j n hi hj => ?_, h.known,
    fun i n hi hdeleted => ?_⟩
  · cases hm.symm.trans hn
    exact h.made m hmem
  · rw [mirrorsOf_append] at hn
    rcases List.mem_append.mp hn with hn | hn
    · obtain ⟨w', hw', hn⟩ := hprevious hn
      exact h.placed.made w' (List.mem_of_getElem? hw') n hn
    · exact hrest.made n hn
  · rw [mirrorsOf_append] at hn
    rcases List.mem_append.mp hn with hn | hn
    · rcases hhas.mp hi with ⟨hne, hi⟩ | ⟨_, rfl⟩
      · exact absurd (h.apart i id n hi (hprevious hn)) hne
      · exact absurd (hprevious hn) (hfree id)
    · rcases hhas.mp hi with ⟨_, hi⟩ | ⟨_, rfl⟩
      · exact hgone (hrest.gone n hn i hi)
      · have hone := h.single id m List.mem_cons_self
        rw [mirrorsOf_cons, List.count_append] at hone
        have hfirst : List.count m (mirrorsOf [Duty.bringing id m]) = 1 := List.count_singleton_self
        have hpositive := List.count_pos_iff.mpr hn
        omega
  · rw [mirrorsOf_append, List.count_append, hnone ⟨i, hbringing hn⟩, Nat.zero_add]
    exact hrest.single i n (hbringing hn)
  · rcases hhas.mp hj with ⟨_, hj⟩ | ⟨_, rfl⟩
    · exact hrest.free i n (hbringing hn) j hj
    · exact h.ne_of_bringing (mem_mirrorsOf_of_bringing (List.mem_singleton_self _)) (hbringing hn) rfl
  · rcases hhas.mp hi with ⟨_, hi'⟩ | ⟨rfl, rfl⟩
    · rcases hhas.mp hj with ⟨_, hj'⟩ | ⟨rfl, rfl⟩
      · exact h.apart i j n hi' hj'
      · exact absurd hi' (hfree i)
    · rcases hhas.mp hj with ⟨_, hj'⟩ | ⟨rfl, _⟩
      · exact absurd hj' (hfree j)
      · rfl
  · rcases hhas.mp hi with ⟨_, hi⟩ | ⟨rfl, rfl⟩
    · exact hgone (h.there i n hi hdeleted)
    · exact absurd hdeleted (h.fresh i m List.mem_cons_self)

/-- A workspace is taken out, and its mirror is to be deleted. -/
theorem removes {uri : String} {f : Workspace → Workspace} (h : Spared held s) (hr : s.registered.get? uri = some id)
    (hf : ∀ w, (f w).uri = w.uri ∧ (f w).mirror = w.mirror) :
    Spared ((s.workspaces[id]?.bind (·.mirror)).toList.map (.leaving id) ++ held)
      { s with workspaces := s.workspaces.modify id f, registered := s.registered.erase uri } := by
  obtain ⟨w, hw, _⟩ := h.placed.keyed uri id hr
  have hlength : (s.workspaces.modify id f).length = s.workspaces.length := List.length_modify ..
  let t : ServerState := { s with workspaces := s.workspaces.modify id f, registered := s.registered.erase uri }
  have hhas : ∀ i n, t.Has i n → s.Has i n := by
    intro i n hi
    rcases (has_modify hw).mp hi with ⟨_, hi⟩ | ⟨rfl, hm⟩
    · exact hi
    · exact ⟨w, hw, (hf w).2.symm.trans hm⟩
  have hgone : t.Gone id := h.placed.gone_erase hr (Nat.le_of_eq hlength.symm) rfl
  have hplaced : t.Placed := by
    have hmodified := h.placed.modify (f := f) hw (hf w).1 fun m he =>
      h.placed.made w (List.mem_of_getElem? hw) m ((hf w).2.symm.trans he)
    exact ⟨fun uri' i hr' => hmodified.keyed uri' i (get?_of_get?_erase hr').2, hmodified.made⟩
  have hheld : Spared held t := h.of_has hplaced rfl (.refl _) hhas fun i hg =>
    ⟨hlength ▸ hg.known, fun uri' hr' => hg.unregistered uri' (get?_of_get?_erase hr').2⟩
  cases hm : s.workspaces[id]?.bind (·.mirror) with
  | none => exact hheld
  | some m =>
      have hid : s.Has id m := by
        rw [hw] at hm
        exact ⟨w, hw, hm⟩
      have hmirrors : mirrorsOf (.leaving id m :: held) = m :: mirrorsOf held := mirrorsOf_cons _ _
      have hbringing : ∀ {i n}, .bringing i n ∈ Duty.leaving id m :: held → .bringing i n ∈ held := fun hn =>
        (List.mem_cons.mp hn).resolve_left nofun
      show Spared (.leaving id m :: held) t
      refine ⟨hplaced, fun n hn => ?_, fun n hn i hi => ?_, fun i n hn => ?_,
        fun i n hn => hheld.free i n (hbringing hn), fun i n hn => hheld.fresh i n (hbringing hn), hheld.apart,
        hheld.known, hheld.there⟩
      · rw [hmirrors] at hn
        rcases List.mem_cons.mp hn with rfl | hn
        · exact h.placed.made w (List.mem_of_getElem? hw) n (by rwa [hw] at hm)
        · exact h.made n hn
      · rw [hmirrors] at hn
        rcases List.mem_cons.mp hn with rfl | hn
        · exact h.apart i id n (hhas i n hi) hid ▸ hgone
        · exact hheld.gone n hn i hi
      · have hne : m ≠ n := fun he => h.free i n (hbringing hn) id (he ▸ hid)
        rw [hmirrors, List.count_cons_of_ne hne]
        exact h.single i n (hbringing hn)

/-- A workspace forgets its mirror. -/
theorem drops (h : Spared held s) (id : WorkspaceId) :
    Spared held { s with workspaces := s.workspaces.modify id fun w => { w with mirror := none } } := by
  cases hw : s.workspaces[id]? with
  | none =>
      rw [List.modify_eq_self (List.getElem?_eq_none_iff.mp hw)]
      exact h
  | some w =>
      have hplaced := h.placed.modify (f := fun w => { w with mirror := none }) hw rfl fun _ he => by cases he
      refine h.of_has hplaced rfl (.refl _) (fun i n hi => ?_) fun i hg =>
        ⟨(List.length_modify ..).symm ▸ hg.known, hg.unregistered⟩
      rcases (has_modify hw).mp hi with ⟨_, hi⟩ | ⟨_, hi⟩
      · exact hi
      · cases hi

end Spared

/-- No mirror of a registered workspace is deleted by what operations do. -/
theorem keeping_spared : Keeping Spared where
  perm h hp := h.of_mirrors (mirrorsOf_perm hp) fun _ _ hm => hp.mem_iff.mpr hm
  idle := ⟨fun h => h.forgets, fun h => h.of_mirrors (.refl _) fun _ _ hm => (List.mem_cons.mp hm).resolve_left nofun⟩
  standsBy hs h :=
    h.of_has (hs.placed h.placed) hs.policy hs.disk (fun _ _ hi => hs.has_iff.mp hi) fun _ hg => hs.gone hg
  registers {held s folder w} h hf hr := by
    have hchange : s.Change _ := .registers hf hr
    exact h.of_has (h.placed.change hchange) rfl (.refl _) (fun i n hi => (has_registers hf).mp hi) hchange.later.gone
  makes h _ hd := h.makes hd
  discards h := h.of_mirrors (.refl _) fun _ _ hm =>
    List.mem_cons_of_mem _ ((List.mem_cons.mp hm).resolve_left nofun)
  known h _ := h.forgets
  installs h hw _ hu hm _ := h.installs hw hu hm
  deletes {held s m} h := by
    rw [Mirror.run_delete]
    exact h.deletes rfl rfl rfl
  removes h hr hf := h.removes hr hf
  drops {held s id m} h := by
    rw [Mirror.run_delete]
    have hdeleted : Spared held { s with disk := { s.disk with
        files := Work.leaves (FileWork.unlink m.outputPath) (Work.leaves (FileWork.removeTree m.path) s.disk.files)
        history := s.disk.history ++ [.deleted m.path] } } := h.deletes rfl rfl rfl
    exact hdeleted.drops id

/-! ## Since a compiler was called -/

namespace ServerState

variable {s s' : ServerState} {id : WorkspaceId} {m : Mirror} {since record : List Event}

/-- A workspace that is there has this mirror, or another one was installed since. -/
def Retains (s : ServerState) (id : WorkspaceId) (m : Mirror) (since : List Event) : Prop :=
  s.Has id m ∨ s.Gone id ∨ ∃ g m', m' ≠ m ∧ .installed id g m' ∈ since

/-- Only an installation takes the mirror of a workspace that is there away. -/
theorem Retains.change (h : s.Retains id m since) (hc : Change s s') (he : s'.events = s.events ++ record) :
    s'.Retains id m (since ++ record) := by
  rcases h with ⟨w, hw, hm⟩ | hg | ⟨g, m', hne, hi⟩
  · obtain ⟨w', record', hw', he', hp⟩ := hc.passes hw
    rw [List.append_cancel_left (he.symm.trans he')]
    cases hp with
    | rests | removes | dismisses => exact .inl ⟨_, hw', hm⟩
    | @turns _ lists published record hpub ht =>
        cases ht with
        | @installs m' =>
            by_cases hsame : m' = m
            · exact .inl ⟨_, hw', congrArg some hsame⟩
            · refine .inr (.inr ⟨w.initializations, m', hsame, List.mem_append_right _ (List.mem_append_right _ ?_)⟩)
              exact List.mem_singleton_self _
        | drops hg => exact .inr (.inl (hc.later.gone id hg))
        | _ => exact .inl ⟨_, hw', hm⟩
  · exact .inr (.inl (hc.later.gone id hg))
  · exact .inr (.inr ⟨g, m', hne, List.mem_append_left _ hi⟩)

/-- A compiler is called in the mirror that its workspace has. -/
theorem retains_of_called {request : CompileRequest} (hc : Change s s') (he : s'.events = s.events ++ record)
    (hm : .called id request (some m) ∈ record) : s'.Retains id m [] := by
  obtain ⟨w, hw⟩ := hc.known_of_mem he hm rfl
  obtain ⟨w', record', hw', he', hp⟩ := hc.passes hw
  rw [List.append_cancel_left (he.symm.trans he')] at hm
  cases hp with
  | rests hr => exact absurd rfl (hr _ hm)
  | dismisses => exact absurd hm List.not_mem_nil
  | removes hpub => cases List.mem_singleton.mp (mem_record_of_mem hpub rfl hm)
  | @turns _ lists published record hpub ht =>
      have hin := mem_record_of_mem hpub rfl hm
      cases ht with
      | starts _ hmirror =>
          rcases List.mem_cons.mp hin with hin | hin
          · cases hin
            exact .inl ⟨_, hw', hmirror⟩
          · cases List.mem_singleton.mp hin
      | _ => simp at hin

theorem Retains.mono (h : s.Retains id m since) (record : List Event) : s.Retains id m (since ++ record) :=
  h.imp_right (.imp_right fun ⟨g, m', hne, hi⟩ => ⟨g, m', hne, List.mem_append_left _ hi⟩)

/-- Whenever a compiler was called in a mirror, its workspace has that mirror until another one is installed. -/
theorem Steps.retains {allowed : Foreign → Prop} (h : Steps allowed s s') (hs : s.Sound) (he : s.events = []) :
    ∀ id request m before since, s'.events = before ++ .called id request (some m) :: since →
      s'.Retains id m since := by
  refine (Steps.keeps h hs (p := fun t => ∀ id request m before since,
    t.events = before ++ .called id request (some m) :: since → t.Retains id m since)
    (fun id request m before since h => ?_) (fun s s' _ hc ih id request m before since h => ?_) ?_).2
  · rw [he] at h
    exact absurd (congrArg List.length h) (by simp)
  · obtain ⟨record, hevents⟩ := hc.later.events
    rcases append_eq_append_cons (hevents.trans h) with ⟨old, hold, rfl⟩ | ⟨first, _, rfl⟩
    · exact (ih id request m before old hold).change hc hevents.symm
    · have hm : .called id request (some m) ∈ first ++ .called id request (some m) :: since :=
        List.mem_append_right _ List.mem_cons_self
      exact (retains_of_called hc hevents.symm hm).mono since
  · intro s f _ _ ih id request m before since h
    exact (ih id request m before since h).imp_right (.imp_left fun hg => ⟨hg.known, hg.unregistered⟩)

end ServerState

/-! ## Runs -/

/-- Others who leave mirrors alone may work on the disk. -/
theorem tolerates_spared {f : Foreign} (hf : ∀ m, f ≠ .vanishes m) : Tolerates Spared f := fun held s h => by
  have hgone : ∀ i, s.Gone i → ({ s with disk := f.effect s.disk } : ServerState).Gone i :=
    fun i hg => ⟨hg.known, hg.unregistered⟩
  cases f with
  | files | blocks =>
      exact h.of_has ⟨h.placed.keyed, h.placed.made⟩ rfl (.of_history_eq rfl rfl) (fun _ _ hi => hi) hgone
  | vanishes m => exact absurd rfl (hf m)

namespace Server

variable {s : ServerState}

theorem IsFresh.spared (h : IsFresh s) : Spared [] s where
  placed := h.sound.toPlaced
  made _ hm := absurd hm List.not_mem_nil
  gone _ hm := absurd hm List.not_mem_nil
  single _ _ hm := absurd hm List.not_mem_nil
  free _ _ hm := absurd hm List.not_mem_nil
  fresh _ _ hm := absurd hm List.not_mem_nil
  apart := by
    rintro id id' m ⟨w, hw, _⟩
    rw [h.workspaces] at hw
    cases hw
  known path hp := by
    rw [h.history] at hp
    cases hp
  there := by
    rintro id m ⟨w, hw, _⟩
    rw [h.workspaces] at hw
    cases hw

/-- However a run of the registry goes, the server never deletes the mirror that a registered workspace has. The
directory that a compiler was called in was the mirror of its workspace, and as long as that stays registered it is
deleted only after another mirror was installed in its place. Others may take away files and directories as they
please: without `Foreign.vanishes`, only deletions by the server are on record. -/
theorem compiler_keeps_its_mirror_until_replaced (hs : IsFresh s) {moves : List (Session.Move External)}
    (hm : ∀ move ∈ moves, IsOfRegistry move) (hf : ∀ m, .outside (.foreign (.vanishes m)) ∉ moves) {uri : String}
    {id : WorkspaceId} (hr : (run s moves).state.registered.get? uri = some id) :
    (∀ m, (run s moves).state.Has id m → .deleted m.path ∉ (run s moves).state.disk.history) ∧
      ∀ before request m since, (run s moves).state.events = before ++ .called id request (some m) :: since →
        .deleted m.path ∈ (run s moves).state.disk.history → ∃ g m', m' ≠ m ∧ .installed id g m' ∈ since := by
  have haccounted : Accounted Spared (run s moves) := by
    refine (accounted_ofState keeping_spared hs.spared).after hm fun f hmem => tolerates_spared ?_
    rintro m rfl
    exact hf m hmem
  obtain ⟨dropped, hspared, -⟩ := haccounted.tally
  have hstays : ∀ m, (run s moves).state.Has id m → .deleted m.path ∉ (run s moves).state.disk.history :=
    fun m hid hdeleted => (hspared.there id m hid hdeleted).unregistered uri hr
  refine ⟨hstays, fun before request m since he hdeleted => ?_⟩
  have hsteps : Steps (fun _ => True) s (run s moves).state := steps_run hs fun _ _ => allows_all
  rcases hsteps.retains hs.sound hs.events id request m before since he with hid | hg | hinstalled
  · exact absurd hdeleted (hstays m hid)
  · exact absurd hr (hg.unregistered uri)
  · exact hinstalled

/-- The folder is opened once more while the compiler of an edit runs. -/
def reopeningWhileCompiling : List (Session.Move External) := openingFolder ++ firstEdit ++ openingFolder

/-- Whether a compiler is called for a workspace in a mirror. -/
def isCallIn (id : WorkspaceId) (m : Mirror) : Event → Bool
  | .called id' _ (some m') => id' = id && m' = m
  | _ => false

theorem exists_called {events : List Event} {id : WorkspaceId} {m : Mirror} (h : events.any (isCallIn id m)) :
    ∃ before request since, events = before ++ .called id request (some m) :: since := by
  obtain ⟨e, he, hcall⟩ := List.any_eq_true.mp h
  cases e with
  | called id' request mirror =>
      cases mirror with
      | none => cases hcall
      | some m' =>
          rw [isCallIn, Bool.and_eq_true, decide_eq_true_eq, decide_eq_true_eq] at hcall
          obtain ⟨before, since, hevents⟩ := List.append_of_mem he
          exact ⟨before, request, since, by rw [hevents, hcall.1, hcall.2]⟩
  | _ => cases hcall

/-- The mirror in which the compiler of the sample was called is deleted, after another one was installed. -/
theorem replaced_mirror_of_compiler_is_deleted :
    ∃ before request since g m', (run (sample [some { held := true }]) reopeningWhileCompiling).state.events =
        before ++ .called 0 request (some (sampleMirror 1)) :: since ∧
      m' ≠ sampleMirror 1 ∧ .installed 0 g m' ∈ since := by
  have hrun : (∀ move ∈ reopeningWhileCompiling, IsOfRegistry move) ∧
      (run (sample [some { held := true }]) reopeningWhileCompiling).state.registered.get? "file:///p" = some 0 ∧
      (run (sample [some { held := true }]) reopeningWhileCompiling).state.events.any
        (isCallIn 0 (sampleMirror 1)) ∧
      wasDeleted (sampleMirror 1) (run (sample [some { held := true }]) reopeningWhileCompiling).state.disk := by
    decide +kernel
  obtain ⟨hregistry, hregistered, hcalled, hdeleted⟩ := hrun
  have hnone : ∀ m, .outside (.foreign (.vanishes m)) ∉ reopeningWhileCompiling := fun m hm => by
    simp [reopeningWhileCompiling, openingFolder, firstEdit] at hm
  obtain ⟨before, request, since, he⟩ := exists_called hcalled
  obtain ⟨g, m', hne, hi⟩ := (compiler_keeps_its_mirror_until_replaced (isFresh_sample [some { held := true }])
    hregistry hnone hregistered).2 before request _ since he (wasDeleted_iff.mp hdeleted)
  exact ⟨before, request, since, g, m', he, hne, hi⟩

/-- A compiler runs in a mirror of a registered workspace, and the server deletes that mirror. -/
theorem running_compiler_loses_its_mirror :
    let s := (run (sample [some { held := true }]) reopeningWhileCompiling).state
    s.registered.get? "file:///p" = some 0 ∧
      (∃ before request since, s.events = before ++ .called 0 request (some (sampleMirror 1)) :: since) ∧
      (s.workspaces[0]?).any (fun w => w.state = .compileInFlight && w.scheduler.inFlight.isSome) ∧
      .deleted (sampleMirror 1).path ∈ s.disk.history ∧
      s.disk.files.node? ["m", "inkls-1"] = none := by
  have hrun : (run (sample [some { held := true }]) reopeningWhileCompiling).state.registered.get? "file:///p" =
        some 0 ∧
      (run (sample [some { held := true }]) reopeningWhileCompiling).state.events.any
        (isCallIn 0 (sampleMirror 1)) ∧
      ((run (sample [some { held := true }]) reopeningWhileCompiling).state.workspaces[0]?).any (fun w =>
        w.state = .compileInFlight && w.scheduler.inFlight.isSome) ∧
      wasDeleted (sampleMirror 1) (run (sample [some { held := true }]) reopeningWhileCompiling).state.disk ∧
      ((run (sample [some { held := true }]) reopeningWhileCompiling).state.disk.files.node?
        ["m", "inkls-1"]).isNone := by
    decide +kernel
  obtain ⟨hregistered, hcalled, hflight, hdeleted, hgone⟩ := hrun
  exact ⟨hregistered, exists_called hcalled, hflight, wasDeleted_iff.mp hdeleted, Option.isNone_iff_eq_none.mp hgone⟩

end Server

end InkServer
