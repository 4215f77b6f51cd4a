import InkServer.Proofs.Mirror.Asked
import InkServer.Proofs.Server.Runs

/-!
# Mirrors are kept apart

Whatever mirrors are asked for, and in whatever order the calls take their turns, the server touches nothing
but the place for mirrors, the mirrors and what was compiled beside them, and puts nothing but source files into
mirrors. A path that leads out of the workspace, or to no source file, is refused before anything is touched.
-/

namespace InkServer

open Work ServerAct

namespace FileWork

/-- Asking what stands at a path changes nothing; the answer is yes only if something with the property stands
there, and null characters are no trouble. -/
theorem reaches_holds (p : Path) (property : FileNode → Bool) (fs : FileSystem) :
    Reaches (holds p property) fs
      (fun yes fs' => fs' = fs ∧ (yes → ∃ n, fs.stat p = .ok n ∧ property n))
      fun e fs' => fs' = fs ∧ ∃ f, e = .os f := by
  unfold holds
  rw [reaches_get]
  split
  · exact ⟨rfl, nofun⟩
  · split
    · rename_i n hn
      exact ⟨rfl, fun hyes => ⟨n, hn, hyes⟩⟩
    · split
      · exact ⟨rfl, nofun⟩
      · exact ⟨rfl, _, rfl⟩

end FileWork

namespace Mirror

variable {policy : MirrorPolicy} {root path : Path} {l l' : Loop ServerState Operation} {id : WorkspaceId}
  {m : Mirror} {w : Workspace}

/-! ## What is refused -/

/-- Whether a path leads to a source file inside a workspace. -/
def leadsToSource (policy : MirrorPolicy) (root path : Path) : Bool := (path.relativeTo? root).any policy.isSource

/-- A path that is given to a workspace: a relative one starts at its root. -/
def candidate (root path : Path) : Path := if path.isAbsolute then path else root / path

/-- A path that leads out of a workspace, or to no source file, is refused. -/
theorem checkedRelative_eq_error (h : leadsToSource policy root (candidate root path) = false) :
    ∃ e, checkedRelative policy root path = .error e := by
  unfold leadsToSource candidate at h
  unfold checkedRelative
  dsimp only
  split
  · exact ⟨_, rfl⟩
  · rename_i relative hr
    rw [hr] at h
    have hno : policy.isSource relative = false := h
    rw [hno, if_neg Bool.false_ne_true]
    exact ⟨_, rfl⟩

/-- What a path that leads out of a workspace, or neither to a source file nor to a directory, stands for: it is
refused. -/
theorem createdSources_refuses {d : Disk} (h : leadsToSource policy root (candidate root path) = false)
    (hd : d.files.stat path = .ok .directory → path.isInside root = false) :
    Reaches (createdSources policy root path) d (fun _ _ => False) fun f d' => d' = d ∧ ∃ e, f = .copy e := by
  obtain ⟨e, hrefused⟩ := checkedRelative_eq_error h
  unfold createdSources
  rw [reaches_bind, DiskWork.reaches_telling]
  refine (FileWork.reaches_holds path _ d.files).mono (fun there files ⟨hsame, hthere⟩ => ?_)
    fun e files ⟨hsame, f, hf⟩ => ?_
  · subst hsame
    cases there with
    | true =>
        obtain ⟨n, hn, hdirectory⟩ := hthere rfl
        have hn : d.files.stat path = .ok .directory := by
          cases n <;> first | exact hn | cases hdirectory
        rw [if_pos rfl, hd hn, if_neg Bool.false_ne_true]
        exact ⟨rfl, _, rfl⟩
    | false =>
        rw [if_neg Bool.false_ne_true, hrefused]
        exact ⟨rfl, _, rfl⟩
  · subst hsame hf
    exact ⟨rfl, _, rfl⟩

/-- A call that is refused leaves the files and what is known of the mirrors as they are. -/
def Refuses {α : Type} (l : Loop ServerState Operation) (r : Except Failure α) (l' : Loop ServerState Operation) :
    Prop :=
  (∃ e, r = .error (.copy e)) ∧ l'.state.disk = l.state.disk ∧ l'.state.indexes = l.state.indexes

/-- The text of a document that is not mirrored is refused at once. -/
theorem start_refuses (hw : l.state.workspaces[id]? = some w) (hm : w.mirror = some m)
    (h : leadsToSource l.state.policy w.root (candidate w.root path) = false) (content : ByteArray) :
    (DocumentWrite.start id path content).Reaches l (fun _ _ => False) (Refuses l) := by
  have hreturns : (workspace? id).returns l = some w := hw
  obtain ⟨e, hrefused⟩ := checkedRelative_eq_error h
  have hpolicy : checkedRelative ((workspace? id).leaves l).state.policy w.root path = .error e := hrefused
  unfold DocumentWrite.start withWorkspace
  rw [Act.reaches_bind, hreturns]
  dsimp only
  rw [hm]
  dsimp only
  rw [Act.reaches_bind, Act.returns_state, hpolicy]
  exact ⟨⟨e, rfl⟩, rfl, rfl⟩

/-- A created path that is not mirrored is refused when its turn comes. -/
theorem copy_refuses (hw : l.state.workspaces[id]? = some w)
    (h : leadsToSource l.state.policy w.root (candidate w.root path) = false)
    (hd : l.state.disk.files.stat path = .ok .directory → path.isInside w.root = false) (m : Mirror) :
    (CreatedCopy.copy id m path).Reaches l (fun _ _ => False) (Refuses l) := by
  have hreturns : (workspace? id).returns l = some w := hw
  unfold CreatedCopy.copy withWorkspace
  rw [Act.reaches_bind, hreturns]
  dsimp only
  rw [Act.reaches_bind, reaches_onDisk]
  unfold copyCreated
  rw [reaches_bind]
  refine (createdSources_refuses h hd).mono (fun _ _ h => h.elim) fun f d ⟨hsame, e, hf⟩ => ?_
  subst hsame hf
  show (DocumentWrite.finish id (.error (.copy e)) : ServerAct (Step CreatedCopy (List MirrorEntry))).Reaches l _ _
  unfold DocumentWrite.finish
  rw [Act.reaches_bind, Act.reaches_ends, Act.leaves_unlock]
  exact ⟨⟨e, rfl⟩, rfl, rfl⟩

/-- Documents that are not mirrored are passed over. -/
theorem overlays_filter (policy : MirrorPolicy) (root : Path) (documents : List (Path × ByteArray)) :
    overlays policy root (documents.filter fun x => leadsToSource policy root x.1) =
      overlays policy root documents := by
  unfold overlays
  rw [List.filterMap_filter]
  refine List.filterMap_congr fun (path, content) _ => ?_
  unfold leadsToSource
  dsimp only
  cases path.relativeTo? root with
  | none => rfl
  | some relative => cases hs : policy.isSource relative <;> simp [hs]

/-- Writing documents over a mirror comes to the same without those that are not mirrored. -/
theorem run_overlayAll_filter (hw : l.state.workspaces[id]? = some w) (documents : List (Path × ByteArray)) :
    (Waiting.overlayAll (documents.filter fun x => leadsToSource l.state.policy w.root x.1) id).run l =
      (Waiting.overlayAll documents id).run l := by
  have hreturns : (workspace? id).returns l = some w := hw
  have hstate : (Act.state : ServerAct ServerState).returns ((workspace? id).leaves l) = l.state := rfl
  unfold Waiting.overlayAll withWorkspace
  rw [Act.run_eq, Act.run_eq, Act.returns_bind, Act.leaves_bind, Act.returns_bind, Act.leaves_bind, hreturns]
  dsimp only
  rw [Act.returns_bind, Act.leaves_bind, Act.returns_bind, Act.leaves_bind, hstate, overlays_filter]

/-- How a workspace deals with paths that are not mirrored. -/
structure Refusing (l : Loop ServerState Operation) (id : WorkspaceId) (w : Workspace) : Prop where
  /-- The text of a document. -/
  text : ∀ m, w.mirror = some m → ∀ path, leadsToSource l.state.policy w.root (candidate w.root path) = false →
    ∀ content, (DocumentWrite.start id path content).Reaches l (fun _ _ => False) (Refuses l)
  /-- A created path that is no directory inside. -/
  created : ∀ path, leadsToSource l.state.policy w.root (candidate w.root path) = false →
    (l.state.disk.files.stat path = .ok .directory → path.isInside w.root = false) →
    ∀ m, (CreatedCopy.copy id m path).Reaches l (fun _ _ => False) (Refuses l)
  /-- Documents that are written over a mirror. -/
  overlay : ∀ documents,
    (Waiting.overlayAll (documents.filter fun x => leadsToSource l.state.policy w.root x.1) id).run l =
      (Waiting.overlayAll documents id).run l

theorem refusing (hw : l.state.workspaces[id]? = some w) : Refusing l id w :=
  ⟨fun _ hm _ h content => start_refuses hw hm h content, fun _ h hd m => copy_refuses hw h hd m,
    fun documents => run_overlayAll_filter hw documents⟩

end Mirror

/-! ## Mirrors -/

/-- A server that has made no mirrors yet, on a machine on which no link bears the name of what is compiled
from one. -/
structure ServerState.HasNoMirrors (s : ServerState) : Prop where
  workspaces : ∀ w ∈ s.workspaces, w.mirror = none
  indexes : s.indexes.keys = []
  scratches : s.disk.scratches = 0
  tree : s.disk.files.IsTree
  noLinks : ∀ directory k target, s.disk.files.node? (directory ++ [Mirror.outputName k]) ≠ some (.link target)

namespace Mirror

variable {s : ServerState} {server : Server}

theorem isAsked_of_hasNoMirrors (h : s.HasNoMirrors) : IsAsked (Session.ofState s) := by
  refine ⟨⟨⟨h.tree, h.noLinks, fun hm => absurd h.scratches hm⟩, fun w hw m hm => ?_, fun path hp => ?_⟩,
    fun _ _ hm => absurd hm List.not_mem_nil, rfl, rfl⟩
  · cases (h.workspaces w hw).symm.trans hm
  · have hp : path ∈ s.indexes.keys := hp
    rw [h.indexes] at hp
    cases hp

/-- Mirrors are kept apart. Whatever the server does touches files by the effects that mirrors allow; its
mirrors stand in the place for mirrors, and below them there are source files only; and what leads out of a
workspace, or to no source file, is refused or passed over. -/
theorem mirrors_are_kept_apart (h : s.HasNoMirrors)
    (hr : Relation.ReflTransGen HappensAsked (Session.ofState s) server) :
    (∀ move, Undisturbed server move → ¬IsByOthers move →
      FileSystem.Effects server.state.policy (server.advance serverMachine Wish.act move).state.disk.scratches
        server.state.disk.files (server.advance serverMachine Wish.act move).state.disk.files) ∧
    (∀ path ∈ server.state.indexes.keys, ∃ k, 0 < k ∧ k ≤ server.state.disk.scratches ∧
      path = server.state.policy.tempRoot.child (scratchName k)) ∧
    (∀ k, 0 < k → k ≤ server.state.disk.scratches → ∃ home,
      server.state.disk.files.Way FileSystem.maxLinks [] server.state.policy.tempRoot.segments home ∧
      ∀ names content, server.state.disk.files.node? (placeOf home k ++ names) = some (.file content) →
        ∃ relative : Path, relative.IsInner ∧ relative.segments = names ∧
          server.state.policy.isSource relative) ∧
    ∀ task id w, server.state.workspaces[id]? = some w → Refusing { server.loop with current := task } id w := by
  have hasked := (isAsked_of_hasNoMirrors h).runs hr
  refine ⟨fun move hm hothers => ((hasked.move hm).2 hothers).effects, hasked.knows.indexed, fun k h0 hk => ?_,
    fun task id w hw => refusing hw⟩
  obtain ⟨home, hshelters⟩ := hasked.knows.tidy.shelters (Nat.ne_of_gt (Nat.lt_of_lt_of_le h0 hk))
  refine ⟨home, hshelters.way, fun names content hn => ?_⟩
  have hholds := hshelters.holds k h0 hk names
  rw [hn] at hholds
  exact hholds

theorem hasNoMirrors_sample : (Server.sample []).HasNoMirrors := by
  refine ⟨fun _ hw => absurd hw List.not_mem_nil, rfl, rfl, FileSystem.isTree_of_all rfl (by decide),
    fun directory k target hl => ?_⟩
  have hmem := FileSystem.mem_nodes_of_node? (List.append_ne_nil_of_right_ne_nil _ (List.cons_ne_nil _ _)) hl
  simp [Server.sample] at hmem

/-- A server that has made a mirror, refused a text from outside of the workspace and taken one from inside. -/
def askedSample : Server :=
  (Session.ofState (Server.sample [])).after serverMachine Wish.act
    [.outside (.create (.ofText "/p")), .turn,
      .outside (.text (.ofText "/p") (.ofText "../q/a.ink") "One.".toUTF8), .turn,
      .outside (.text (.ofText "/p") (.ofText "a.ink") "Two.".toUTF8), .turn]

theorem happens_after {moves : List (Session.Move Wish)} (h : ∀ move ∈ moves, ∀ s, Undisturbed s move) (s : Server) :
    Relation.ReflTransGen HappensAsked s (s.after serverMachine Wish.act moves) := by
  induction moves generalizing s with
  | nil => exact .refl
  | cons move moves ih =>
      exact .head ⟨move, h move List.mem_cons_self s, rfl⟩ (ih (fun m hm => h m (List.mem_cons_of_mem _ hm)) _)

theorem happens_askedSample : Relation.ReflTransGen HappensAsked (Session.ofState (Server.sample [])) askedSample := by
  refine happens_after (fun move hm s => ?_) _
  simp only [List.mem_cons, List.not_mem_nil, or_false] at hm
  rcases hm with rfl | rfl | rfl | rfl | rfl | rfl
  all_goals first | exact .turn | exact .asks rfl

/-- The mirror of the sample holds the text from inside, and no file that is not a source file. -/
theorem sample_mirror_is_kept_apart :
    (Server.sample []).HasNoMirrors ∧
      Relation.ReflTransGen HappensAsked (Session.ofState (Server.sample [])) askedSample ∧
      askedSample.ended.map (fun e => e.2.isOk) = [true, false, true] ∧
      (Mirror.mk (.ofText "/m/inkls-1")).content? askedSample.state.disk.files (.ofText "a.ink") = some "Two.".toUTF8 ∧
      ∃ home, askedSample.state.disk.files.Way FileSystem.maxLinks [] askedSample.state.policy.tempRoot.segments home ∧
        ∀ names content, askedSample.state.disk.files.node? (placeOf home 1 ++ names) = some (.file content) →
          ∃ relative : Path, relative.IsInner ∧ relative.segments = names ∧
            askedSample.state.policy.isSource relative := by
  obtain ⟨hended, hfile, hscratches⟩ : askedSample.ended.map (fun e => e.2.isOk) = [true, false, true] ∧
      (Mirror.mk (.ofText "/m/inkls-1")).content? askedSample.state.disk.files (.ofText "a.ink") = some "Two.".toUTF8 ∧
      1 ≤ askedSample.state.disk.scratches := by
    refine ⟨?_, ?_, ?_⟩ <;> decide +kernel
  exact ⟨hasNoMirrors_sample, happens_askedSample, hended, hfile,
    (mirrors_are_kept_apart hasNoMirrors_sample happens_askedSample).2.2.1 1 Nat.one_pos hscratches⟩

end Mirror

end InkServer
