import InkServer.Proofs.Mirror.Tending

/-!
# Mirrors that were just made

A server that has made a mirror keeps it: the mirror holds what was copied into it, and the index says so.
-/

namespace InkServer

open Work ServerAct

namespace Mirror

variable {root : Path} {l : Loop ServerState Operation}

/-- A server that was asked to make a mirror of a directory and nothing else. -/
def madeFrom (s : ServerState) (root : Path) : Server :=
  ((Session.ofState s : Server).launch (.createMirror root)).2.advance serverMachine (Demand.act root) .turn

/-- What is copied into a new mirror is kept on record. -/
def copiedFrom (s : ServerState) (root : Path) : List (Path × ByteArray) :=
  contentsOf ((madeFrom s root).state.disk.history.drop s.disk.history.length)

theorem reaches_makeMirror {τ α : Type} {f : Except Failure Mirror → ServerAct (Step τ α)}
    {waits : τ → Loop ServerState Operation → Prop}
    {ends : Except Failure α → Loop ServerState Operation → Prop} :
    (Initialization.makeMirror root >>= f).Reaches l waits ends ↔
      Reaches (Mirror.create l.state.policy root) l.state.disk
        (fun (m, index) disk => (f (.ok m)).Reaches
          { l with state := { l.state with disk, indexes := l.state.indexes.insert m.path index } } waits ends)
        fun e disk => (f (.error e)).Reaches { l with state := { l.state with disk } } waits ends := by
  rw [Act.reaches_bind]
  unfold Initialization.makeMirror Reaches
  simp only [Act.returns_bind, Act.leaves_bind, Act.returns_state, Act.leaves_state, returns_onDisk, leaves_onDisk]
  cases returns (Mirror.create l.state.policy root) l.state.disk <;> rfl

/-- Keeping a mirror that was just made. -/
theorem reaches_createMirror (hc : l.state.disk.files.IsClosed) :
    (Waiting.createMirror root).Reaches l (fun _ _ => False) fun r l' =>
      l'.created = l.created ∧ l'.gatherings = l.gatherings ∧
      ∀ m index, r = .ok (.created m index) → ∃ base contents,
        l'.state.registered.get? root.text = some l.state.workspaces.length ∧
        (∃ w, l'.state.workspaces[l.state.workspaces.length]? = some w ∧ w.root = root ∧ w.mirror = some m) ∧
        (∃ d, m.Fills base d contents l'.state.disk ∧ d.history = l.state.disk.history) ∧
        (l'.state.indexOf m).Tells contents := by
  unfold Waiting.createMirror
  rw [reaches_makeMirror]
  refine (create_fills hc root).mono (fun (m, index) disk ⟨base, d, contents, hfill, htells, hd⟩ => ?_)
    fun f disk _ => ?_
  · dsimp only
    rw [Act.reaches_bind]
    refine ⟨rfl, rfl, fun m' index' he => ?_⟩
    cases he
    refine ⟨base, contents, Dict.get?_insert_self _ _ _, ?_, ⟨d, hfill, hd⟩, ?_⟩
    · show ∃ w, (l.state.workspaces ++ [_])[l.state.workspaces.length]? = some w ∧ _
      rw [List.getElem?_concat_length]
      exact ⟨_, rfl, rfl, rfl⟩
    · show (((l.state.indexes.insert m.path index).get? m.path).getD {}).Tells contents
      rw [Dict.get?_insert_self]
      exact htells
  · exact ⟨rfl, rfl, fun m index he => by cases he⟩

/-- A server that has made a mirror keeps it with what was copied into it. -/
theorem isKept_of_madeFrom {s : ServerState} (hc : s.disk.files.IsClosed) {m : Mirror} {index : Index}
    (h : (madeFrom s root).result? 0 = some (.ok (.created m index))) :
    ∃ base, IsKept root s.workspaces.length m base (copiedFrom s root) (madeFrom s root) := by
  let launched : Server :=
    { loop := { state := s, nextTask := 1 }, tasks := [(0, .created (.createMirror root))] }
  have hrun : madeFrom s root = launched.run serverMachine 0 .go := rfl
  revert h
  unfold copiedFrom
  rw [hrun]
  refine Session.run_of_reaches
    (p := fun s' : Server => s'.result? 0 = some (.ok (.created m index)) →
      ∃ base, IsKept root s.workspaces.length m base
        (contentsOf (s'.state.disk.history.drop s.disk.history.length)) s') (s := launched) rfl ?_
  show Act.Reaches (Act.through "create" (.creatingMirror root) (Waiting.createMirror root)) _ _ _
  unfold Act.through
  rw [Act.reaches_bind, Act.reaches_ite]
  refine ⟨nofun, fun _ => (reaches_createMirror hc).mono (fun _ _ h => h.elim) ?_⟩
  intro r l' ⟨hcreated, hgatherings, hkept⟩ hresult
  rw [Session.wentOn_ends hcreated hgatherings] at hresult ⊢
  cases Option.some.inj hresult
  obtain ⟨base, contents, hregistered, hworkspace, ⟨d, hfill, hd⟩, htells⟩ := hkept m index rfl
  have hcontents : contentsOf (l'.state.disk.history.drop s.disk.history.length) = contents := by
    have hd : d.history = s.disk.history := hd
    rw [hfill.history, hd, List.drop_left, contentsOf_written]
  refine ⟨base, hregistered, hworkspace, rfl, hcreated, hgatherings, hfill.standsAt, ?_, ?_, ?_⟩
  · exact fun w hw => hfill.inner w (hcontents ▸ hw)
  · intro relative content hl
    have hl : latest relative contents = some content := hcontents ▸ hl
    refine hfill.holds relative content (hfill.inner _ (mem_of_latest hl)) ?_
    rw [hl]
    rfl
  · exact hcontents.symm ▸ htells

end Mirror

end InkServer
