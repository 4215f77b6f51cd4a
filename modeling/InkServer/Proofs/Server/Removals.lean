import InkServer.Proofs.Server.Mirrors
import InkServer.Workspace.Removal

/-!
# How workspaces are removed

Taking a workspace out, clearing what was published for it, and deleting its mirror, followed step by step.
The workspace whose mirror a removal deletes is gone for good.
-/

namespace InkServer

open ServerState ServerAct

variable {l : Loop ServerState Operation}

/-! ## Publishing -/

theorem leaves_publish (uri : String) (diagnostics : List Diagnostic) (l : Loop ServerState Operation) :
    (publish uri diagnostics).leaves l = { l with state := l.state.publishing uri diagnostics } := by
  unfold publish publishing
  rw [Act.leaves_bind, Act.leaves_state, Act.returns_state]
  cases hp : l.state.publisher with
  | none => simp only [hp, note, Act.leaves_modifyState]
  | some p =>
      dsimp only
      rcases p.publish l.state.documents uri diagnostics with ⟨publication?, p'⟩
      cases publication? with
      | none => simp
      | some publication => rfl

theorem leaves_publishAll (lists : List (String × List Diagnostic)) (l : Loop ServerState Operation) :
    (lists.forM fun x => publish x.1 x.2).leaves l = { l with state := l.state.publishingAll lists } := by
  induction lists generalizing l with
  | nil => rfl
  | cons x rest ih =>
      show ((publish x.1 x.2 >>= fun _ => rest.forM fun x => publish x.1 x.2)).leaves l = _
      rw [Act.leaves_bind, leaves_publish, ih]
      rfl

theorem leaves_clearAll (uris : List String) (l : Loop ServerState Operation) :
    (Removal.clearAll uris).leaves l = { l with state := l.state.publishingAll (empties uris) } := by
  rw [← leaves_publishAll]
  unfold Removal.clearAll empties
  generalize Removal.sorted uris = sorted
  induction sorted generalizing l with
  | nil => rfl
  | cons uri rest ih =>
      show (publish uri [] >>= fun _ => rest.forM fun uri => publish uri []).leaves l = _
      rw [Act.leaves_bind, ih]
      rfl

/-! ## Removing one workspace -/

namespace Removal

/-- What a removal that waits was given. -/
def Fits (state : Removal) (s : ServerState) : Prop :=
  state.mirror.IsMade s.policy s.disk ∧ s.Gone state.id

theorem Fits.later {state : Removal} {s s' : ServerState} (h : state.Fits s) (hl : s.Later s') :
    state.Fits s' := ⟨h.1.later hl, hl.gone _ h.2⟩

theorem proceeds_deleteMirror {id : WorkspaceId} {m : Mirror} (hm : m.IsMade l.state.policy l.state.disk)
    (hg : l.state.Gone id) : Proceeds (deleteMirror id m) l fun _ _ => True := by
  unfold deleteMirror
  refine (Initialization.proceeds_delete hm).bind fun _ l₁ hl _ => ?_
  exact proceeds_updateWorkspace fun _ _ => .drops (hl.later.gone _ hg)

theorem leaves_unregister (uri : String) (l : Loop ServerState Operation) :
    (unregister uri).leaves l =
      { l with state := { l.state with registered := l.state.registered.erase uri } } := rfl

/-- A workspace that is taken out was there. -/
theorem proceeds_unregister {α : Type} {uri : String} {f : Option WorkspaceId → ServerAct α}
    {post : α → ServerState → Prop} (hn : Proceeds (f none) l post)
    (hf : ∀ id w, l.state.registered.get? uri = some id → l.state.workspaces[id]? = some w →
      ProceedsFrom l.state (f (some id))
        { l with state := { l.state with registered := l.state.registered.erase uri } } post) :
    Proceeds (unregister uri >>= f) l post := by
  refine .of_sound fun hs => proceedsFrom_self.mp (ProceedsFrom.after (leaves_unregister uri l) ?_)
  show ProceedsFrom l.state (f (l.state.registered.get? uri)) _ post
  cases hr : l.state.registered.get? uri with
  | none =>
      rw [Dict.erase_of_get?_eq_none hr]
      exact hn
  | some id =>
      obtain ⟨w, hw, _⟩ := hs.keyed uri id hr
      exact hf id w hr hw

theorem proceeds_start (uri : String) : Proceeds (start uri) l (Waits Fits) := by
  refine .of_sound fun hs => proceeds_unregister .ends fun id w hr hw => .updated hw ?_
  have hset := List.getElem?_set_self (l := l.state.workspaces)
    (a := { w.enter .removed with initializations := w.initializations + 1 })
    (List.getElem?_eq_some_iff.mp hw).1
  refine proceedsFrom_withWorkspace hset ?_
  have hclear := congrArg (fun s => { l with state := s }) (publishingAll_with l.state
    (l.state.workspaces.set id { w.enter .removed with initializations := w.initializations + 1 })
    (l.state.registered.erase uri) (empties w.published))
  refine .after ((leaves_clearAll _ _).trans hclear) (.updated hset ?_)
  dsimp only
  rw [List.set_set]
  have hremoves : Leads l.state _ := .single (.removes hr hw)
  have hgone := hs.gone_erase hr hremoves.later.length rfl
  refine .after rfl (Proceeds.from hremoves ?_)
  split
  · rename_i m hm
    have hmade := (hs.made w (List.mem_of_getElem? hw) m hm).later hremoves.later
    exact .through ⟨hmade, hgone⟩ ((proceeds_deleteMirror hmade hgone).bind fun _ _ _ _ => .ends)
  · exact .ends

theorem proceeds_resume {state : Removal} (h : state.Fits l.state) (signal : Signal) :
    Proceeds (resume state signal) l (Waits Fits) := by
  unfold resume
  split
  · exact (proceeds_deleteMirror h.1 h.2).bind fun _ _ _ _ => .ends
  · exact .ends

end Removal

/-! ## Removing all workspaces -/

namespace Shutdown

/-- What a shutdown that waits was given. -/
def Fits (state : Shutdown) (s : ServerState) : Prop :=
  state.mirror.IsMade s.policy s.disk ∧ s.Gone state.id

theorem Fits.later {state : Shutdown} {s s' : ServerState} (h : state.Fits s) (hl : s.Later s') :
    state.Fits s' := ⟨h.1.later hl, hl.gone _ h.2⟩

theorem proceeds_removeAll (uris : List String) : Proceeds (removeAll uris) l (Waits Fits) := by
  induction uris generalizing l with
  | nil => exact .ends
  | cons uri rest ih =>
      refine .of_sound fun hs => Removal.proceeds_unregister .ends fun id w hr hw => .updated hw ?_
      have hset := List.getElem?_set_self (l := l.state.workspaces) (a := w.enter .removed)
        (List.getElem?_eq_some_iff.mp hw).1
      have hdismisses : Leads l.state { l.state with
          workspaces := l.state.workspaces.set id (w.enter .removed)
          registered := l.state.registered.erase uri } := by
        have h := Change.dismisses hr hw
        rw [moved_nil] at h
        exact .single h
      have hgone := hs.gone_erase hr hdismisses.later.length rfl
      refine Proceeds.from hdismisses ?_
      rw [proceeds_workspace?]
      dsimp only
      rw [hset]
      dsimp only [Option.bind_some]
      split
      · rename_i m hm
        have hmade := (hs.made w (List.mem_of_getElem? hw) m hm).later hdismisses.later
        rw [proceeds_isClosed]
        split
        · exact proceeds_waitAt ⟨hmade, hgone⟩
        · refine Proceeds.bind (Removal.proceeds_deleteMirror ?_ ?_) fun _ _ _ _ => ih
          · exact hmade
          · exact hgone
      · exact ih

theorem proceeds_start : Proceeds start l (Waits Fits) := by
  unfold start
  rw [proceeds_state]
  exact proceeds_removeAll _

theorem proceeds_resume {state : Shutdown} (h : state.Fits l.state) (signal : Signal) :
    Proceeds (resume state signal) l (Waits Fits) := by
  unfold resume
  split
  · exact (Removal.proceeds_deleteMirror h.1 h.2).bind fun _ _ _ _ => proceeds_removeAll _
  · exact .ends

end Shutdown

end InkServer
