import InkServer.Proofs.Workspace.Custody

/-!
# Keeping books

What an operation that waits is in charge of is its duty: to bring a workspace a new mirror, or to clear one away.
What is said of mirrors by way of all duties is kept by everything that operations do, if it is kept by the few
things that they do with mirrors. Custody is kept in this way.
-/

namespace InkServer

open ServerState

/-- What one operation that waits is in charge of. -/
abbrev Duty := List Charge

namespace Duty

/-- A new mirror is to become that of a workspace, which is there. -/
abbrev bringing (id : WorkspaceId) (m : Mirror) : Duty := [.scratch m, .serving id]

/-- A mirror that no workspace has is to be deleted. -/
abbrev clearing (m : Mirror) : Duty := [.scratch m]

/-- The mirror of a workspace that was removed is to be deleted. -/
abbrev leaving (id : WorkspaceId) (m : Mirror) : Duty := [.leaving id m]

end Duty

/-- What is kept by everything that operations do with mirrors, however they share their duties. -/
structure Keeping (books : List Duty → ServerState → Prop) : Prop where
  perm {held held' : List Duty} {s : ServerState} : books held s → held.Perm held' → books held' s
  idle {held : List Duty} {s : ServerState} : books ([] :: held) s ↔ books held s
  standsBy {held : List Duty} {l l' : Loop ServerState Operation} :
    StandsBy l l' → books held l.state → books held l'.state
  registers {held : List Duty} {s : ServerState} {folder : Folder} {w : Workspace} : books held s →
    Workspace.ofFolder folder = .ok w → s.registered.get? folder.uri = none →
    books held { s with
      workspaces := s.workspaces ++ [w]
      registered := s.registered.insert folder.uri s.workspaces.length }
  /-- A mirror is made for a workspace. -/
  makes {held : List Duty} {s : ServerState} {id : WorkspaceId} {m : Mirror} {disk : Disk} : books held s →
    id < s.workspaces.length → s.disk.Grows s.policy disk m → books (.bringing id m :: held) { s with disk }
  /-- A new mirror will be no workspace's. -/
  discards {held : List Duty} {s : ServerState} {id : WorkspaceId} {m : Mirror} :
    books (.bringing id m :: held) s → books (.clearing m :: held) s
  /-- A workspace that is to get a mirror stays there. -/
  known {held : List Duty} {s : ServerState} {id : WorkspaceId} {m : Mirror} :
    books (.bringing id m :: held) s → s.workspaces[id]? = none → books held s
  installs {held : List Duty} {s : ServerState} {id : WorkspaceId} {m : Mirror} {w : Workspace}
    {f : Workspace → Workspace} : books (.bringing id m :: held) s → s.workspaces[id]? = some w →
    w.state ≠ .removed → (f w).uri = w.uri → (f w).mirror = some m →
    (∀ w, w.state ≠ .removed → (f w).state ≠ .removed) →
    books ((w.mirror.filter (· ≠ m)).toList.map .clearing ++ held)
      { s with workspaces := s.workspaces.modify id f }
  deletes {held : List Duty} {s : ServerState} {m : Mirror} : books (.clearing m :: held) s →
    books held { s with disk := (m.delete.run s.disk).2 }
  /-- A workspace is taken out, and its mirror is to be deleted. -/
  removes {held : List Duty} {s : ServerState} {uri : String} {id : WorkspaceId} {f : Workspace → Workspace} :
    books held s → s.registered.get? uri = some id → (∀ w, (f w).uri = w.uri ∧ (f w).mirror = w.mirror) →
    books ((s.workspaces[id]?.bind (·.mirror)).toList.map (.leaving id) ++ held)
      { s with workspaces := s.workspaces.modify id f, registered := s.registered.erase uri }
  drops {held : List Duty} {s : ServerState} {id : WorkspaceId} {m : Mirror} : books (.leaving id m :: held) s →
    books held { s with
      disk := (m.delete.run s.disk).2
      workspaces := s.workspaces.modify id fun w => { w with mirror := none } }

namespace Keeping

variable {books : List Duty → ServerState → Prop} {held new : List Duty} {s : ServerState}

/-- Any number of operations that are in charge of nothing. -/
theorem idle_append (k : Keeping books) (hn : ∀ d ∈ new, d = []) : books (new ++ held) s ↔ books held s := by
  induction new with
  | nil => exact Iff.rfl
  | cons d rest ih =>
      rw [List.cons_append, hn d List.mem_cons_self, k.idle]
      exact ih fun d hd => hn d (List.mem_cons_of_mem _ hd)

end Keeping

namespace ServerState

/-- A new mirror is nobody's yet, so that every previous one is another. -/
theorem Books.installs_bringing {s : ServerState} {charges : List Charge} {id : WorkspaceId} {m : Mirror}
    {w : Workspace} {f : Workspace → Workspace} (h : s.Books (.scratch m :: charges)) (hw : s.workspaces[id]? = some w)
    (hr : w.state ≠ .removed) (hu : (f w).uri = w.uri) (hm : (f w).mirror = some m)
    (hf : ∀ w, w.state ≠ .removed → (f w).state ≠ .removed) :
    ({ s with workspaces := s.workspaces.modify id f } : ServerState).Books
      ((w.mirror.filter (· ≠ m)).toList.map .scratch ++ charges) := by
  by_cases hsame : w.mirror = some m
  · refine .inl ((h.resolve_right fun hc => ?_).modify hf)
    exact hc.alone id m ⟨w, hw, hsame⟩ List.mem_cons_self
  · have hother : w.mirror.filter (· ≠ m) = w.mirror := by
      cases hprevious : w.mirror with
      | none => rfl
      | some previous =>
          have hne : previous ≠ m := fun he => hsame (he ▸ hprevious)
          exact Option.filter_some_pos (by simpa using hne)
    rw [hother]
    exact h.installs hw hr hu hm hf

/-- No mirror is forgotten by what operations do. -/
theorem keeping_books : Keeping fun held s => s.Books held.flatten where
  perm h hp := h.perm hp.flatten
  idle := Iff.rfl
  standsBy hs h := hs.books h
  registers h hf hr := h.registers hf hr
  makes h hid hd := (h.serves hid).makes hd
  discards h := (h.perm (.swap _ _ _)).served
  known h hnone := h.imp_right fun hc => by
    have hid := hc.serving _ (List.mem_cons_of_mem _ List.mem_cons_self)
    rw [List.getElem?_eq_getElem hid] at hnone
    cases hnone
  installs {held s id m w f} h hw hr hu hm hf := by
    have hinstalls := Books.installs_bringing ((h.perm (.swap _ _ _)).served) hw hr hu hm hf
    rw [List.flatten_append]
    cases hprevious : w.mirror.filter (· ≠ m) with
    | none => rwa [hprevious] at hinstalls
    | some previous => rwa [hprevious] at hinstalls
  deletes h := h.deletes
  removes {held s uri id f} h hr hf := by
    have hremoves := h.removes hr hf
    rw [List.flatten_append]
    cases hmirror : s.workspaces[id]?.bind (·.mirror) with
    | none => rwa [hmirror] at hremoves
    | some m => rwa [hmirror] at hremoves
  drops h := h.drops

end ServerState

end InkServer
