import InkServer.Proofs.Mirror.Changes
import InkServer.Workspace.Delivery

/-!
# What the server does to its state

Whatever operations do between two waits, they do it in few kinds of steps: work on the disk, documents
that are taken in, workspaces that come and go, and the turns that one workspace takes. Each step carries
the condition under which it is taken. What all of them keep is kept by every operation.
-/

namespace InkServer

/-! ## Publishing -/

namespace ServerState

/-- The state after diagnostics were handed to whoever publishes them. -/
def publishing (s : ServerState) (uri : String) (diagnostics : List Diagnostic) : ServerState :=
  match s.publisher with
  | none => { s with events := s.events ++ [.handed uri diagnostics] }
  | some p =>
    let (publication?, p) := p.publish s.documents uri diagnostics
    { s with
      publisher := some p
      events := s.events ++ (publication?.map Event.published).toList }

/-- The state after lists of diagnostics were handed over one after the other. -/
def publishingAll (s : ServerState) (lists : List (String × List Diagnostic)) : ServerState :=
  lists.foldl (fun s l => s.publishing l.1 l.2) s

/-- The state after a workspace has taken a turn: what it became, what was published, and what is kept on
record of it. -/
def moved (s : ServerState) (id : WorkspaceId) (w : Workspace) (lists : List (String × List Diagnostic))
    (record : List Event) : ServerState :=
  let t := s.publishingAll lists
  { t with workspaces := s.workspaces.set id w, events := t.events ++ record }

/-- The lists that take away what was published for documents. -/
def empties (uris : List String) : List (String × List Diagnostic) :=
  (Removal.sorted uris).map fun uri => (uri, [])

/-- The lists that take the place of what was published for a workspace. -/
def replacements (w : Workspace) (diagnostics : List AddressedDiagnostic) :
    List (String × List Diagnostic) :=
  empties (w.published.filter fun uri => !(groupByUri diagnostics).contains uri) ++
    (groupByUri diagnostics).entries

/-- A workspace that was there and is no longer registered under any URI. -/
structure Gone (s : ServerState) (id : WorkspaceId) : Prop where
  known : id < s.workspaces.length
  unregistered : ∀ uri, s.registered.get? uri ≠ some id

end ServerState

/-! ## Steps -/

/-- A turn that a workspace takes: what becomes of it, what is published, and what is kept on record. -/
inductive Workspace.Turn (s : ServerState) (id : WorkspaceId) (w : Workspace) :
    Workspace → List (String × List Diagnostic) → List Event → Prop where
  /-- The lock of the mirror changes hands. -/
  | writes (lock : Lock) : Turn s id w { w with writing := lock } [] []
  /-- The lock of the compiler changes hands. -/
  | queues (lock : Lock) : Turn s id w { w with scheduler := { w.scheduler with lock } } [] []
  | engages (request : CompileRequest) :
      Turn s id w { w with scheduler := { w.scheduler with inFlight := some request } } [] []
  /-- The compiler has ended, or there was no mirror to compile in. -/
  | frees (hw : w.state = .compileInFlight → w.mirror = none) :
      Turn s id w { w with scheduler := { w.scheduler with inFlight := none } } [] []
  | admits (task : TaskId) :
      Turn s id w { w with scheduler := w.scheduler.issue.2 } [] [.admitted task id w.scheduler.issue.1]
  | accepts (request : CompileRequest) :
      Turn s id w { w with scheduler := (w.scheduler.accept request).2 } [] []
  /-- The turn of a request comes, and there is no mirror to compile in. -/
  | calls {request : CompileRequest} (hr : w.scheduler.isCurrent request) (hm : w.mirror = none) :
      Turn s id w w [] [.called id request none]
  | starts {request : CompileRequest} {m : Mirror} (hr : w.scheduler.isCurrent request)
      (hm : w.mirror = some m) (hf : w.scheduler.inFlight = some request) :
      Turn s id w (w.enter .compileInFlight) []
        [.called id request (some m), .started id request]
  /-- The compiler has ended. -/
  | settles :
      Turn s id w (w.enter (if w.state = .compileInFlight then .ready else w.state)) [] []
  /-- The report of a compile is published in place of the earlier one. -/
  | delivers {request : CompileRequest} (diagnostics : List AddressedDiagnostic)
      (hr : w.scheduler.isCurrent request) (hs : .started id request ∈ s.events)
      (hw : w.state ≠ .removed) :
      Turn s id w { w with published := (groupByUri diagnostics).keys }
        (ServerState.replacements w diagnostics)
        [.delivered id request diagnostics.length]
  /-- An initialization begins. -/
  | begins (hw : w.state ≠ .removed) :
      Turn s id w { w.enter (if w.mirror.isNone then .mirrorPending else w.state) with
        initializations := w.initializations + 1 } []
        [.initializing id (w.initializations + 1) w.mirror]
  /-- The mirror that the latest initialization made takes the place of the previous one. -/
  | installs {m : Mirror} (hw : w.state ≠ .removed) (hi : 0 < w.initializations)
      (hm : m.IsMade s.policy s.disk) (hc : .made id w.initializations m ∈ s.events) :
      Turn s id w { w.enter (if w.state = .compileInFlight then w.state else .ready) with
        mirror := some m } []
        [.installed id w.initializations m]
  /-- No mirror could be made, and there is none. -/
  | yields (hw : w.state ≠ .removed) (hm : ∀ m, w.mirror = some m → m.IsMissing s.disk) :
      Turn s id w (w.enter .mirrorPending) [] []
  /-- The directory of the mirror is missing. -/
  | misses {m : Mirror} (hm : w.mirror = some m) (hd : m.IsMissing s.disk)
      (hw : w.state ≠ .uninitialized) (hp : w.state ≠ .mirrorPending) :
      Turn s id w (w.enter .mirrorPending) [] [.missed id]
  /-- The mirror was deleted. -/
  | drops (hg : s.Gone id) : Turn s id w { w with mirror := none } [] []

namespace ServerState

/-- Two states that differ in nothing that concerns workspaces, documents and what was published. -/
structure Alike (s t : ServerState) : Prop where
  disk : t.disk = s.disk
  policy : t.policy = s.policy
  workspaces : t.workspaces = s.workspaces
  registered : t.registered = s.registered
  documents : t.documents = s.documents
  publisher : t.publisher = s.publisher
  events : t.events = s.events

/-- An event that is no part of a larger step. -/
def IsPlain : Event → Bool
  | .published _ | .handed _ _ | .admitted _ _ _ | .called _ _ _ | .started _ _ | .missed _
  | .initializing _ _ _ | .installed _ _ _ | .removed _ | .delivered _ _ _ => false
  | _ => true

/-- A plain event that tells of no mirror, so that it may be noted in any state. -/
def IsCasual : Event → Bool
  | .made _ _ _ | .superseded _ _ _ => false
  | e => IsPlain e

/-- A mirror that nobody is known to have made. -/
structure IsUnclaimed (s : ServerState) (m : Mirror) : Prop where
  isMade : m.IsMade s.policy s.disk
  unclaimed : ∀ id generation, .made id generation m ∉ s.events

/-- An initialization of a workspace has begun. -/
structure HasBegun (s : ServerState) (id : WorkspaceId) (generation : Nat) : Prop where
  positive : 0 < generation
  recorded : ∃ mirror, .initializing id generation mirror ∈ s.events

/-- An initialization has begun and is not the latest of its workspace, or that was removed. -/
structure HasOvertaken (s : ServerState) (id : WorkspaceId) (generation : Nat) : Prop where
  begun : s.HasBegun id generation
  late : ∀ w, s.workspaces[id]? = some w → generation = w.initializations → w.state = .removed

/-- One step of the server. -/
inductive Change (s : ServerState) : ServerState → Prop where
  /-- What no workspace takes part in, such as settings and the indexes of mirrors. -/
  | aside {t : ServerState} (h : s.Alike t) : Change s t
  | notes {e : Event} (h : IsPlain e)
      (hm : ∀ id generation m, e = .made id generation m → s.IsUnclaimed m := by nofun)
      (hs : ∀ id generation m, e = .superseded id generation m → s.HasOvertaken id generation := by nofun) :
      Change s { s with events := s.events ++ [e] }
  | works {disk : Disk} (h : s.disk.Change s.policy disk) : Change s { s with disk }
  | opens (task : TaskId) {document : OpenDocument} {t : TrackedDocument} {documents : Documents}
      (h : s.documents.open_ document = .ok (t, documents)) :
      Change s { s with documents, events := s.events ++ [.opened task document] }
  | receives (task : TaskId) {document : OpenDocument} {t : TrackedDocument} {documents : Documents}
      (h : s.documents.change document = .ok (t, documents)) :
      Change s { s with documents, events := s.events ++ [.received task document] }
  | closes (uri : String) : Change s { s with documents := s.documents.close uri }
  | registers {folder : Folder} {w : Workspace} (hf : Workspace.ofFolder folder = .ok w)
      (hr : s.registered.get? folder.uri = none) :
      Change s { s with
        workspaces := s.workspaces ++ [w]
        registered := s.registered.insert folder.uri s.workspaces.length }
  | turns {id : WorkspaceId} {w w' : Workspace} {lists : List (String × List Diagnostic)}
      {record : List Event} (hw : s.workspaces[id]? = some w) (h : w.Turn s id w' lists record) :
      Change s (s.moved id w' lists record)
  /-- A workspace is removed and what was published for it is taken away. -/
  | removes {uri : String} {id : WorkspaceId} {w : Workspace} (hr : s.registered.get? uri = some id)
      (hw : s.workspaces[id]? = some w) :
      Change s { s.moved id
          { w.enter .removed with initializations := w.initializations + 1, published := [] }
          (empties w.published) [.removed id] with
        registered := s.registered.erase uri }
  /-- A workspace is removed with the server. -/
  | dismisses {uri : String} {id : WorkspaceId} {w : Workspace} (hr : s.registered.get? uri = some id)
      (hw : s.workspaces[id]? = some w) :
      Change s { s.moved id (w.enter .removed) [] [] with registered := s.registered.erase uri }

/-- Nothing is asked of the state for an event that tells of no mirror. -/
theorem Change.casually {s : ServerState} {e : Event} (h : IsCasual e) :
    Change s { s with events := s.events ++ [e] } := by
  unfold IsCasual at h
  split at h
  · cases h
  · cases h
  · rename_i hmade hsuperseded
    exact .notes h (fun _ _ _ he => absurd he (hmade _ _ _)) fun _ _ _ he => absurd he (hsuperseded _ _ _)

/-- Any number of steps of the server. -/
abbrev Leads : ServerState → ServerState → Prop := Relation.ReflTransGen Change

/-! ## What publishing changes -/

variable {s s' : ServerState}

/-- An event that diagnostics were sent or handed on. -/
def IsPublication : Event → Bool
  | .published _ | .handed _ _ => true
  | _ => false

/-- Publishing is seen by whoever publishes and on record, and nowhere else. -/
theorem publishing_eq (s : ServerState) (uri : String) (diagnostics : List Diagnostic) :
    ∃ publisher record, s.publishing uri diagnostics =
      { s with publisher, events := s.events ++ record } ∧ ∀ e ∈ record, IsPublication e := by
  unfold publishing
  split
  · exact ⟨_, _, rfl, by simp [IsPublication]⟩
  · refine ⟨_, _, rfl, fun e he => ?_⟩
    obtain ⟨_, _, rfl⟩ := Option.map_eq_some_iff.mp (Option.mem_toList.mp he)
    rfl

theorem publishingAll_eq (s : ServerState) (lists : List (String × List Diagnostic)) :
    ∃ publisher record, s.publishingAll lists =
      { s with publisher, events := s.events ++ record } ∧ ∀ e ∈ record, IsPublication e := by
  induction lists generalizing s with
  | nil => exact ⟨s.publisher, [], by rw [List.append_nil]; rfl, fun _ h => absurd h List.not_mem_nil⟩
  | cons l rest ih =>
      obtain ⟨p, es, h, hes⟩ := publishing_eq s l.1 l.2
      obtain ⟨p', es', h', hes'⟩ := ih (s.publishing l.1 l.2)
      refine ⟨p', es ++ es', ?_, fun e he => (List.mem_append.mp he).elim (hes e) (hes' e)⟩
      show (s.publishing l.1 l.2).publishingAll rest = _
      rw [h', h]
      simp only [List.append_assoc]

theorem publishingAll_append (s : ServerState) (first last : List (String × List Diagnostic)) :
    s.publishingAll (first ++ last) = (s.publishingAll first).publishingAll last := List.foldl_append

theorem publishingAll_workspaces (s : ServerState) (lists : List (String × List Diagnostic)) :
    (s.publishingAll lists).workspaces = s.workspaces := by
  obtain ⟨p, es, h, _⟩ := publishingAll_eq s lists
  rw [h]

/-- Publishing takes no notice of workspaces. -/
theorem publishing_with (s : ServerState) (workspaces : List Workspace)
    (registered : Dict String WorkspaceId) (uri : String) (diagnostics : List Diagnostic) :
    ({ s with workspaces, registered } : ServerState).publishing uri diagnostics =
      { s.publishing uri diagnostics with workspaces, registered } := by
  unfold publishing
  dsimp only
  split <;> rfl

theorem publishingAll_with (s : ServerState) (workspaces : List Workspace)
    (registered : Dict String WorkspaceId) (lists : List (String × List Diagnostic)) :
    ({ s with workspaces, registered } : ServerState).publishingAll lists =
      { s.publishingAll lists with workspaces, registered } := by
  induction lists generalizing s with
  | nil => rfl
  | cons l rest ih =>
      show (({ s with workspaces, registered } : ServerState).publishing l.1 l.2).publishingAll rest = _
      rw [publishing_with, ih]
      rfl

/-- What a turn of a workspace changes. -/
theorem moved_eq (s : ServerState) (id : WorkspaceId) (w : Workspace)
    (lists : List (String × List Diagnostic)) (record : List Event) :
    ∃ publisher published, s.moved id w lists record =
      { s with
        workspaces := s.workspaces.set id w
        publisher
        events := s.events ++ (published ++ record) } ∧ ∀ e ∈ published, IsPublication e := by
  obtain ⟨p, es, h, hes⟩ := publishingAll_eq s lists
  refine ⟨p, es, ?_, hes⟩
  unfold moved
  simp only [h, List.append_assoc]

/-- A turn that publishes nothing and that nothing is kept of. -/
theorem moved_nil (s : ServerState) (id : WorkspaceId) (w : Workspace) :
    s.moved id w [] [] = { s with workspaces := s.workspaces.set id w } := by
  unfold moved
  dsimp only
  rw [List.append_nil]
  rfl

@[simp] theorem moved_policy (s : ServerState) (id : WorkspaceId) (w : Workspace)
    (lists : List (String × List Diagnostic)) (record : List Event) :
    (s.moved id w lists record).policy = s.policy := by
  obtain ⟨p, es, h, _⟩ := moved_eq s id w lists record
  rw [h]

@[simp] theorem moved_disk (s : ServerState) (id : WorkspaceId) (w : Workspace)
    (lists : List (String × List Diagnostic)) (record : List Event) :
    (s.moved id w lists record).disk = s.disk := by
  obtain ⟨p, es, h, _⟩ := moved_eq s id w lists record
  rw [h]

@[simp] theorem moved_registered (s : ServerState) (id : WorkspaceId) (w : Workspace)
    (lists : List (String × List Diagnostic)) (record : List Event) :
    (s.moved id w lists record).registered = s.registered := by
  obtain ⟨p, es, h, _⟩ := moved_eq s id w lists record
  rw [h]

@[simp] theorem moved_documents (s : ServerState) (id : WorkspaceId) (w : Workspace)
    (lists : List (String × List Diagnostic)) (record : List Event) :
    (s.moved id w lists record).documents = s.documents := by
  obtain ⟨p, es, h, _⟩ := moved_eq s id w lists record
  rw [h]

@[simp] theorem moved_workspaces (s : ServerState) (id : WorkspaceId) (w : Workspace)
    (lists : List (String × List Diagnostic)) (record : List Event) :
    (s.moved id w lists record).workspaces = s.workspaces.set id w := by
  obtain ⟨p, es, h, _⟩ := moved_eq s id w lists record
  rw [h]

theorem moved_events (s : ServerState) (id : WorkspaceId) (w : Workspace)
    (lists : List (String × List Diagnostic)) (record : List Event) :
    (s.moved id w lists record).events = (s.publishingAll lists).events ++ record := rfl

theorem prefix_publishingAll_append (s : ServerState) (lists : List (String × List Diagnostic))
    (record : List Event) : s.events <+: (s.publishingAll lists).events ++ record := by
  obtain ⟨p, es, h, _⟩ := publishingAll_eq s lists
  rw [h, List.append_assoc]
  exact List.prefix_append _ _

/-! ## What comes later -/

/-- What never goes back: mirrors and workspaces are only added, the record only grows, and a workspace that
is no longer registered will never be again. -/
structure Later (s s' : ServerState) : Prop where
  policy : s'.policy = s.policy
  scratches : s.disk.scratches ≤ s'.disk.scratches
  length : s.workspaces.length ≤ s'.workspaces.length
  events : s.events <+: s'.events
  gone : ∀ id, s.Gone id → s'.Gone id

theorem Later.refl (s : ServerState) : Later s s :=
  ⟨rfl, Nat.le_refl _, Nat.le_refl _, List.prefix_refl _, fun _ h => h⟩

theorem Later.trans {s'' : ServerState} (h : Later s s') (h' : Later s' s'') : Later s s'' :=
  ⟨h'.policy.trans h.policy, Nat.le_trans h.scratches h'.scratches, Nat.le_trans h.length h'.length,
    h.events.trans h'.events, fun id hg => h'.gone id (h.gone id hg)⟩

/-- A workspace stays gone where no workspaces go and none is registered. -/
theorem Gone.of_le {id : WorkspaceId} (hg : s.Gone id) (hl : s.workspaces.length ≤ s'.workspaces.length)
    (hr : ∀ uri, s'.registered.get? uri = some id → s.registered.get? uri = some id) : s'.Gone id :=
  ⟨Nat.lt_of_lt_of_le hg.known hl, fun uri h => hg.unregistered uri (hr uri h)⟩

/-- Taking a URI out registers nothing. -/
theorem get?_of_get?_erase {d : Dict String WorkspaceId} {uri uri' : String} {id : WorkspaceId}
    (h : (d.erase uri).get? uri' = some id) : uri ≠ uri' ∧ d.get? uri' = some id := by
  rw [Dict.get?_erase] at h
  split at h
  · cases h
  · rename_i hne
    exact ⟨hne, h⟩

/-- What only adds to the record and registers nothing. -/
theorem Later.of_eq (hp : s'.policy = s.policy) (hd : s'.disk = s.disk)
    (hl : s'.workspaces.length = s.workspaces.length) (he : s.events <+: s'.events)
    (hr : ∀ uri id, s'.registered.get? uri = some id → s.registered.get? uri = some id) : Later s s' :=
  ⟨hp, Nat.le_of_eq (by rw [hd]), Nat.le_of_eq hl.symm, he,
    fun id hg => hg.of_le (Nat.le_of_eq hl.symm) fun uri => hr uri id⟩

theorem Change.later (h : Change s s') : Later s s' := by
  cases h with
  | aside h =>
      exact .of_eq h.policy h.disk (by rw [h.workspaces]) (h.events ▸ List.prefix_refl _)
        fun _ _ hr => by rwa [h.registered] at hr
  | notes | opens | receives => exact .of_eq rfl rfl rfl (List.prefix_append _ _) fun _ _ h => h
  | works h =>
      exact ⟨rfl, h.scratches_le, Nat.le_refl _, List.prefix_refl _,
        fun _ hg => hg.of_le (Nat.le_refl _) fun _ h => h⟩
  | closes => exact .of_eq rfl rfl rfl (List.prefix_refl _) fun _ _ h => h
  | registers hf hr =>
      rename_i folder w
      have hlen : s.workspaces.length ≤ (s.workspaces ++ [w]).length := by simp
      refine ⟨rfl, Nat.le_refl _, hlen, List.prefix_refl _, fun id hg => hg.of_le hlen fun uri h => ?_⟩
      rw [Dict.get?_insert] at h
      split at h
      · -- A new identity is none that was there before.
        cases h
        exact absurd hg.known (Nat.lt_irrefl _)
      · exact h
  | turns hw h =>
      exact .of_eq (moved_policy ..) (moved_disk ..) (by simp) (prefix_publishingAll_append ..)
        fun _ _ hr => by rwa [moved_registered] at hr
  | removes hr hw =>
      rename_i uri id w
      exact .of_eq (by simp) (by simp) (by simp) (prefix_publishingAll_append ..)
        fun _ _ hr => (get?_of_get?_erase hr).2
  | dismisses hr hw =>
      rename_i uri id w
      exact .of_eq (by simp) (by simp) (by simp) (prefix_publishingAll_append s [] [])
        fun _ _ hr => (get?_of_get?_erase hr).2

theorem Leads.later (h : Leads s s') : Later s s' := by
  induction h with
  | refl => exact .refl _
  | tail _ h ih => exact ih.trans h.later

theorem HasBegun.later {id : WorkspaceId} {generation : Nat} (h : s.HasBegun id generation) (hl : s.Later s') :
    s'.HasBegun id generation := ⟨h.positive, h.recorded.imp fun _ hm => hl.events.subset hm⟩

end ServerState

theorem Mirror.IsMade.later {s s' : ServerState} {m : Mirror} (hm : m.IsMade s.policy s.disk)
    (h : s.Later s') : m.IsMade s'.policy s'.disk := by
  obtain ⟨k, h0, hk, he⟩ := hm
  exact ⟨k, h0, Nat.le_trans hk h.scratches, by rw [he, h.policy]⟩

/-! ## What is always so -/

/-- A workspace of a folder has had nothing done to it. -/
theorem Workspace.eq_of_ofFolder {folder : Folder} {w : Workspace} (h : ofFolder folder = .ok w) :
    ∃ root, Uri.toPath folder.uri = .ok root ∧
      w = { uri := folder.uri, root, name := folder.name, scheduler := { workspace := folder.uri } } := by
  unfold ofFolder at h
  cases hp : Uri.toPath folder.uri with
  | error e =>
      rw [hp] at h
      cases h
  | ok root =>
      rw [hp] at h
      cases h
      exact ⟨root, rfl, rfl⟩

namespace Workspace.Turn

variable {s : ServerState} {id : WorkspaceId} {w w' : Workspace}
  {lists : List (String × List Diagnostic)} {record : List Event}

/-- A workspace keeps its URI. -/
theorem uri_eq (h : w.Turn s id w' lists record) : w'.uri = w.uri := by
  cases h <;> rfl

/-- A workspace only ever gets a mirror that was made. -/
theorem isMade (h : w.Turn s id w' lists record)
    (hw : ∀ m, w.mirror = some m → m.IsMade s.policy s.disk) :
    ∀ m, w'.mirror = some m → m.IsMade s.policy s.disk := by
  cases h with
  | installs _ _ hm _ =>
      intro m he
      cases he
      exact hm
  | drops => exact fun m he => by cases he
  | _ => exact hw

end Workspace.Turn

namespace ServerState

/-- Workspaces and mirrors are where they belong. -/
structure Placed (s : ServerState) : Prop where
  /-- A workspace is registered under its own URI. -/
  keyed : ∀ uri id, s.registered.get? uri = some id → ∃ w, s.workspaces[id]? = some w ∧ w.uri = uri
  /-- The mirrors of workspaces were made on this disk. -/
  made : ∀ w ∈ s.workspaces, ∀ m, w.mirror = some m → m.IsMade s.policy s.disk

/-- What holds of the server at all times. -/
structure Sound (s : ServerState) : Prop extends Placed s where
  /-- Nobody has claimed a mirror that was not made. -/
  claimed : ∀ id generation m, .made id generation m ∈ s.events → m.IsMade s.policy s.disk

variable {s s' : ServerState}

/-- A step that replaces one workspace by one with the same URI keeps the others where they are. -/
theorem Placed.keyed_set (hs : s.Placed) {id : WorkspaceId} {w w' : Workspace}
    (hw : s.workspaces[id]? = some w) (hu : w'.uri = w.uri) {uri : String} {id' : WorkspaceId}
    (h : s.registered.get? uri = some id') :
    ∃ x, (s.workspaces.set id w')[id']? = some x ∧ x.uri = uri := by
  obtain ⟨x, hx, hxu⟩ := hs.keyed uri id' h
  by_cases hid : id = id'
  · subst hid
    rw [hw] at hx
    cases hx
    exact ⟨w', by rw [List.getElem?_set_self', hw]; rfl, hu.trans hxu⟩
  · exact ⟨x, by rw [List.getElem?_set_ne hid, hx], hxu⟩

/-- A step that replaces one workspace keeps the mirrors if that one's was made. -/
theorem Placed.made_set (hs : s.Placed) {id : WorkspaceId} {w' : Workspace}
    (hm : ∀ m, w'.mirror = some m → m.IsMade s.policy s.disk) :
    ∀ x ∈ s.workspaces.set id w', ∀ m, x.mirror = some m → m.IsMade s.policy s.disk := by
  intro x hx
  rcases List.mem_or_eq_of_mem_set hx with hx | rfl
  · exact hs.made x hx
  · exact hm

theorem Placed.change (hs : s.Placed) (h : Change s s') : s'.Placed := by
  have hl := h.later
  cases h with
  | aside h =>
      refine ⟨fun uri id hr => ?_, fun w hw m hm => ?_⟩
      · rw [h.registered] at hr
        rw [h.workspaces]
        exact hs.keyed uri id hr
      · rw [h.workspaces] at hw
        exact (hs.made w hw m hm).later hl
  | notes | opens | receives | closes => exact ⟨hs.keyed, hs.made⟩
  | works h => exact ⟨hs.keyed, fun w hw m hm => (hs.made w hw m hm).later hl⟩
  | registers hf hr =>
      rename_i folder w
      have hw : w.uri = folder.uri ∧ w.mirror = none := by
        obtain ⟨root, _, rfl⟩ := Workspace.eq_of_ofFolder hf
        exact ⟨rfl, rfl⟩
      refine ⟨fun uri id h => ?_, fun x hx m hm => ?_⟩
      · simp only [Dict.get?_insert] at h
        split at h
        · rename_i hu
          cases h
          exact ⟨w, by simp, by rw [hw.1, hu]⟩
        · obtain ⟨x, hx, hu⟩ := hs.keyed uri id h
          have hlt := (List.getElem?_eq_some_iff.mp hx).1
          exact ⟨x, by rw [List.getElem?_append_left hlt, hx], hu⟩
      · rcases List.mem_append.mp hx with hx | hx
        · exact hs.made x hx m hm
        · rw [List.mem_singleton.mp hx, hw.2] at hm
          cases hm
  | turns hw h =>
      refine ⟨fun uri id' hr => ?_, ?_⟩
      · rw [moved_registered] at hr
        rw [moved_workspaces]
        exact hs.keyed_set hw h.uri_eq hr
      · rw [moved_workspaces, moved_policy, moved_disk]
        exact hs.made_set (h.isMade (hs.made _ (List.mem_of_getElem? hw)))
  | removes hr hw | dismisses hr hw =>
      refine ⟨fun uri' id' hr' => ?_, ?_⟩
      · simp only [moved_workspaces]
        exact hs.keyed_set hw (by rfl) (get?_of_get?_erase hr').2
      · simp only [moved_workspaces, moved_policy, moved_disk]
        have hm := hs.made _ (List.mem_of_getElem? hw)
        exact hs.made_set hm

/-- Who made a mirror and what came too late is only ever noted by itself. -/
theorem Change.noted (h : Change s s') {e : Event} {id : WorkspaceId} {generation : Nat} {m : Mirror}
    (he : e = .made id generation m ∨ e = .superseded id generation m) (hm : e ∈ s'.events) :
    e ∈ s.events ∨ s'.events = s.events ++ [e] ∧ (e = .made id generation m → s.IsUnclaimed m) ∧
      (e = .superseded id generation m → s.HasOvertaken id generation) := by
  have hturn : ∀ {lists : List (String × List Diagnostic)} {record : List Event},
      e ∉ record → e ∈ (s.publishingAll lists).events ++ record → e ∈ s.events := by
    intro lists record hr hm
    obtain ⟨p, published, hpublished, hp⟩ := publishingAll_eq s lists
    rw [hpublished, List.append_assoc] at hm
    rcases List.mem_append.mp hm with hm | hm
    · exact hm
    · rcases List.mem_append.mp hm with hm | hm
      · have hpublication := hp e hm
        rcases he with rfl | rfl <;> cases hpublication
      · exact absurd hm hr
  cases h with
  | aside h => exact .inl (h.events ▸ hm)
  | works | closes | registers => exact .inl hm
  | notes _ hnew hlate =>
      rcases List.mem_append.mp hm with hm | hm
      · exact .inl hm
      · cases List.mem_singleton.mp hm
        exact .inr ⟨rfl, hnew id generation m, hlate id generation m⟩
  | opens | receives =>
      rcases List.mem_append.mp hm with hm | hm
      · exact .inl hm
      · rcases he with rfl | rfl <;> cases List.mem_singleton.mp hm
  | turns _ ht => exact .inl (hturn (by rcases he with rfl | rfl <;> cases ht <;> simp) hm)
  | removes | dismisses => exact .inl (hturn (by rcases he with rfl | rfl <;> simp) hm)

/-- Of a new mirror it is noted once who made it. -/
theorem Change.made (h : Change s s') {id : WorkspaceId} {generation : Nat} {m : Mirror}
    (hm : .made id generation m ∈ s'.events) :
    .made id generation m ∈ s.events ∨ s'.events = s.events ++ [.made id generation m] ∧ s.IsUnclaimed m :=
  (h.noted (.inl rfl) hm).imp_right fun ⟨he, hnew, _⟩ => ⟨he, hnew rfl⟩

/-- An initialization comes too late only if it has begun and was overtaken. -/
theorem Change.superseded (h : Change s s') {id : WorkspaceId} {generation : Nat} {m : Mirror}
    (hm : .superseded id generation m ∈ s'.events) :
    .superseded id generation m ∈ s.events ∨ s.HasOvertaken id generation :=
  (h.noted (.inr rfl) hm).imp_right fun ⟨_, _, hlate⟩ => hlate rfl

theorem Sound.change (hs : s.Sound) (h : Change s s') : s'.Sound := by
  refine ⟨hs.toPlaced.change h, fun id generation m hm => ?_⟩
  rcases h.made hm with hm | ⟨_, hm⟩
  · exact (hs.claimed id generation m hm).later h.later
  · exact hm.isMade.later h.later

theorem Sound.leads (hs : s.Sound) (h : Leads s s') : s'.Sound := by
  induction h with
  | refl => exact hs
  | tail _ h ih => exact ih.change h

/-- A workspace that is taken out was registered under no other URI. -/
theorem Placed.gone_erase (hs : s.Placed) {uri : String} {id : WorkspaceId}
    (hr : s.registered.get? uri = some id) {t : ServerState}
    (hl : s.workspaces.length ≤ t.workspaces.length) (ht : t.registered = s.registered.erase uri) :
    t.Gone id := by
  obtain ⟨w, hw, hu⟩ := hs.keyed uri id hr
  refine ⟨Nat.lt_of_lt_of_le (List.getElem?_eq_some_iff.mp hw).1 hl, fun uri' hr' => ?_⟩
  rw [ht] at hr'
  obtain ⟨hne, hr'⟩ := get?_of_get?_erase hr'
  obtain ⟨w', hw', hu'⟩ := hs.keyed uri' id hr'
  rw [hw] at hw'
  cases hw'
  exact hne (hu.symm.trans hu')

end ServerState

end InkServer
