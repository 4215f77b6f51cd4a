import InkServer.Proofs.Mirror.Calls

/-!
# Mirrors that are tended

Any number of calls bring texts of documents and created files into one mirror, side by side, while others
change whatever they like besides the mirror. The calls that have ended are kept beside the server in the
order in which they gave back the lock. What the files hold and what the index says can be read off them: the
files hold what was written last, and the index says what was recorded last.
-/

namespace InkServer

open ServerAct

namespace Mirror

/-! ## Runs -/

/-- What is asked of a server that tends a mirror, and what others do meanwhile. -/
inductive Demand where
  /-- The text of a document is to be brought into the mirror. -/
  | text (path : Path) (content : ByteArray)
  /-- What was created is to be brought into the mirror. -/
  | created (path : Path)
  /-- Others work on files, or keep everybody from writing into mirrors. -/
  | others (files : FileSystem) (writeFailure : Option String)

/-- What is done about a demand on the mirror that is kept for a directory. -/
def Demand.act (root : Path) : Demand → ServerAct Unit
  | .text path content => discard (Act.create (.writeDocument root path content))
  | .created path => discard (Act.create (.copyCreated root path))
  | .others files writeFailure =>
    Act.modifyState fun s => { s with disk := { s.disk with files, writeFailure } }

/-- Others leave a mirror alone: its path leads where it did, and below that place nothing changes. -/
structure Spares (m : Mirror) (base : Place) (fs fs' : FileSystem) : Prop where
  way : fs'.Way FileSystem.maxLinks [] m.path.segments base
  below : ∀ names, names ≠ [] → fs'.node? (base ++ names) = fs.node? (base ++ names)

/-- What may happen to a server that tends a mirror: everything but that calls are cancelled or that others
touch the mirror. -/
inductive Orderly (m : Mirror) (base : Place) (s : Server) : Session.Move Demand → Prop where
  | turn : Orderly m base s .turn
  | passes (task : TaskId) : Orderly m base s (.passes task .go)
  | closes (gate : String) : Orderly m base s (.closes gate)
  | opens (gate : String) : Orderly m base s (.opens gate)
  | text (path : Path) (content : ByteArray) : Orderly m base s (.outside (.text path content))
  | created (path : Path) : Orderly m base s (.outside (.created path))
  | others {files : FileSystem} (writeFailure : Option String) (h : m.Spares base s.state.disk.files files) :
      Orderly m base s (.outside (.others files writeFailure))

/-- A server with the calls that have ended, in the order in which they gave back the lock. -/
structure Tended where
  server : Server
  calls : List Call := []

/-- What was written to mirrors, as kept on record. -/
def contentsOf (history : List MirrorEvent) : List (Path × ByteArray) :=
  history.filterMap fun e =>
    match e with
    | .wrote _ relative content => some (relative, content)
    | .deleted _ => none

/-- The calls that ended between two moments. -/
def endedBetween (root : Path) (before after : Server) : List Call :=
  (after.ended.drop before.ended.length).map fun e =>
    { result := e.2
      asked := (before.task? e.1).bind (asked? before.state.policy root)
      wrote := contentsOf (after.state.disk.history.drop before.state.disk.history.length) }

/-- What a move makes of a server and the calls that have ended. -/
def Tended.advance (root : Path) (t : Tended) (move : Session.Move Demand) : Tended :=
  let server := t.server.advance serverMachine (Demand.act root) move
  { server, calls := t.calls ++ endedBetween root t.server server }

/-- One thing that happens to a server that tends the mirror for a directory. -/
def Tended.Step (root : Path) (m : Mirror) (base : Place) (t t' : Tended) : Prop :=
  ∃ move, Orderly m base t.server move ∧ t' = t.advance root move

/-- Any number of things that happen to such a server. -/
abbrev Tended.Steps (root : Path) (m : Mirror) (base : Place) : Tended → Tended → Prop :=
  Relation.ReflTransGen (Tended.Step root m base)

/-- A server and the calls that have ended after some moves. -/
def Tended.after (root : Path) (t : Tended) (moves : List (Session.Move Demand)) : Tended :=
  moves.foldl (Tended.advance root) t

theorem Tended.after_cons (root : Path) (t : Tended) (move : Session.Move Demand)
    (moves : List (Session.Move Demand)) :
    t.after root (move :: moves) = (t.advance root move).after root moves := rfl

/-- A server that keeps a mirror for a directory and has been asked nothing else yet. The mirror holds some
contents, and its index says so. -/
structure IsKept (root : Path) (id : WorkspaceId) (m : Mirror) (base : Place)
    (first : List (Path × ByteArray)) (s : Server) : Prop where
  registered : s.state.registered.get? root.text = some id
  workspace : ∃ w, s.state.workspaces[id]? = some w ∧ w.root = root ∧ w.mirror = some m
  tasks : s.tasks = []
  created : s.loop.created = []
  gatherings : s.loop.gatherings = []
  standsAt : m.StandsAt base s.state.disk.files
  inner : ∀ w ∈ first, w.1.IsInner
  holds : ∀ relative content, latest relative first = some content →
    m.content? s.state.disk.files relative = some content
  tells : (s.state.indexOf m).Tells first

theorem Tended.Steps.cons {root : Path} {m : Mirror} {base : Place} {server : Server} {calls : List Call}
    {move : Session.Move Demand} {t : Tended} (h : Orderly m base server move)
    (hs : Steps root m base (advance root ⟨server, calls⟩ move) t) : Steps root m base ⟨server, calls⟩ t :=
  .head ⟨move, h, rfl⟩ hs

theorem Tended.steps_after {root : Path} {m : Mirror} {base : Place} (t : Tended)
    {moves : List (Session.Move Demand)} (h : ∀ move ∈ moves, ∀ s, Orderly m base s move) :
    Steps root m base t (t.after root moves) := by
  induction moves generalizing t with
  | nil => exact .refl
  | cons move moves ih =>
      exact (Relation.ReflTransGen.single ⟨move, h move List.mem_cons_self _, rfl⟩).trans
        (ih _ fun move hm => h move (List.mem_cons_of_mem _ hm))

/-! ## What holds at all times -/

/-- What holds of a server that tends a mirror at all times. -/
structure Tended.Sound (root : Path) (id : WorkspaceId) (m : Mirror) (base : Place)
    (first : List (Path × ByteArray)) (t : Tended) : Prop where
  registered : t.server.state.registered.get? root.text = some id
  workspace : ∃ w, t.server.state.workspaces[id]? = some w ∧ w.root = root ∧ w.mirror = some m
  tasks : ∀ task x, (task, x) ∈ t.server.tasks → IsCall root id m x
  created : t.server.loop.created = []
  gatherings : t.server.loop.gatherings = []
  standsAt : m.StandsAt base t.server.state.disk.files
  inner : ∀ w ∈ written first t.calls, w.1.IsInner
  holds : ∀ relative content, latest relative (written first t.calls) = some content →
    m.content? t.server.state.disk.files relative = some content
  tells : (t.server.state.indexOf m).Tells (onRecord first t.calls)
  fitting : Fitting first t.calls

variable {root : Path} {id : WorkspaceId} {m : Mirror} {base : Place} {first : List (Path × ByteArray)}
  {s s' : Server} {t t' : Tended}

theorem IsKept.sound (h : IsKept root id m base first s) : Tended.Sound root id m base first ⟨s, []⟩ := by
  refine ⟨h.registered, h.workspace, fun task x hm => ?_, h.created, h.gatherings, h.standsAt, ?_, ?_, ?_, .nil⟩
  · rw [h.tasks] at hm
    cases hm
  · simpa [written] using h.inner
  · simpa [written] using h.holds
  · simpa [onRecord] using h.tells

/-- Where no call ended the calls that have ended are the same. -/
theorem Tended.Sound.unended (h : Sound root id m base first ⟨s', t.calls⟩) (he : s'.ended = t.server.ended) :
    Sound root id m base first ⟨s', t.calls ++ endedBetween root t.server s'⟩ := by
  have hnone : endedBetween root t.server s' = [] := by
    rw [endedBetween, he, List.drop_length]
    rfl
  rw [hnone, List.append_nil]
  exact h

/-- A move in which nothing changes in the mirror and in what is known of it. -/
theorem Tended.Sound.quiet (h : t.Sound root id m base first) (hr : s'.state.registered = t.server.state.registered)
    (hw : ∃ w, s'.state.workspaces[id]? = some w ∧ w.root = root ∧ w.mirror = some m)
    (hi : s'.state.indexes = t.server.state.indexes) (hd : s'.state.disk = t.server.state.disk)
    (ht : ∀ task x, (task, x) ∈ s'.tasks → IsCall root id m x) (hc : s'.loop.created = [])
    (hg : s'.loop.gatherings = []) : Sound root id m base first ⟨s', t.calls⟩ := by
  refine ⟨hr ▸ h.registered, hw, ht, hc, hg, ?_, h.inner, ?_, ?_, h.fitting⟩
  · rw [hd]
    exact h.standsAt
  · rw [hd]
    exact h.holds
  · rw [ServerState.indexOf, hi]
    exact h.tells

theorem StandsAt.spares {fs fs' : FileSystem} (h : m.StandsAt base fs) (hs : m.Spares base fs fs') :
    m.StandsAt base fs' :=
  ⟨hs.way, fun below target hb => by
    rw [hs.below below hb]
    exact h.isPlain below target hb⟩

theorem StandsAt.content?_spares {fs fs' : FileSystem} (h : m.StandsAt base fs) (hs : m.Spares base fs fs')
    {relative : Path} (hr : relative.IsInner) {content : ByteArray} (hc : m.content? fs relative = some content) :
    m.content? fs' relative = some content := by
  rw [h.content?_eq_some_iff hr] at hc
  rw [(h.spares hs).content?_eq_some_iff hr, hs.below _ hr.ne_nil]
  exact ⟨hc.1, hc.2.1.of_below hs.below, hc.2.2⟩

/-- Whoever puts something outside a mirror, where nothing or a file was, leaves the mirror alone. -/
theorem StandsAt.spares_put {fs : FileSystem} (h : m.StandsAt base fs) {place : Place} (hp : place ≠ [])
    (hb : ∀ names, names ≠ [] → place ≠ base ++ names)
    (hn : ∀ n, fs.node? place = some n → ∃ c, n = .file c) (n : FileNode) : m.Spares base fs (fs.put place n) := by
  refine ⟨h.way.keeps fun q n' hq hfile => ?_, fun names hnames => ?_⟩
  · rw [FileSystem.node?_put fs n hp, if_neg]
    · exact hq
    · rintro rfl
      obtain ⟨c, rfl⟩ := hn n' hq
      exact hfile c rfl
  · rw [FileSystem.node?_put fs n hp, if_neg (hb names hnames)]

theorem Spares.trans {fs fs' fs'' : FileSystem} (h : m.Spares base fs fs') (h' : m.Spares base fs' fs'') :
    m.Spares base fs fs'' :=
  ⟨h'.way, fun names hn => (h'.below names hn).trans (h.below names hn)⟩

/-- What a call wrote can be read off the record. -/
theorem contentsOf_written (contents : List (Path × ByteArray)) :
    contentsOf (contents.map fun w => .wrote m.path w.1 w.2) = contents := by
  induction contents with
  | nil => rfl
  | cons w rest ih => exact congrArg (w :: ·) ih

/-- The turn in which a call ends. -/
theorem Tended.Sound.ends (h : t.Sound root id m base first) {task : TaskId} {r : Except Failure Result}
    {l : Loop ServerState Operation} {contents : List (Path × ByteArray)} {asked : Option (Path × ByteArray)}
    (hs : Stays id t.server.loop l) (he : Ends m base asked r.isOk contents t.server.state l.state)
    (ha : (t.server.task? task).bind (asked? t.server.state.policy root) = asked) :
    let s' : Server :=
      { t.server with tasks := t.server.without task, loop := l, ended := t.server.ended ++ [(task, r)] }
    Sound root id m base first ⟨s', t.calls ++ endedBetween root t.server s'⟩ := by
  intro s'
  have hhistory : s'.state.disk.history.drop t.server.state.disk.history.length =
      contents.map fun w => .wrote m.path w.1 w.2 := by
    show l.state.disk.history.drop _ = _
    rw [he.fills.history, List.drop_left]
  have hended : endedBetween root t.server s' = [⟨r, asked, contents⟩] := by
    unfold endedBetween
    rw [hhistory, contentsOf_written, List.drop_left, List.map_singleton]
    dsimp only
    rw [ha]
  have hinner : ∀ w ∈ written first (t.calls ++ [⟨r, asked, contents⟩]), w.1.IsInner := by
    rw [written_snoc]
    exact fun w hw => (List.mem_append.mp hw).elim (h.inner w) (he.fills.inner w)
  rw [hended]
  refine ⟨hs.registered ▸ h.registered, ?_, fun task' x hm => h.tasks task' x (Session.mem_without.mp hm).1,
    hs.created.trans h.created, hs.gatherings.trans h.gatherings, he.fills.standsAt, hinner,
    fun relative content hl => ?_, ?_, h.fitting.snoc fun a hasked hsucceeded => ?_⟩
  · obtain ⟨w, hw, hwr, hwm⟩ := h.workspace
    obtain ⟨lock, hlock⟩ := hs.workspace w hw
    exact ⟨_, hlock, hwr, hwm⟩
  · refine he.fills.holds relative content (hinner _ (mem_of_latest hl)) ?_
    rw [written_snoc, latest_append] at hl
    cases hc : latest relative contents with
    | some c =>
        rw [hc] at hl
        exact hl
    | none =>
        rw [hc, Option.none_or] at hl
        rw [Option.none_or]
        exact h.holds relative content hl
  · rw [onRecord_snoc]
    show (l.state.indexOf m).Tells _
    rw [he.index]
    exact h.tells.record _
  · rcases he.fits a hasked hsucceeded with hw | ⟨hw, e, hget, hfingerprint⟩
    · exact .inl hw
    · have htells := h.tells a.1
      rw [hget] at htells
      obtain ⟨content, hlatest, rfl⟩ := Option.map_eq_some_iff.mp htells.symm
      exact .inr ⟨hw, content, hlatest, hfingerprint⟩

/-- A task of the server goes on. -/
theorem Tended.Sound.run (h : t.Sound root id m base first) {task : TaskId} {x : Suspended Operation Waiting}
    (hx : t.server.task? task = some x) (signal : Signal) :
    let s' := t.server.run serverMachine task signal
    Sound root id m base first ⟨s', t.calls ++ endedBetween root t.server s'⟩ := by
  obtain ⟨w, hw, hwr, hwm⟩ := h.workspace
  have hcall := h.tasks task x (Session.mem_of_task? hx)
  have hgoes : Goes id m base (asked? t.server.state.policy root x) (IsWait id m)
      (serverMachine.goesOn signal x) { t.server.loop with current := task } :=
    goes_call hcall signal h.standsAt h.registered hw hwr hwm
  have hcurrent : ∀ {l}, Stays id { t.server.loop with current := task } l → Stays id t.server.loop l :=
    fun hs => ⟨hs.registered, hs.created, hs.gatherings, hs.workspace⟩
  refine Session.run_of_reaches
    (p := fun s' => Sound root id m base first ⟨s', t.calls ++ endedBetween root t.server s'⟩) hx ?_
  refine hgoes.mono (fun state l ⟨hs, hd, hi, hwait⟩ => ?_) fun r l ⟨hs, contents, he⟩ => ?_
  · have hs := hcurrent hs
    rw [Session.wentOn_waits (hs.created.trans h.created)]
    obtain ⟨lock, hlock⟩ := hs.workspace w hw
    refine Sound.unended (h.quiet hs.registered ⟨_, hlock, hwr, hwm⟩ hi hd (fun task' x' hm => ?_)
      (hs.created.trans h.created) (hs.gatherings.trans h.gatherings)) rfl
    rcases List.mem_append.mp hm with hm | hm
    · exact h.tasks task' x' (Session.mem_without.mp hm).1
    · cases List.mem_singleton.mp hm
      exact .waits hwait
  · have hs := hcurrent hs
    rw [Session.wentOn_ends (hs.created.trans h.created) (hs.gatherings.trans h.gatherings)]
    exact h.ends hs ⟨he.fills, he.index, he.fits⟩ (by rw [hx]; rfl)

/-- A move that leaves the state and the tasks alone. -/
theorem Tended.Sound.loop (h : t.Sound root id m base first) {l : Loop ServerState Operation}
    (hl : l.state = t.server.state) (hc : l.created = []) (hg : l.gatherings = []) :
    Sound root id m base first ⟨{ t.server with loop := l }, t.calls⟩ := by
  refine h.quiet (congrArg ServerState.registered hl) ?_ (congrArg ServerState.indexes hl)
    (congrArg ServerState.disk hl) h.tasks hc hg
  show ∃ w, l.state.workspaces[id]? = some w ∧ _
  rw [hl]
  exact h.workspace

/-- An act that creates no task and leaves the state alone. -/
theorem Tended.Sound.act (h : t.Sound root id m base first) {a : ServerAct Unit}
    (hl : (a.leaves t.server.loop).state = t.server.state) (hc : (a.leaves t.server.loop).created = [])
    (hg : (a.leaves t.server.loop).gatherings = []) :
    Sound root id m base first ⟨(t.server.act a).2, t.calls⟩ := by
  rw [Session.act_eq, Session.adopt_of_created_eq_nil hc]
  exact h.loop hl hc hg

/-- A call begins. -/
theorem Tended.Sound.asks (h : t.Sound root id m base first) {operation : Operation}
    (ho : IsCall root id m (.created operation)) :
    Sound root id m base first ⟨(t.server.act (discard (Act.create operation))).2, t.calls⟩ := by
  refine h.quiet rfl h.workspace rfl rfl (fun task x hm => ?_) rfl h.gatherings
  rcases List.mem_append.mp hm with hm | hm
  · exact h.tasks task x hm
  · dsimp only at hm
    rw [h.created] at hm
    cases List.mem_singleton.mp hm
    exact ho

/-- What holds at all times is kept by everything that happens. -/
theorem Tended.Sound.step (h : t.Sound root id m base first) (hs : Step root m base t t') :
    t'.Sound root id m base first := by
  obtain ⟨move, hmove, rfl⟩ := hs
  cases hmove with
  | turn =>
      refine Session.turn_keeps
        (p := fun s' => Sound root id m base first ⟨s', t.calls ++ endedBetween root t.server s'⟩) ?_ ?_ ?_ ?_
      · exact h.unended rfl
      · intro w rest n _
        refine Sound.unended ?_ rfl
        exact h.loop rfl h.created h.gatherings
      · intro w rest _ _
        refine Sound.unended ?_ rfl
        exact h.loop rfl h.created h.gatherings
      · intro w rest x _ hx
        have hpopped : Sound root id m base first
            ⟨{ t.server with loop := { t.server.loop with ready := rest } }, t.calls⟩ :=
          h.loop rfl h.created h.gatherings
        exact hpopped.run hx w.signal
  | passes task =>
      refine Sound.unended (h.act ?_ ?_ ?_) rfl
      · rw [Act.pass, Act.leaves_modify]
        split <;> rfl
      · rw [Act.pass, Act.leaves_modify]
        split <;> exact h.created
      · rw [Act.pass, Act.leaves_modify]
        split <;> exact h.gatherings
  | closes gate =>
      refine Sound.unended ?_ rfl
      exact h.act rfl h.created h.gatherings
  | opens gate =>
      refine Sound.unended ?_ rfl
      exact h.act rfl h.created h.gatherings
  | text path content => exact (h.asks (.text path content)).unended rfl
  | created path => exact (h.asks (.created path)).unended rfl
  | @others files writeFailure hspares =>
      refine Sound.unended ?_ rfl
      have hadopt : (t.server.act (Demand.act root (.others files writeFailure))).2 =
          { t.server with loop := { t.server.loop with
              state := { t.server.state with disk := { t.server.state.disk with files, writeFailure } } } } :=
        Session.adopt_of_created_eq_nil h.created
      have hinner : ∀ {relative content}, latest relative (written first t.calls) = some content →
          relative.IsInner := fun hl => h.inner _ (mem_of_latest hl)
      show Sound root id m base first ⟨(t.server.act (Demand.act root (.others files writeFailure))).2, t.calls⟩
      rw [hadopt]
      exact ⟨h.registered, h.workspace, h.tasks, h.created, h.gatherings, h.standsAt.spares hspares, h.inner,
        fun relative content hl =>
          h.standsAt.content?_spares hspares (hinner hl) (h.holds relative content hl),
        h.tells, h.fitting⟩

theorem Tended.Sound.steps (h : t.Sound root id m base first) (hs : Steps root m base t t') :
    t'.Sound root id m base first := by
  induction hs with
  | refl => exact h
  | tail _ hstep ih => exact ih.step hstep

end Mirror

end InkServer
