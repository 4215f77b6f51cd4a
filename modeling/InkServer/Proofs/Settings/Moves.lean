import InkServer.Proofs.Settings.Standing

/-!
# Moves of a server that looks settings up

As long as a server is asked for nothing but the settings of documents, every move is a step of its desk.
-/

namespace InkServer

open Function (update)

namespace Act

variable {σ ω : Type}

/-- Tasks are woken one after the other. -/
theorem leaves_forM_wake (tasks : List TaskId) (signal : Signal) (turns : Nat) (l : Loop σ ω) :
    (tasks.forM fun t => wake t signal turns : Act σ ω PUnit).leaves l =
      { l with ready := l.ready ++ tasks.map fun t => ⟨t, signal, turns⟩ } := by
  induction tasks generalizing l with
  | nil => simp [List.forM]
  | cons t tasks ih =>
      show (tasks.forM fun t => wake t signal turns : Act σ ω PUnit).leaves
        { l with ready := l.ready ++ [⟨t, signal, turns⟩] } = _
      rw [ih]
      simp

theorem reaches_through {τ α : Type} {l : Loop σ ω} {waits : τ → Loop σ ω → Prop}
    {ends : Except Failure α → Loop σ ω → Prop} (gate : String) (waiting : τ) (next : Act σ ω (Step τ α)) :
    (through gate waiting next).Reaches l waits ends ↔
      (l.closed.contains gate = true → waits waiting { l with atGates := l.atGates ++ [(gate, l.current)] }) ∧
        (¬l.closed.contains gate = true → next.Reaches l waits ends) := by
  unfold through
  rw [reaches_bind, returns_isClosed, leaves_isClosed, reaches_ite]
  rfl

end Act

/-! ## What requests and look-ups do -/

namespace SettingsRequest

variable {l : Loop ServerState Operation} {waits : SettingsRequest → Loop ServerState Operation → Prop}
  {ends : Except Failure Settings → Loop ServerState Operation → Prop}

/-- What is shared after a request has ended. -/
def finished (outcome : Except Failure Settings) (F : SettingsFetch) (l : Loop ServerState Operation) :
    Loop ServerState Operation :=
  { l with
    state := { l.state with settings := { l.state.settings with
      fetches := l.state.settings.fetches.modify l.current fun f => { f with outcome := some outcome, waiting := [] } } }
    ready := l.ready ++ F.waiting.map fun t => ⟨t, .go, 1⟩ }

theorem reaches_finish {outcome : Except Failure Settings} {F : SettingsFetch}
    (hF : l.state.settings.fetches.get? l.current = some F) :
    (finish outcome).Reaches l waits ends ↔ ends outcome (finished outcome F l) := by
  simp only [finish, updateCache, Act.reaches_bind, Act.returns_self, Act.leaves_self, Act.returns_state,
    Act.leaves_state, Act.leaves_modifyState, Act.leaves_forM_wake, hF, Option.map_some, Option.getD_some,
    Act.reaches_ends]
  rfl

theorem reaches_readAnswer {uri : String} {byUri : Dict String Value} {F : SettingsFetch}
    (hs : l.state.settings.source = .answers byUri) (hF : l.state.settings.fetches.get? l.current = some F) :
    (readAnswer uri).Reaches l waits ends ↔
      ends (answerFor byUri uri >>= ofAnswer) (finished (answerFor byUri uri >>= ofAnswer) F l) := by
  simp only [readAnswer, Act.reaches_bind, Act.returns_state, Act.leaves_state, hs]
  exact reaches_finish hF

theorem exists_of_ofAnswer {raw : Value} {v : Settings} (h : ofAnswer raw = .ok v) :
    ∃ n, Settings.normalize raw = .ok n ∧ v = n.settings := by
  unfold ofAnswer at h
  split at h
  · rename_i n hn
    exact ⟨n, hn, (Except.ok.inj h).symm⟩
  · cases h

/-- What a request comes to that reads an answer. -/
theorem exists_of_bind_ofAnswer {answer : Except Failure Value} {v : Settings} (h : (answer >>= ofAnswer) = .ok v) :
    ∃ raw n, answer = .ok raw ∧ Settings.normalize raw = .ok n ∧ v = n.settings := by
  obtain ⟨raw, hraw, hv⟩ := bind_eq_ok_iff.mp h
  obtain ⟨n, hn, rfl⟩ := exists_of_ofAnswer hv
  exact ⟨raw, n, hraw, hn, rfl⟩

end SettingsRequest

namespace SettingsLookup

variable {l : Loop ServerState Operation} {waits : SettingsLookup → Loop ServerState Operation → Prop}
  {ends : Except Failure Settings → Loop ServerState Operation → Prop}

/-- What is shared after a request was made. -/
def asked (uri : String) (l : Loop ServerState Operation) : Loop ServerState Operation :=
  { l with
    state := { l.state with settings := { l.state.settings with
      current := l.state.settings.current.insert uri l.nextTask
      fetches := l.state.settings.fetches.insert l.nextTask { uri } } }
    nextTask := l.nextTask + 1
    created := l.created ++ [(l.nextTask, .fetchSettings uri)]
    ready := l.ready ++ [⟨l.nextTask, .go, 0⟩] }

/-- What is shared after a look-up stood in the line of a request. -/
def joined (f : TaskId) (l : Loop ServerState Operation) : Loop ServerState Operation :=
  { l with state := { l.state with settings := { l.state.settings with
    fetches := l.state.settings.fetches.modify f fun F => { F with waiting := F.waiting ++ [l.current] } } } }

theorem currentFetch_of_some {uri : String} {f : TaskId} (hc : l.state.settings.current.get? uri = some f) :
    (currentFetch uri).returns l = f ∧ (currentFetch uri).leaves l = l := by
  unfold currentFetch
  rw [Act.returns_bind, Act.leaves_bind, Act.returns_state, Act.leaves_state, hc]
  exact ⟨rfl, rfl⟩

theorem currentFetch_of_none {uri : String} (hc : l.state.settings.current.get? uri = none) :
    (currentFetch uri).returns l = l.nextTask ∧ (currentFetch uri).leaves l = asked uri l := by
  unfold currentFetch
  rw [Act.returns_bind, Act.leaves_bind, Act.returns_state, Act.leaves_state, hc]
  exact ⟨rfl, rfl⟩

/-- What is shared after a look-up heard of the outcome of its request. -/
def concluded (state : SettingsLookup) (outcome : Except Failure Settings) (l : Loop ServerState Operation) :
    Loop ServerState Operation :=
  if isFailure outcome ∧ l.state.settings.current.get? state.uri = some state.fetch then
    { l with state := { l.state with settings := { l.state.settings with
      current := l.state.settings.current.erase state.uri } } }
  else l

theorem reaches_conclude {state : SettingsLookup} {outcome : Except Failure Settings} :
    (conclude state outcome).Reaches l waits ends ↔ ends (.ok (settingsOf outcome)) (concluded state outcome l) := by
  unfold conclude concluded
  split
  · simp [isFailure, settingsOf]
  · simp [isFailure, settingsOf]
  · rename_i f hf
    have hfailure : isFailure (.error f) = true := by
      unfold isFailure
      split <;> simp_all
    simp only [SettingsRequest.updateCache, Act.reaches_bind, Act.leaves_modifyState, Act.reaches_done, hfailure,
      true_and, settingsOf]
    split <;> rfl

/-- A look-up that begins ends at once if the request that holds has an outcome, and else waits for it. -/
theorem reaches_start_of_some (hcan : canAsk l.state.settings = true) {uri : String} {f : TaskId} {F : SettingsFetch}
    (hc : l.state.settings.current.get? uri = some f) (hF : l.state.settings.fetches.get? f = some F) :
    (start uri).Reaches l waits ends ↔
      match F.outcome with
      | some outcome => ends (.ok (settingsOf outcome)) (concluded ⟨uri, f⟩ outcome l)
      | none => waits ⟨uri, f⟩ (joined f l) := by
  obtain ⟨hreturns, hleaves⟩ := currentFetch_of_some hc
  unfold start
  rw [Act.reaches_bind, Act.returns_state, Act.leaves_state, if_pos hcan, Act.reaches_bind, hreturns, hleaves,
    Act.reaches_bind, Act.returns_state, Act.leaves_state, hF, Option.bind_some]
  cases F.outcome with
  | some outcome => exact reaches_conclude
  | none => rfl

/-- A look-up that begins while no request holds makes one and waits for it. -/
theorem reaches_start_of_none (hcan : canAsk l.state.settings = true) {uri : String}
    (hc : l.state.settings.current.get? uri = none) :
    (start uri).Reaches l waits ends ↔ waits ⟨uri, l.nextTask⟩ (joined l.nextTask (asked uri l)) := by
  obtain ⟨hreturns, hleaves⟩ := currentFetch_of_none hc
  have hnew : (asked uri l).state.settings.fetches.get? l.nextTask = some { uri } := Dict.get?_insert_self ..
  unfold start
  rw [Act.reaches_bind, Act.returns_state, Act.leaves_state, if_pos hcan, Act.reaches_bind, hreturns, hleaves,
    Act.reaches_bind, Act.returns_state, Act.leaves_state, hnew]
  rfl

/-- What is shared after a look-up left the line of a request. -/
def departed (f : TaskId) (l : Loop ServerState Operation) : Loop ServerState Operation :=
  { l with state := { l.state with settings := { l.state.settings with
    fetches := l.state.settings.fetches.modify f fun F => { F with waiting := F.waiting.filter (· ≠ l.current) } } } }

/-- A look-up that goes on after a wait. -/
theorem reaches_resume {state : SettingsLookup} {F : SettingsFetch} {signal : Signal}
    (hF : l.state.settings.fetches.get? state.fetch = some F)
    (hears : ∀ outcome, F.outcome = some outcome → signal = .go ∨ outcome = .error .cancelled →
      ends (.ok (settingsOf outcome)) (concluded state outcome l))
    (hasty : signal = .go → F.outcome = none → ends (.ok .defaults) l)
    (gives_up : signal ≠ .go → ends (.error .cancelled) (departed state.fetch l)) :
    (resume state signal).Reaches l waits ends := by
  unfold resume
  rw [Act.reaches_bind, Act.returns_state, Act.leaves_state, hF, Option.bind_some]
  split
  · rename_i outcome ho
    exact reaches_conclude.mpr (hears outcome ho (.inl rfl))
  · rename_i ho
    exact hasty rfl ho
  · rename_i ho
    exact hears _ ho (.inr rfl)
  · rename_i hsome hnone
    refine gives_up fun hgo => ?_
    cases ho : F.outcome with
    | none => exact hnone hgo ho
    | some outcome => exact hsome outcome hgo ho

end SettingsLookup

/-! ## The desk after a task was run -/

namespace SettingsDesk

variable {s : Server} {t n : TaskId} {l : Loop ServerState Operation}

theorem of_wentOn_waits {state : Waiting} (hc : l.created = []) :
    of (s.wentOn t (.waits state) l) = ofLoop (update s.task? t (some (.waiting state))) s.result? l := by
  rw [Session.wentOn_waits hc]
  have hwithout := Session.task?_without (s := s) t rfl
  have happend := Session.task?_append (s := { s with tasks := s.without t }) t (x := .waiting state) rfl
    (by rw [hwithout, Function.update_self])
  rw [hwithout, Function.update_idem] at happend
  exact congrArg (fun task? => ofLoop task? s.result? l) happend

/-- The same for a task that has another one made. -/
theorem of_wentOn_waits_creating {state : Waiting} {operation : Operation} (hc : l.created = [(n, operation)])
    (hn : n ≠ t) (hnew : s.task? n = none) :
    of (s.wentOn t (.waits state) l) =
      ofLoop (update (update s.task? n (some (.created operation))) t (some (.waiting state))) s.result? l := by
  have hwithout := Session.task?_without (s := s) t rfl
  have hadopt := Session.task?_append (s := { s with tasks := s.without t }) n (x := .created operation) rfl
    (by rw [hwithout, Function.update_of_ne hn, hnew])
  have happend := Session.task?_append (s := { s with tasks := s.without t ++ [(n, .created operation)] }) t
    (x := .waiting state) rfl (by rw [hadopt, Function.update_of_ne (Ne.symm hn), hwithout, Function.update_self])
  rw [hadopt, hwithout, Function.update_comm hn, Function.update_idem] at happend
  rw [Function.update_comm hn]
  unfold Session.wentOn Session.adopt
  rw [hc]
  exact congrArg (fun task? => ofLoop task? s.result? l) happend

theorem of_wentOn_ends {r : Except Failure Result} (hc : l.created = []) (hg : l.gatherings = [])
    (hr : s.result? t = none) :
    of (s.wentOn t (.ends r) l) = ofLoop (update s.task? t none) (update s.result? t (some r)) l := by
  rw [Session.wentOn_ends hc hg]
  have htask := Session.task?_without (s := s) t rfl
  have hresult := Session.result?_append (s := s) t (r := r) rfl hr
  exact congrArg₂ (fun task? result? => ofLoop task? result? l) htask hresult

theorem ofLoop_atGate {task? : TaskId → Option (Suspended Operation Waiting)}
    {result? : TaskId → Option (Except Failure Result)} (gate : String) (t : TaskId) :
    ofLoop task? result? { l with atGates := l.atGates ++ [(gate, t)] } =
      { ofLoop task? result? l with atGates := l.atGates.map Prod.snd ++ [t] } := by
  unfold ofLoop
  simp only [List.map_append, List.map_cons, List.map_nil]

open SettingsRequest in
theorem ofLoop_finished {task? : TaskId → Option (Suspended Operation Waiting)}
    {result? : TaskId → Option (Except Failure Result)} {outcome : Except Failure Settings} {F : SettingsFetch}
    (hF : l.state.settings.fetches.get? l.current = some F) :
    ofLoop task? result? (finished outcome F l) =
      { ofLoop task? result? l with
        ready := l.ready ++ F.waiting.map fun t => ⟨t, .go, 1⟩
        fetch? := update l.state.settings.fetches.get? l.current
          (some { F with outcome := some outcome, waiting := [] }) } := by
  unfold ofLoop finished
  simp only [Dict.get?_modify_of_get? hF]

open SettingsLookup in
theorem ofLoop_joined {task? : TaskId → Option (Suspended Operation Waiting)}
    {result? : TaskId → Option (Except Failure Result)} {f : TaskId} {F : SettingsFetch}
    (hF : l.state.settings.fetches.get? f = some F) :
    ofLoop task? result? (joined f l) =
      { ofLoop task? result? l with
        fetch? := update l.state.settings.fetches.get? f (some { F with waiting := F.waiting ++ [l.current] }) } := by
  unfold ofLoop joined
  simp only [Dict.get?_modify_of_get? hF]

open SettingsLookup in
theorem ofLoop_departed {task? : TaskId → Option (Suspended Operation Waiting)}
    {result? : TaskId → Option (Except Failure Result)} {f : TaskId} {F : SettingsFetch}
    (hF : l.state.settings.fetches.get? f = some F) :
    ofLoop task? result? (departed f l) =
      { ofLoop task? result? l with
        fetch? := update l.state.settings.fetches.get? f
          (some { F with waiting := F.waiting.filter (· ≠ l.current) }) } := by
  unfold ofLoop departed
  simp only [Dict.get?_modify_of_get? hF]

open SettingsLookup in
theorem ofLoop_asked {task? : TaskId → Option (Suspended Operation Waiting)}
    {result? : TaskId → Option (Except Failure Result)} {uri : String} :
    ofLoop task? result? (joined l.nextTask (asked uri l)) =
      { ofLoop task? result? l with
        ready := l.ready ++ [⟨l.nextTask, .go, 0⟩]
        next := l.nextTask + 1
        current? := update l.state.settings.current.get? uri (some l.nextTask)
        fetch? := update l.state.settings.fetches.get? l.nextTask (some { uri, waiting := [l.current] }) } := by
  have hnew : (asked uri l).state.settings.fetches.get? l.nextTask = some { uri } := Dict.get?_insert_self ..
  rw [ofLoop_joined hnew]
  simp only [ofLoop, asked, Dict.get?_insert_eq_update, Function.update_idem]
  rfl

open SettingsLookup in
theorem ofLoop_concluded {task? : TaskId → Option (Suspended Operation Waiting)}
    {result? : TaskId → Option (Except Failure Result)} {outcome : Except Failure Settings} {state : SettingsLookup} :
    ofLoop task? result? (concluded state outcome l) =
      { ofLoop task? result? l with
        current? := keptAfter l.state.settings.current.get? state.uri state.fetch outcome } := by
  unfold concluded keptAfter
  split
  · simp only [ofLoop, Dict.get?_erase_eq_update]
  · rfl

end SettingsDesk

/-! ## Turns -/

namespace Waiting

theorem reaches_ending {τ α : Type} {part : ServerAct (Step τ α)} {wrap : τ → Waiting} {f : α → Result}
    {l : Loop ServerState Operation} {waits : Waiting → Loop ServerState Operation → Prop}
    {ends : Except Failure Result → Loop ServerState Operation → Prop} :
    (ending part wrap f).Reaches l waits ends ↔
      part.Reaches l (fun s => waits (wrap s)) fun r => ends (r.map f) := by
  unfold ending Act.andThen
  rw [Act.reaches_afterwards]
  unfold Act.Reaches
  cases part.returns l with
  | waits s => rfl
  | ends r => cases r <;> rfl

end Waiting

namespace Server

open SettingsDesk (of ofLoop Finds)

/-- What is shared while nothing but settings is asked for, and there is somebody to ask. -/
structure IsBare (source : SettingsSource) (l : Loop ServerState Operation) : Prop where
  created : l.created = []
  gatherings : l.gatherings = []
  asks : l.state.settings.source = source
  canAsk : SettingsLookup.canAsk l.state.settings = true

/-- A server that is asked for nothing but settings. -/
structure Serves (source : SettingsSource) (s : Server) : Prop where
  bare : IsBare source s.loop
  orderly : (of s).Orderly source

/-- What a move makes of such a server. -/
structure Advances (source : SettingsSource) (s : Server) (move : Session.Move External) (s' : Server) : Prop where
  bare : IsBare source s'.loop
  step : SettingsDesk.Step source (of s) move (of s')

variable {source : SettingsSource} {s s' : Server} {move : Session.Move External}

theorem Advances.serves (hg : Advances source s move s') (h : Serves source s) : Serves source s' :=
  ⟨hg.bare, h.orderly.step hg.step⟩

theorem IsBare.state_eq {l l' : Loop ServerState Operation} (h : IsBare source l) (hc : l'.created = l.created)
    (hg : l'.gatherings = l.gatherings) (hs : l'.state.settings.source = l.state.settings.source)
    (hi : l'.state.settings.isCapable = l.state.settings.isCapable) : IsBare source l' := by
  refine ⟨hc.trans h.created, hg.trans h.gatherings, hs.trans h.asks, ?_⟩
  have hcan := h.canAsk
  unfold SettingsLookup.canAsk at hcan ⊢
  rw [hs, hi]
  exact hcan

variable {w : Wake} {rest : List Wake} {x : Suspended Operation Waiting} {l : Loop ServerState Operation}

theorem Serves.result?_eq_none (h : Serves source s) {t : TaskId} (hx : s.task? t = some x) : s.result? t = none := by
  cases hr : s.result? t with
  | none => rfl
  | some r => cases (h.orderly.results t r hr).symm.trans hx

/-- A server whose tasks are as before while other tasks are ready. -/
abbrev withReady (s : Server) (rest : List Wake) : Server := { s with loop := { s.loop with ready := rest } }

/-- A task ends. -/
theorem Serves.goes_ends (h : Serves source s) (hx : s.task? w.task = some x) {r : Except Failure Result}
    (hl : IsBare source l) (hs : SettingsDesk.Step source (of s) .turn
      (ofLoop (update s.task? w.task none) (update s.result? w.task (some r)) l)) :
    Advances source s .turn ((withReady s rest).wentOn w.task (.ends r) l) where
  bare := by
    rw [Session.wentOn_ends hl.created hl.gatherings]
    exact hl
  step := by
    rw [SettingsDesk.of_wentOn_ends (s := withReady s rest) hl.created hl.gatherings (h.result?_eq_none hx)]
    exact hs

/-- A task waits. -/
theorem goes_waits {state : Waiting} (hl : IsBare source l) (hs : SettingsDesk.Step source (of s) .turn
      (ofLoop (update s.task? w.task (some (.waiting state))) s.result? l)) :
    Advances source s .turn ((withReady s rest).wentOn w.task (.waits state) l) where
  bare := by
    rw [Session.wentOn_waits hl.created]
    exact hl
  step := by
    rw [SettingsDesk.of_wentOn_waits (s := withReady s rest) hl.created]
    exact hs

/-- A task has a request made and waits. -/
theorem goes_waits_creating {state : Waiting} {operation : Operation} {n : TaskId}
    (hl : IsBare source { l with created := [] }) (hc : l.created = [(n, operation)]) (hn : n ≠ w.task)
    (hnew : s.task? n = none) (hs : SettingsDesk.Step source (of s) .turn
      (ofLoop (update (update s.task? n (some (.created operation))) w.task (some (.waiting state))) s.result? l)) :
    Advances source s .turn ((withReady s rest).wentOn w.task (.waits state) l) where
  bare := ⟨rfl, hl.gatherings, hl.asks, hl.canAsk⟩
  step := by
    rw [SettingsDesk.of_wentOn_waits_creating (s := withReady s rest) hc hn hnew]
    exact hs

open SettingsRequest in
/-- A request ends. -/
theorem Serves.goes_finished (h : Serves source s) (hr : s.loop.ready = w :: rest) (hx : s.task? w.task = some x)
    {F : SettingsFetch} (hF : s.state.settings.fetches.get? w.task = some F) {outcome : Except Failure Settings}
    (requests : List ClientRequest) (hq : requests.map (·.task) = s.state.client.requests.map (·.task))
    (events : List Event) (hs : w.signal ≠ .go → outcome = .error .cancelled)
    (hv : w.signal = .go → ∃ answer, Finds source (of s) w.task F.uri answer ∧ outcome = answer >>= ofAnswer)
    (hk : ∀ r ∈ s.state.client.requests, r.task ≠ w.task → r ∈ requests) :
    Advances source s .turn ((withReady s rest).wentOn w.task (.ends (outcome.map .settings)) (finished outcome F
      { s.loop with
        state := { s.state with client := { s.state.client with requests }, events }, ready := rest
        current := w.task })) := by
  refine h.goes_ends hx (h.bare.state_eq rfl rfl rfl rfl) ?_
  rw [SettingsDesk.ofLoop_finished (by exact hF)]
  exact .finishes hr hx hF hq hs hv hk

/-- A turn of a task goes as the desk has it. -/
def TurnGoes (source : SettingsSource) (s : Server) (w : Wake) (rest : List Wake) (x : Suspended Operation Waiting) :
    Prop :=
  (serverMachine.goesOn w.signal x).Reaches { s.loop with ready := rest, current := w.task }
    (fun state l => Advances source s .turn ((withReady s rest).wentOn w.task (.waits state) l))
    fun r l => Advances source s .turn ((withReady s rest).wentOn w.task (.ends r) l)

/-- A look-up hears of an outcome. -/
theorem Serves.goes_concluded (h : Serves source s) (hr : s.loop.ready = w :: rest) (hx : s.task? w.task = some x)
    {uri : String} {f : TaskId} {F : SettingsFetch} {outcome : Except Failure Settings}
    (ht : x = .created (.resolveSettings uri) ∧ s.state.settings.current.get? uri = some f ∨
      x = .waiting (.lookingUp ⟨uri, f⟩))
    (hF : s.state.settings.fetches.get? f = some F) (ho : F.outcome = some outcome) :
    Advances source s .turn ((withReady s rest).wentOn w.task (.ends (.ok (.settings (settingsOf outcome))))
      (SettingsLookup.concluded ⟨uri, f⟩ outcome { s.loop with ready := rest, current := w.task })) := by
  refine h.goes_ends hx (h.bare.state_eq ?_ ?_ ?_ ?_) ?_
  iterate 4
    unfold SettingsLookup.concluded
    split <;> rfl
  rw [SettingsDesk.ofLoop_concluded]
  refine .concludes hr (ht.imp (fun ht => ⟨?_, ht.2⟩) fun ht => ?_) hF ho
  · rw [← ht.1]
    exact hx
  · rw [← ht]
    exact hx

theorem Serves.turnGoes_call (h : Serves source s) (hr : s.loop.ready = w :: rest) {uri : String}
    (hx : s.task? w.task = some (.created (.resolveSettings uri))) :
    TurnGoes source s w rest (.created (.resolveSettings uri)) := by
  unfold TurnGoes
  by_cases hs : w.signal = .go
  · rw [hs]
    show (Waiting.ending (SettingsLookup.start uri) .lookingUp .settings).Reaches _ _ _
    rw [Waiting.reaches_ending]
    cases hc : s.state.settings.current.get? uri with
    | some f =>
        have hu := h.orderly.current uri f hc
        cases hF : s.state.settings.fetches.get? f with
        | none =>
            rw [show (of s).fetch? f = none from hF] at hu
            cases hu
        | some F =>
            rw [SettingsLookup.reaches_start_of_some (by exact h.bare.canAsk) (by exact hc) (by exact hF)]
            cases ho : F.outcome with
            | some outcome => exact h.goes_concluded hr hx (.inl ⟨rfl, hc⟩) hF ho
            | none =>
                refine goes_waits (h.bare.state_eq rfl rfl rfl rfl) ?_
                rw [SettingsDesk.ofLoop_joined (by exact hF)]
                exact .joins hr hx hc hF ho
    | none =>
        rw [SettingsLookup.reaches_start_of_none (by exact h.bare.canAsk) (by exact hc)]
        have hlt : w.task < s.loop.nextTask := h.orderly.lt_of_task? (by rw [show (of s).task? w.task = _ from hx]; nofun)
        have hcreated : s.loop.created ++ [(s.loop.nextTask, Operation.fetchSettings uri)] =
            [(s.loop.nextTask, .fetchSettings uri)] := by rw [h.bare.created, List.nil_append]
        refine goes_waits_creating ?_ hcreated (Ne.symm (Nat.ne_of_lt hlt)) (h.orderly.unused _ (Nat.le_refl _)).1 ?_
        · exact h.bare.state_eq h.bare.created.symm rfl rfl rfl
        · rw [SettingsDesk.ofLoop_asked]
          exact .asksAnew hr hx hc
  · have hrefuses : serverMachine.goesOn w.signal (.created (.resolveSettings uri)) = pure (.fail .cancelled) := by
      show Waiting.start (.resolveSettings uri) w.signal = _
      unfold Waiting.start
      split
      · rename_i hgo
        exact absurd hgo hs
      · rename_i hop _
        cases hop
      · rfl
    rw [hrefuses, Act.reaches_fail]
    exact h.goes_ends hx (h.bare.state_eq rfl rfl rfl rfl) (.refuses hr hx hs)

theorem Serves.turnGoes_lookingUp (h : Serves source s) (hr : s.loop.ready = w :: rest) {state : SettingsLookup}
    (hx : s.task? w.task = some (.waiting (.lookingUp state))) : TurnGoes source s w rest (.waiting (.lookingUp state)) := by
  obtain ⟨uri, f⟩ := state
  obtain ⟨hn, F, hF, hu, hlooks⟩ := h.orderly.tasks _ _ hx
  have hF : s.state.settings.fetches.get? f = some F := hF
  unfold TurnGoes
  show (Waiting.ending (SettingsLookup.resume ⟨uri, f⟩ w.signal) .lookingUp .settings).Reaches _ _ _
  rw [Waiting.reaches_ending]
  refine SettingsLookup.reaches_resume (by exact hF) (fun outcome ho _ => ?_) (fun hgo ho => ?_) fun hs => ?_
  · exact h.goes_concluded hr hx (.inr rfl) hF ho
  · exact absurd (SettingsDesk.anyGoesOn_of_head hr hgo) (hlooks.waits ho).2
  · refine h.goes_ends hx (h.bare.state_eq rfl rfl rfl rfl) ?_
    rw [SettingsDesk.ofLoop_departed (by exact hF)]
    exact .raises hr hx hs hF

section Requests

open SettingsRequest

/-- A request that is to give up comes to nothing. -/
theorem Serves.goes_givenUp (h : Serves source s) (hr : s.loop.ready = w :: rest) (hx : s.task? w.task = some x)
    {F : SettingsFetch} (hF : s.state.settings.fetches.get? w.task = some F) (hs : w.signal ≠ .go)
    (requests : List ClientRequest) (hq : requests.map (·.task) = s.state.client.requests.map (·.task))
    (hk : ∀ r ∈ s.state.client.requests, r.task ≠ w.task → r ∈ requests) :
    Advances source s .turn ((withReady s rest).wentOn w.task (.ends (.error .cancelled)) (finished (.error .cancelled) F
      { s.loop with
        state := { s.state with client := { s.state.client with requests } }, ready := rest
        current := w.task })) :=
  h.goes_finished hr hx hF requests hq s.state.events (fun _ => rfl) (fun hgo => absurd hgo hs) hk

/-- A request reads the answer that is known beforehand. -/
theorem Serves.goes_read (h : Serves source s) (hr : s.loop.ready = w :: rest) (hx : s.task? w.task = some x)
    {F : SettingsFetch} (hF : s.state.settings.fetches.get? w.task = some F) (hs : w.signal = .go)
    {byUri : Dict String Value} (hsource : source = .answers byUri) (events : List Event) :
    (readAnswer F.uri).Reaches
      { s.loop with state := { s.state with events }, ready := rest, current := w.task }
      (fun state l => Advances source s .turn ((withReady s rest).wentOn w.task (.waits (.fetching state)) l))
      fun r l => Advances source s .turn ((withReady s rest).wentOn w.task (.ends (r.map .settings)) l) := by
  have hasks : s.state.settings.source = .answers byUri := h.bare.asks.trans hsource
  refine (reaches_readAnswer (by exact hasks) (by exact hF)).mpr ?_
  subst hsource
  exact h.goes_finished hr hx hF s.state.client.requests rfl events (fun hn => absurd hs hn) (fun _ => ⟨_, rfl, rfl⟩)
    fun _ hm _ => hm

theorem Serves.turnGoes_created (h : Serves source s) (hr : s.loop.ready = w :: rest) {uri : String}
    (hx : s.task? w.task = some (.created (.fetchSettings uri))) :
    TurnGoes source s w rest (.created (.fetchSettings uri)) := by
  obtain ⟨⟨F, hF, hu, ho⟩, -⟩ := h.orderly.tasks _ _ hx
  have hF : s.state.settings.fetches.get? w.task = some F := hF
  unfold TurnGoes
  have hstart : serverMachine.goesOn w.signal (.created (.fetchSettings uri)) =
      Waiting.ending (SettingsRequest.start uri w.signal) .fetching .settings := by
    show Waiting.start (.fetchSettings uri) w.signal = _
    cases w.signal <;> rfl
  rw [hstart, Waiting.reaches_ending]
  unfold SettingsRequest.start
  rw [Act.reaches_bind, Act.returns_state, Act.leaves_state]
  split
  · rename_i byUri hgo hsource
    have hsource : source = .answers byUri := h.bare.asks.symm.trans hsource
    rw [Act.reaches_bind, Act.reaches_through]
    refine ⟨fun _ => ?_, fun _ => ?_⟩
    · refine goes_waits (h.bare.state_eq rfl rfl rfl rfl) ?_
      rw [SettingsDesk.ofLoop_atGate]
      exact .holds hr hx hgo hsource
    · rw [← hu]
      exact h.goes_read hr hx hF hgo hsource _
  · rename_i hgo hsource
    have hsource : source = .client := h.bare.asks.symm.trans hsource
    refine goes_waits (h.bare.state_eq rfl rfl rfl rfl) ?_
    exact .sends hr hx hgo hsource
  · rename_i hs
    have hcan := h.bare.canAsk
    unfold SettingsLookup.canAsk at hcan
    rw [show s.loop.state.settings.source = .nobody from hs, Bool.and_false] at hcan
    cases hcan
  · rename_i hanswers hclient hnobody
    refine (reaches_finish hF).mpr ?_
    refine h.goes_givenUp hr hx hF (fun hgo => ?_) _ rfl fun _ hm _ => hm
    cases hsource : s.loop.state.settings.source with
    | answers byUri => exact hanswers byUri hgo hsource
    | client => exact hclient hgo hsource
    | nobody => exact hnobody hgo hsource

theorem Serves.turnGoes_held (h : Serves source s) (hr : s.loop.ready = w :: rest) {uri : String}
    (hx : s.task? w.task = some (.waiting (.fetching (.held uri)))) :
    TurnGoes source s w rest (.waiting (.fetching (.held uri))) := by
  obtain ⟨⟨F, hF, hu, ho⟩, byUri, hsource⟩ := h.orderly.tasks _ _ hx
  have hF : s.state.settings.fetches.get? w.task = some F := hF
  unfold TurnGoes
  show (Waiting.ending (SettingsRequest.resume (.held uri) w.signal) .fetching .settings).Reaches _ _ _
  rw [Waiting.reaches_ending]
  by_cases hs : w.signal = .go
  · rw [hs, ← hu]
    exact h.goes_read hr hx hF hs hsource s.state.events
  · have hgives : SettingsRequest.resume (.held uri) w.signal = finish (.error .cancelled) := by
      cases hw : w.signal with
      | go => exact absurd hw hs
      | _ => rfl
    rw [hgives]
    refine (reaches_finish hF).mpr ?_
    exact h.goes_givenUp hr hx hF hs s.state.client.requests rfl fun _ hm _ => hm

theorem Serves.turnGoes_asking (h : Serves source s) (hr : s.loop.ready = w :: rest)
    (hx : s.task? w.task = some (.waiting (.fetching .asking))) :
    TurnGoes source s w rest (.waiting (.fetching .asking)) := by
  obtain ⟨⟨uri, F, hF, hu, ho⟩, hsource, hanswered⟩ := h.orderly.tasks _ _ hx
  have hF : s.state.settings.fetches.get? w.task = some F := hF
  unfold TurnGoes
  show (Waiting.ending (SettingsRequest.resume .asking w.signal) .fetching .settings).Reaches _ _ _
  rw [Waiting.reaches_ending]
  by_cases hs : w.signal = .go
  · rw [hs]
    show takeAnswer.Reaches _ _ _
    unfold takeAnswer
    rw [Act.reaches_bind, Act.returns_self, Act.leaves_self, Act.reaches_bind, Act.returns_state, Act.leaves_state]
    refine (reaches_finish hF).mpr ?_
    obtain ⟨answer, ha⟩ := Option.ne_none_iff_exists'.mp (hanswered (SettingsDesk.anyGoesOn_of_head hr hs))
    have ha' : s.loop.state.client.answers.get? w.task = some answer := ha
    subst hsource
    refine h.goes_finished hr hx hF s.state.client.requests rfl s.state.events (fun hn => absurd hs hn)
      (fun _ => ⟨_, ⟨answer, ha, rfl⟩, ?_⟩) fun _ hm _ => hm
    rw [ha']
    cases answer <;> rfl
  · have hgives : SettingsRequest.resume .asking w.signal = (do abandon; finish (.error .cancelled)) := by
      cases hw : w.signal with
      | go => exact absurd hw hs
      | _ => rfl
    rw [hgives, Act.reaches_bind]
    refine (reaches_finish (by exact hF)).mpr ?_
    refine h.goes_givenUp hr hx hF hs _ ?_ fun r hm hne => List.mem_map.mpr ⟨r, hm, if_neg hne⟩
    rw [List.map_map]
    refine List.map_congr_left fun r _ => ?_
    show (if r.task = w.task then _ else r : ClientRequest).task = r.task
    split <;> rfl

end Requests

/-- Whatever waits, its turn goes as the desk has it. -/
theorem Serves.turnGoes (h : Serves source s) (hr : s.loop.ready = w :: rest) (hx : s.task? w.task = some x) :
    TurnGoes source s w rest x := by
  have hstands := h.orderly.tasks _ _ hx
  unfold SettingsDesk.Stands at hstands
  split at hstands
  · exact h.turnGoes_call hr hx
  · exact h.turnGoes_created hr hx
  · exact h.turnGoes_held hr hx
  · exact h.turnGoes_asking hr hx
  · exact h.turnGoes_lookingUp hr hx
  · exact hstands.elim

/-! ## Moves -/

/-- What may happen while nothing but settings is asked for. -/
def IsOfSettings : Session.Move External → Prop
  | .outside (.asks (.resolveSettings _)) | .outside (.closes _) | .outside .invalidates | .outside (.reply _ _) => True
  | .outside _ => False
  | _ => True

/-- A turn. -/
theorem Serves.goes_turn (h : Serves source s) :
    Advances source s .turn (s.advance serverMachine External.act .turn) := by
  show Advances source s .turn ((s.turn serverMachine).getD s)
  unfold Session.turn
  split
  · rename_i hr
    exact ⟨h.bare, .rests (fun _ he => by cases he) fun _ => hr⟩
  · rename_i w rest hr
    cases hn : w.turns with
    | succ n => exact ⟨h.bare.state_eq rfl rfl rfl rfl, .postpones hr hn⟩
    | zero =>
        cases hx : s.task? w.task with
        | none =>
            have hgone : Session.run serverMachine (withReady s rest) w.task w.signal = withReady s rest := by
              unfold Session.run
              rw [show (withReady s rest).task? w.task = none from hx]
            show Advances source s .turn (Session.run serverMachine (withReady s rest) w.task w.signal)
            rw [hgone]
            exact ⟨h.bare.state_eq rfl rfl rfl rfl, .idles hr hx⟩
        | some x => exact Session.run_of_reaches (s := withReady s rest) hx (h.turnGoes hr hx)

/-- Something is done without a task, and nothing is created. -/
theorem goes_act {α : Type} {a : ServerAct α} (hl : IsBare source (a.leaves s.loop))
    (hs : SettingsDesk.Step source (of s) move (ofLoop s.task? s.result? (a.leaves s.loop))) :
    Advances source s move (s.act a).2 := by
  rw [Session.act_eq]
  show Advances source s move (Session.adopt _)
  rw [Session.adopt_of_created_eq_nil (by exact hl.created)]
  exact ⟨hl, hs⟩

theorem atGates_filter (atGates : List (String × TaskId)) (task : TaskId) :
    (atGates.filter fun w => w.2 ≠ task).map Prod.snd = (atGates.map Prod.snd).filter (· ≠ task) := by
  rw [List.filter_map]
  rfl

/-- A task is told to give up. -/
theorem Serves.leaves_cancel (h : Serves source s) (task : TaskId) :
    (Act.cancel task : ServerAct Unit).leaves s.loop = { s.loop with
      ready := Act.giveUp s.loop.ready task
      atGates := s.loop.atGates.filter fun w => w.2 ≠ task } :=
  Act.leaves_cancel_of_gatherings_eq_nil h.bare.gatherings task

theorem ofLoop_givenUp {task? : TaskId → Option (Suspended Operation Waiting)}
    {result? : TaskId → Option (Except Failure Result)} {ready : List Wake} (task : TaskId) :
    ofLoop task? result? { l with ready, atGates := l.atGates.filter fun w => w.2 ≠ task } =
      { ofLoop task? result? l with ready, atGates := (l.atGates.map Prod.snd).filter (· ≠ task) } := by
  unfold ofLoop
  simp only [atGates_filter]

theorem Serves.goes_cancels (h : Serves source s) (task : TaskId) :
    Advances source s (.cancels task) (s.advance serverMachine External.act (.cancels task)) := by
  show Advances source s _ (s.cancel task).2
  unfold Session.cancel
  split
  · rename_i hpending
    have hl := h.leaves_cancel task
    show Advances source s _ (s.act (Act.cancel task)).2
    refine goes_act ?_ ?_
    · rw [hl]
      exact h.bare.state_eq rfl rfl rfl rfl
    · rw [hl, ofLoop_givenUp]
      exact .cancels (Option.isSome_iff_ne_none.mp hpending)
  · exact ⟨h.bare, .rests (fun _ he => by cases he) nofun⟩

theorem Serves.goes_passes (h : Serves source s) (task : TaskId) (signal : Signal) :
    Advances source s (.passes task signal) (s.advance serverMachine External.act (.passes task signal)) := by
  have hleaves : (Act.pass task signal : ServerAct Unit).leaves s.loop =
      if s.loop.atGates.any fun w => w.2 = task then
        { s.loop with
          atGates := s.loop.atGates.filter fun w => w.2 ≠ task
          ready := s.loop.ready ++ [⟨task, signal, 0⟩] }
      else s.loop := rfl
  refine goes_act ?_ ?_
  · rw [hleaves]
    split
    · exact h.bare.state_eq rfl rfl rfl rfl
    · exact h.bare
  · rw [hleaves]
    split
    · rename_i hany
      rw [ofLoop_givenUp]
      refine .passes ?_ signal
      obtain ⟨w, hw, he⟩ := List.any_eq_true.mp hany
      exact List.mem_map.mpr ⟨w, hw, of_decide_eq_true he⟩
    · exact .rests (fun _ he => by cases he) nofun

theorem Serves.goes_asks (h : Serves source s) (uri : String) :
    Advances source s (.outside (.asks (.resolveSettings uri)))
      (s.advance serverMachine External.act (.outside (.asks (.resolveSettings uri)))) := by
  have happend := Session.task?_append (s := s) s.loop.nextTask (x := .created (.resolveSettings uri)) rfl
    (h.orderly.unused _ (Nat.le_refl _)).1
  have hadvance : s.advance serverMachine External.act (.outside (.asks (.resolveSettings uri))) =
      { s with
        tasks := s.tasks ++ [(s.loop.nextTask, .created (.resolveSettings uri))]
        loop := { s.loop with
          ready := s.loop.ready ++ [⟨s.loop.nextTask, .go, 0⟩]
          nextTask := s.loop.nextTask + 1 } } := by
    show Session.adopt { s with loop := { s.loop with
      nextTask := s.loop.nextTask + 1
      created := s.loop.created ++ [(s.loop.nextTask, .resolveSettings uri)]
      ready := s.loop.ready ++ [⟨s.loop.nextTask, .go, 0⟩] } } = _
    unfold Session.adopt
    simp only [h.bare.created, List.nil_append, List.map_cons, List.map_nil]
  rw [hadvance]
  refine ⟨h.bare.state_eq rfl rfl rfl rfl, ?_⟩
  have hstep : SettingsDesk.Step source (of s) _ _ := .asks (of s) uri
  refine Eq.mp (congrArg (SettingsDesk.Step source (of s) _) ?_) hstep
  exact congrArg (fun task? => ({ ofLoop task? s.result? s.loop with
    ready := s.loop.ready ++ [⟨s.loop.nextTask, .go, 0⟩], next := s.loop.nextTask + 1 } : SettingsDesk)) happend.symm

/-- What is shared after a document was closed. -/
def closed (uri : String) (l : Loop ServerState Operation) : Loop ServerState Operation :=
  { l with state := { l.state with
    documents := l.state.documents.close uri
    settings := { l.state.settings with current := l.state.settings.current.erase uri } } }

theorem leaves_closeDocument_of_none {uri : String} (hc : l.state.settings.current.get? uri = none) :
    (closeDocument uri).leaves l = closed uri l := by
  unfold closeDocument
  rw [Act.leaves_bind, Act.returns_state, Act.leaves_state, Act.leaves_bind, hc]
  rfl

theorem leaves_closeDocument_of_some {uri : String} {f : TaskId} {F : SettingsFetch}
    (hc : l.state.settings.current.get? uri = some f) (hF : l.state.settings.fetches.get? f = some F) :
    (closeDocument uri).leaves l =
      match F.outcome with
      | none => (Act.cancel f : ServerAct Unit).leaves (closed uri l)
      | some _ => closed uri l := by
  unfold closeDocument
  rw [Act.leaves_bind, Act.returns_state, Act.leaves_state, Act.leaves_bind, hc]
  dsimp only
  rw [hF, Option.bind_some]
  cases F.outcome <;> rfl

theorem ofLoop_closed {task? : TaskId → Option (Suspended Operation Waiting)}
    {result? : TaskId → Option (Except Failure Result)} (uri : String) :
    ofLoop task? result? (closed uri l) =
      { ofLoop task? result? l with current? := update l.state.settings.current.get? uri none } := by
  unfold ofLoop closed
  simp only [Dict.get?_erase_eq_update]

theorem Serves.goes_closes (h : Serves source s) (uri : String) :
    Advances source s (.outside (.closes uri)) (s.advance serverMachine External.act (.outside (.closes uri))) := by
  show Advances source s _ (s.act (closeDocument uri)).2
  cases hc : s.state.settings.current.get? uri with
  | none =>
      have hl := leaves_closeDocument_of_none hc
      refine goes_act ?_ ?_
      · rw [hl]
        exact h.bare.state_eq rfl rfl rfl rfl
      · rw [hl, ofLoop_closed]
        refine .closes fun f F hf => ?_
        cases hc.symm.trans hf
  | some f =>
      have hu := h.orderly.current uri f hc
      cases hF : s.state.settings.fetches.get? f with
      | none =>
          rw [show (of s).fetch? f = none from hF] at hu
          cases hu
      | some F =>
          have hl := leaves_closeDocument_of_some hc hF
          cases ho : F.outcome with
          | some outcome =>
              rw [ho] at hl
              refine goes_act ?_ ?_
              · rw [hl]
                exact h.bare.state_eq rfl rfl rfl rfl
              · rw [hl, ofLoop_closed]
                refine .closes fun g G hg hG hgo => ?_
                cases hc.symm.trans hg
                cases hF.symm.trans hG
                cases ho.symm.trans hgo
          | none =>
              rw [ho] at hl
              dsimp only at hl
              rw [Act.leaves_cancel_of_gatherings_eq_nil (by exact h.bare.gatherings)] at hl
              refine goes_act ?_ ?_
              · rw [hl]
                exact h.bare.state_eq rfl rfl rfl rfl
              · rw [hl, ofLoop_givenUp, ofLoop_closed]
                exact .closesOutstanding hc

theorem Serves.goes_invalidates (h : Serves source s) :
    Advances source s (.outside .invalidates) (s.advance serverMachine External.act (.outside .invalidates)) := by
  refine goes_act (h.bare.state_eq rfl rfl rfl rfl) ?_
  exact .invalidates _

/-- What is shared after an answer of the client came, whether anybody waits for it or not. -/
def replied (index : Nat) (l : Loop ServerState Operation) : Loop ServerState Operation :=
  { l with state := { l.state with client := { l.state.client with
    requests := l.state.client.requests.eraseIdx index } } }

theorem leaves_reply (index : Nat) (answer : Except Failure Value) (l : Loop ServerState Operation) :
    (Reception.reply index answer).leaves l =
      match l.state.client.requests[index]? with
      | none => l
      | some r =>
        if r.abandoned then replied index l
        else
          { replied index l with
            state := { (replied index l).state with client := { (replied index l).state.client with
              answers := l.state.client.answers.insert r.task answer } }
            ready := l.ready ++ [⟨r.task, .go, 0⟩] } := by
  unfold Reception.reply
  rw [Act.leaves_bind, Act.returns_state, Act.leaves_state]
  dsimp only
  cases l.state.client.requests[index]? with
  | none => rfl
  | some r =>
      dsimp only
      rw [Act.leaves_bind, Act.leaves_ite]
      congr 1

theorem Serves.goes_reply (h : Serves source s) (index : Nat) (answer : Except Failure Value) :
    Advances source s (.outside (.reply index answer))
      (s.advance serverMachine External.act (.outside (.reply index answer))) := by
  have hact : ∀ l, (Reception.reply index answer).leaves s.loop = l → IsBare source l →
      SettingsDesk.Step source (of s) (.outside (.reply index answer)) (ofLoop s.task? s.result? l) →
      Advances source s (.outside (.reply index answer)) (s.act (discard (Reception.reply index answer))).2 := by
    rintro l rfl hl hs
    exact goes_act hl hs
  have hl := leaves_reply index answer s.loop
  cases hi : s.loop.state.client.requests[index]? with
  | none =>
      rw [hi] at hl
      exact hact _ hl h.bare (.rests (fun e he => ⟨index, answer, (Session.Move.outside.inj he).symm⟩) nofun)
  | some r =>
      rw [hi] at hl
      dsimp only at hl
      cases ha : r.abandoned with
      | true =>
          rw [ha, if_pos rfl] at hl
          exact hact _ hl (h.bare.state_eq rfl rfl rfl rfl) 
            (.dismisses _ index answer fun r' hr' => Option.some.inj (hi.symm.trans hr') ▸ ha)
      | false =>
          rw [ha, if_neg Bool.false_ne_true] at hl
          refine hact _ hl (h.bare.state_eq rfl rfl rfl rfl) ?_
          have hstep : SettingsDesk.Step source (of s) _ _ := .answers hi answer
          refine Eq.mp (congrArg (SettingsDesk.Step source (of s) _) ?_) hstep
          exact congrArg (fun answer? => ({ of s with
            ready := s.loop.ready ++ [⟨r.task, .go, 0⟩]
            requests := s.state.client.requests.eraseIdx index
            answer? } : SettingsDesk)) (Dict.get?_insert_eq_update ..).symm

/-- Every move goes as the desk has it. -/
theorem Serves.goes (h : Serves source s) (hm : IsOfSettings move) :
    Advances source s move (s.advance serverMachine External.act move) := by
  cases move with
  | turn => exact h.goes_turn
  | cancels task => exact h.goes_cancels task
  | passes task signal => exact h.goes_passes task signal
  | closes gate => exact goes_act (h.bare.state_eq rfl rfl rfl rfl) (.rests (fun _ he => by cases he) nofun)
  | opens gate => exact goes_act (h.bare.state_eq rfl rfl rfl rfl) (.rests (fun _ he => by cases he) nofun)
  | outside e =>
      unfold IsOfSettings at hm
      split at hm
      · rename_i uri he
        cases he
        exact h.goes_asks uri
      · rename_i uri he
        cases he
        exact h.goes_closes uri
      · rename_i he
        cases he
        exact h.goes_invalidates
      · rename_i index answer he
        cases he
        exact h.goes_reply index answer
      · exact hm.elim
      · rename_i hne
        exact (hne _ rfl).elim

end Server

end InkServer
