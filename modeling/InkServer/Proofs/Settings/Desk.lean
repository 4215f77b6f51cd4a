import InkServer.Proofs.Server.Runs
import Mathlib.Logic.Function.Basic

/-!
# Who asks for settings

Look-ups and the requests that they share are all that a server does with the settings of documents while
nothing else is asked of it. `SettingsDesk` is what they work with, and `SettingsDesk.Step` says what one move
makes of it: one constructor for each thing that can happen. Nothing later looks into the operations again.
-/

namespace InkServer

open Function (update)

namespace Dict

variable {κ α : Type} [DecidableEq κ]

theorem get?_insert_eq_update (d : Dict κ α) (k : κ) (v : α) : (d.insert k v).get? = update d.get? k (some v) := by
  funext k'
  rw [get?_insert, Function.update_apply]
  simp only [eq_comm]

theorem get?_erase_eq_update (d : Dict κ α) (k : κ) : (d.erase k).get? = update d.get? k none := by
  funext k'
  rw [get?_erase, Function.update_apply]
  simp only [eq_comm]

theorem get?_modify_of_get? {d : Dict κ α} {k : κ} {v : α} (h : d.get? k = some v) (f : α → α) :
    (d.modify k f).get? = update d.get? k (some (f v)) := by
  unfold modify
  rw [h]
  exact get?_insert_eq_update d k (f v)

end Dict

namespace Session

variable {σ ω τ ρ : Type} {s : Session σ ω τ ρ}

/-- Where a task is left out it is gone. -/
theorem task?_without (task : TaskId) {tasks : List (TaskId × Suspended ω τ)} (ht : tasks = s.without task) :
    ({ s with tasks } : Session σ ω τ ρ).task? = update s.task? task none := by
  subst ht
  funext t
  rw [Function.update_apply]
  unfold task?
  rw [find?_without]
  split <;> rfl

theorem task?_append (task : TaskId) {tasks : List (TaskId × Suspended ω τ)} {x : Suspended ω τ}
    (ht : tasks = s.tasks ++ [(task, x)]) (hn : s.task? task = none) :
    ({ s with tasks } : Session σ ω τ ρ).task? = update s.task? task (some x) := by
  subst ht
  funext t
  rw [Function.update_apply]
  unfold task? at hn ⊢
  rw [List.find?_append]
  by_cases h : t = task
  · subst h
    rw [Option.map_eq_none_iff] at hn
    rw [hn]
    simp
  · rw [if_neg h]
    have hf : (([(task, x)] : List (TaskId × Suspended ω τ)).find? fun e => e.1 = t) = none := by
      simpa using Ne.symm h
    rw [hf, Option.or_none]

theorem result?_append (task : TaskId) {ended : List (TaskId × Except Failure ρ)} {r : Except Failure ρ}
    (he : ended = s.ended ++ [(task, r)]) (hn : s.result? task = none) :
    ({ s with ended } : Session σ ω τ ρ).result? = update s.result? task (some r) := by
  subst he
  funext t
  rw [Function.update_apply]
  unfold result? at hn ⊢
  rw [List.find?_append]
  by_cases h : t = task
  · subst h
    rw [Option.map_eq_none_iff] at hn
    rw [hn]
    simp
  · rw [if_neg h]
    have hf : (([(task, r)] : List (TaskId × Except Failure ρ)).find? fun e => e.1 = t) = none := by
      simpa using Ne.symm h
    rw [hf, Option.or_none]

end Session

/-! ## The desk -/

/-- What look-ups and requests work with: the tasks that have not ended, the results of those that have, what is
to run next, and what is known of settings. -/
structure SettingsDesk where
  task? : TaskId → Option (Suspended Operation Waiting)
  result? : TaskId → Option (Except Failure Result)
  ready : List Wake
  /-- The task that is created next. -/
  next : TaskId
  atGates : List TaskId
  requests : List ClientRequest
  answer? : TaskId → Option (Except Failure Value)
  current? : String → Option TaskId
  fetch? : TaskId → Option SettingsFetch

/-- The settings that the outcome of a request leaves those with who waited for it. -/
def settingsOf : Except Failure Settings → Settings
  | .ok settings => settings
  | .error _ => .defaults

/-- Whether a request came to nothing otherwise than by being given up. -/
def isFailure : Except Failure Settings → Bool
  | .ok _ => false
  | .error .cancelled => false
  | .error _ => true

namespace SettingsDesk

/-- The desk of a loop whose tasks are known. -/
def ofLoop (task? : TaskId → Option (Suspended Operation Waiting))
    (result? : TaskId → Option (Except Failure Result)) (l : Loop ServerState Operation) : SettingsDesk where
  task?
  result?
  ready := l.ready
  next := l.nextTask
  atGates := l.atGates.map Prod.snd
  requests := l.state.client.requests
  answer? := l.state.client.answers.get?
  current? := l.state.settings.current.get?
  fetch? := l.state.settings.fetches.get?

/-- The desk of a server. -/
def of (s : Server) : SettingsDesk := ofLoop s.task? s.result? s.loop

/-- A request that has no outcome yet. -/
def IsOutstanding (d : SettingsDesk) (f : TaskId) (uri : String) : Prop :=
  ∃ F, d.fetch? f = some F ∧ F.uri = uri ∧ F.outcome = none

/-- What a request finds when it goes on: the answer that is known beforehand, or that of the client. -/
def Finds (source : SettingsSource) (d : SettingsDesk) (f : TaskId) (uri : String)
    (answer : Except Failure Value) : Prop :=
  match source with
  | .nobody => False
  | .answers byUri => answer = SettingsRequest.answerFor byUri uri
  | .client => ∃ reply, d.answer? f = some reply ∧ answer = reply.map SettingsRequest.firstItem

/-- The settings that hold after somebody heard of the outcome of a request: one that failed is not kept. -/
def keptAfter (current? : String → Option TaskId) (uri : String) (f : TaskId) (outcome : Except Failure Settings) :
    String → Option TaskId :=
  if isFailure outcome ∧ current? uri = some f then update current? uri none else current?

variable (source : SettingsSource)

/-- What one move makes of the desk of a server. -/
inductive Step : SettingsDesk → Session.Move External → SettingsDesk → Prop where
  /-- A move may come to nothing, but nobody asks, closes or forgets anything in vain, and no turn is passed over. -/
  | rests {d : SettingsDesk} {move : Session.Move External}
      (hm : ∀ e, move = .outside e → ∃ index answer, e = .reply index answer) (ht : move = .turn → d.ready = []) :
      Step d move d
  /-- A task lets the others go first. -/
  | postpones {d : SettingsDesk} {w : Wake} {rest : List Wake} {n : Nat} (hr : d.ready = w :: rest)
      (hn : w.turns = n + 1) :
      Step d .turn { d with ready := rest ++ [⟨w.task, w.signal, n⟩] }
  /-- A task that has ended is not run. -/
  | idles {d : SettingsDesk} {w : Wake} {rest : List Wake} (hr : d.ready = w :: rest) (ht : d.task? w.task = none) :
      Step d .turn { d with ready := rest }
  | cancels {d : SettingsDesk} {task : TaskId} (ht : d.task? task ≠ none) :
      Step d (.cancels task)
        { d with ready := Act.giveUp d.ready task, atGates := d.atGates.filter (· ≠ task) }
  | passes {d : SettingsDesk} {task : TaskId} (hg : task ∈ d.atGates) (signal : Signal) :
      Step d (.passes task signal)
        { d with ready := d.ready ++ [⟨task, signal, 0⟩], atGates := d.atGates.filter (· ≠ task) }
  /-- Somebody asks for the settings of a document. -/
  | asks (d : SettingsDesk) (uri : String) :
      Step d (.outside (.asks (.resolveSettings uri)))
        { d with
          task? := update d.task? d.next (some (.created (.resolveSettings uri)))
          ready := d.ready ++ [⟨d.next, .go, 0⟩]
          next := d.next + 1 }
  | closes {d : SettingsDesk} {uri : String}
      (hc : ∀ f F, d.current? uri = some f → d.fetch? f = some F → F.outcome ≠ none) :
      Step d (.outside (.closes uri)) { d with current? := update d.current? uri none }
  /-- Nobody waits any longer for the settings of a document that is closed. -/
  | closesOutstanding {d : SettingsDesk} {uri : String} {f : TaskId} (hc : d.current? uri = some f) :
      Step d (.outside (.closes uri))
        { d with
          current? := update d.current? uri none
          ready := Act.giveUp d.ready f
          atGates := d.atGates.filter (· ≠ f) }
  | invalidates (d : SettingsDesk) : Step d (.outside .invalidates) { d with current? := fun _ => none }
  /-- The client answers a request that was given up. -/
  | dismisses (d : SettingsDesk) (index : Nat) (answer : Except Failure Value)
      (hi : ∀ r, d.requests[index]? = some r → r.abandoned = true) :
      Step d (.outside (.reply index answer)) { d with requests := d.requests.eraseIdx index }
  | answers {d : SettingsDesk} {index : Nat} {r : ClientRequest} (hi : d.requests[index]? = some r)
      (answer : Except Failure Value) :
      Step d (.outside (.reply index answer))
        { d with
          requests := d.requests.eraseIdx index
          answer? := update d.answer? r.task (some answer)
          ready := d.ready ++ [⟨r.task, .go, 0⟩] }
  /-- A look-up was cancelled before it began. -/
  | refuses {d : SettingsDesk} {w : Wake} {rest : List Wake} {uri : String} (hr : d.ready = w :: rest)
      (ht : d.task? w.task = some (.created (.resolveSettings uri))) (hs : w.signal ≠ .go) :
      Step d .turn
        { d with
          ready := rest
          task? := update d.task? w.task none
          result? := update d.result? w.task (some (.error .cancelled)) }
  /-- A look-up waits for a request that others wait for as well. -/
  | joins {d : SettingsDesk} {w : Wake} {rest : List Wake} {uri : String} {f : TaskId} {F : SettingsFetch}
      (hr : d.ready = w :: rest) (ht : d.task? w.task = some (.created (.resolveSettings uri)))
      (hc : d.current? uri = some f) (hf : d.fetch? f = some F) (ho : F.outcome = none) :
      Step d .turn
        { d with
          ready := rest
          task? := update d.task? w.task (some (.waiting (.lookingUp ⟨uri, f⟩)))
          fetch? := update d.fetch? f (some { F with waiting := F.waiting ++ [w.task] }) }
  /-- A look-up finds no request that holds and makes one. -/
  | asksAnew {d : SettingsDesk} {w : Wake} {rest : List Wake} {uri : String} (hr : d.ready = w :: rest)
      (ht : d.task? w.task = some (.created (.resolveSettings uri))) (hc : d.current? uri = none) :
      Step d .turn
        { d with
          ready := rest ++ [⟨d.next, .go, 0⟩]
          next := d.next + 1
          task? := update (update d.task? d.next (some (.created (.fetchSettings uri)))) w.task
            (some (.waiting (.lookingUp ⟨uri, d.next⟩)))
          current? := update d.current? uri (some d.next)
          fetch? := update d.fetch? d.next (some { uri, waiting := [w.task] }) }
  /-- A look-up ends with the outcome of a request: one that holds when the look-up begins, or the one that it
  waited for. -/
  | concludes {d : SettingsDesk} {w : Wake} {rest : List Wake} {uri : String} {f : TaskId} {F : SettingsFetch}
      {outcome : Except Failure Settings} (hr : d.ready = w :: rest)
      (ht : d.task? w.task = some (.created (.resolveSettings uri)) ∧ d.current? uri = some f ∨
        d.task? w.task = some (.waiting (.lookingUp ⟨uri, f⟩)))
      (hf : d.fetch? f = some F) (ho : F.outcome = some outcome) :
      Step d .turn
        { d with
          ready := rest
          task? := update d.task? w.task none
          result? := update d.result? w.task (some (.ok (.settings (settingsOf outcome))))
          current? := keptAfter d.current? uri f outcome }
  /-- A look-up that was cancelled stops waiting. -/
  | raises {d : SettingsDesk} {w : Wake} {rest : List Wake} {uri : String} {f : TaskId} {F : SettingsFetch}
      (hr : d.ready = w :: rest) (ht : d.task? w.task = some (.waiting (.lookingUp ⟨uri, f⟩)))
      (hs : w.signal ≠ .go) (hf : d.fetch? f = some F) :
      Step d .turn
        { d with
          ready := rest
          task? := update d.task? w.task none
          result? := update d.result? w.task (some (.error .cancelled))
          fetch? := update d.fetch? f (some { F with waiting := F.waiting.filter (· ≠ w.task) }) }
  /-- A request is kept waiting before it reads the answer. -/
  | holds {d : SettingsDesk} {w : Wake} {rest : List Wake} {uri : String} {byUri : Dict String Value}
      (hr : d.ready = w :: rest) (ht : d.task? w.task = some (.created (.fetchSettings uri)))
      (hs : w.signal = .go) (hsource : source = .answers byUri) :
      Step d .turn
        { d with
          ready := rest
          task? := update d.task? w.task (some (.waiting (.fetching (.held uri))))
          atGates := d.atGates ++ [w.task] }
  /-- A request is sent to the client. -/
  | sends {d : SettingsDesk} {w : Wake} {rest : List Wake} {uri : String} (hr : d.ready = w :: rest)
      (ht : d.task? w.task = some (.created (.fetchSettings uri))) (hs : w.signal = .go)
      (hsource : source = .client) :
      Step d .turn
        { d with
          ready := rest
          task? := update d.task? w.task (some (.waiting (.fetching .asking)))
          requests := d.requests ++ [⟨w.task, false⟩] }
  /-- A request ends, and those who wait for it are to go on. -/
  | finishes {d : SettingsDesk} {w : Wake} {rest : List Wake} {x : Suspended Operation Waiting} {F : SettingsFetch}
      {outcome : Except Failure Settings} {requests : List ClientRequest} (hr : d.ready = w :: rest)
      (ht : d.task? w.task = some x) (hf : d.fetch? w.task = some F)
      (hq : requests.map (·.task) = d.requests.map (·.task))
      (hs : w.signal ≠ .go → outcome = .error .cancelled)
      (hv : w.signal = .go → ∃ answer, Finds source d w.task F.uri answer ∧
        outcome = answer >>= SettingsRequest.ofAnswer)
      (hk : ∀ r ∈ d.requests, r.task ≠ w.task → r ∈ requests) :
      Step d .turn
        { d with
          ready := rest ++ F.waiting.map fun t => ⟨t, .go, 1⟩
          task? := update d.task? w.task none
          result? := update d.result? w.task (some (outcome.map .settings))
          requests
          fetch? := update d.fetch? w.task (some { F with outcome := some outcome, waiting := [] }) }

end SettingsDesk

end InkServer
