import InkServer.State

/-!
# Looking up the settings of a document

The client is asked once for the settings of a document, and everybody who needs them meanwhile waits for
the same answer. The answer holds until the document is closed or the configuration changes. Whatever
goes wrong, there are settings to go on with.
-/

namespace InkServer

open ServerAct

/-! ## Asking -/

/-- Where a request for settings waits: for its turn, or for the client. -/
inductive SettingsRequest where
  | held (uri : String)
  | asking

namespace SettingsRequest

/-- Changes what is known of the settings. -/
def updateCache (f : SettingsCache → SettingsCache) : ServerAct Unit :=
  Act.modifyState fun s => { s with settings := f s.settings }

/-- Ends a request: those who wait for it go on. -/
def finish (outcome : Except Failure Settings) : ServerAct (Step SettingsRequest Settings) := do
  let task ← Act.self
  let waiting := (((← Act.state).settings.fetches.get? task).map (·.waiting)).getD []
  updateCache fun c =>
    { c with fetches := c.fetches.modify task fun f => { f with outcome := some outcome, waiting := [] } }
  waiting.forM fun t => Act.wake t .go 1
  pure (.ends outcome)

/-- The settings that an answer stands for. -/
def ofAnswer (answer : Value) : Except Failure Settings :=
  match Settings.normalize answer with
  | .ok n => .ok n.settings
  | .error e => .error (.settings e)

/-- The answer for a document, or the failure that comes in its place. -/
def answerFor (byUri : Dict String Value) (uri : String) : Except Failure Value :=
  let answer := ((byUri.get? uri).or (byUri.get? "*")).getD .null
  match answer.get? "fail" with
  | some text => .error (.runtime text.plain)
  | none => .ok answer

/-- Reads the answer that is known beforehand. -/
def readAnswer (uri : String) : ServerAct (Step SettingsRequest Settings) := do
  match (← Act.state).settings.source with
  | .answers byUri => finish (answerFor byUri uri >>= ofAnswer)
  | _ => finish (ofAnswer .null)

/-- The request for the settings of a document as the client gets it. -/
def message (uri : String) : Value :=
  .object [("method", .str "workspace/configuration"),
    ("params", .object [("items", .list [.object [
      ("scopeUri", .str uri), ("section", .str Settings.configurationSection)]])])]

/-- Asks for the settings of a document. -/
def start (uri : String) (signal : Signal) : ServerAct (Step SettingsRequest Settings) := do
  match signal, (← Act.state).settings.source with
  | .go, .answers _ =>
    note (.fetched uri)
    Act.through "settings" (.held uri) (readAnswer uri)
  | .go, .client =>
    let task ← Act.self
    note (.sent (message uri))
    Act.modifyState fun s =>
      { s with client := { s.client with requests := s.client.requests ++ [⟨task, false⟩] } }
    pure (.waits .asking)
  | .go, .nobody => finish (.ok .defaults)
  | _, _ => finish (.error .cancelled)

/-- The first item of an answer of the client. -/
def firstItem (answer : Value) : Value :=
  match answer with
  | .list (item :: _) => item
  | _ => .null

/-- Takes the answer of the client. -/
def takeAnswer : ServerAct (Step SettingsRequest Settings) := do
  let task ← Act.self
  let answer := ((← Act.state).client.answers.get? task).getD (.ok .null)
  finish (answer >>= fun v => ofAnswer (firstItem v))

/-- Stops waiting for the client. -/
def abandon : ServerAct Unit := do
  let task ← Act.self
  Act.modifyState fun s =>
    { s with client := { s.client with
        requests := s.client.requests.map fun r =>
          if r.task = task then { r with abandoned := true } else r } }

/-- Goes on with a request after a wait. -/
def resume (state : SettingsRequest) (signal : Signal) : ServerAct (Step SettingsRequest Settings) :=
  match state, signal with
  | .held uri, .go => readAnswer uri
  | .held _, _ => finish (.error .cancelled)
  | .asking, .go => takeAnswer
  | .asking, _ => do
    abandon
    finish (.error .cancelled)

end SettingsRequest

/-! ## Looking up -/

/-- Somebody who waits for the settings of a document. -/
structure SettingsLookup where
  uri : String
  fetch : TaskId

namespace SettingsLookup

open SettingsRequest

/-- What the outcome of a request means for somebody who waits for it. A request that failed is not kept. -/
def conclude (state : SettingsLookup) (outcome : Except Failure Settings) :
    ServerAct (Step SettingsLookup Settings) := do
  match outcome with
  | .ok settings => pure (.done settings)
  | .error .cancelled => pure (.done .defaults)
  | .error _ =>
    updateCache fun c =>
      if c.current.get? state.uri = some state.fetch then { c with current := c.current.erase state.uri }
      else c
    pure (.done .defaults)

/-- The request for a document that holds, or a new one. -/
def currentFetch (uri : String) : ServerAct TaskId := do
  match (← Act.state).settings.current.get? uri with
  | some fetch => pure fetch
  | none =>
    let fetch ← Act.create (.fetchSettings uri)
    updateCache fun c =>
      { c with current := c.current.insert uri fetch, fetches := c.fetches.insert fetch { uri } }
    pure fetch

/-- Whether there is anybody to ask. -/
def canAsk (c : SettingsCache) : Bool :=
  c.isCapable && match c.source with
    | .nobody => false
    | _ => true

/-- Looks up the settings of a document. -/
def start (uri : String) : ServerAct (Step SettingsLookup Settings) := do
  if canAsk (← Act.state).settings then
    let fetch ← currentFetch uri
    match ((← Act.state).settings.fetches.get? fetch).bind (·.outcome) with
    | some outcome => conclude ⟨uri, fetch⟩ outcome
    | none =>
      let task ← Act.self
      updateCache fun c =>
        { c with fetches := c.fetches.modify fetch fun f => { f with waiting := f.waiting ++ [task] } }
      pure (.waits ⟨uri, fetch⟩)
  else pure (.done .defaults)

/-- Goes on with a look-up after a wait. -/
def resume (state : SettingsLookup) (signal : Signal) : ServerAct (Step SettingsLookup Settings) := do
  match signal, ((← Act.state).settings.fetches.get? state.fetch).bind (·.outcome) with
  | .go, some outcome => conclude state outcome
  | .go, none => pure (.done .defaults)
  | _, some (.error .cancelled) => pure (.done .defaults)
  | _, _ =>
    let task ← Act.self
    updateCache fun c =>
      { c with fetches := c.fetches.modify state.fetch fun f =>
          { f with waiting := f.waiting.filter (· ≠ task) } }
    pure (.fail .cancelled)

end SettingsLookup

/-! ## When settings no longer hold -/

/-- Forgets the settings of every document. -/
def invalidateSettings : ServerAct Unit :=
  SettingsRequest.updateCache fun c => { c with current := {} }

/-- Forgets a closed document and its settings; nobody waits for them any longer. -/
def closeDocument (uri : String) : ServerAct Unit := do
  let s ← Act.state
  Act.setState { s with
    documents := s.documents.close uri
    settings := { s.settings with current := s.settings.current.erase uri } }
  match s.settings.current.get? uri with
  | none => pure ()
  | some fetch =>
    match (s.settings.fetches.get? fetch).bind (·.outcome) with
    | none => Act.cancel fetch
    | some _ => pure ()

end InkServer
