import InkServer.Task

/-!
# Handing events to handlers

Document events reach the server once and are handed to every handler that has asked for them, in the
order in which they asked. A handler that fails keeps nobody else from being called, and handlers that
come or go meanwhile do not change who is called for an event that is under way.
-/

namespace InkServer

/-- The handlers that asked for events, by name, and whether the events are wired to the server. -/
structure Subscribers where
  handlers : List String := []
  isWired : Bool := false
  deriving DecidableEq, Repr

namespace Subscribers

/-- Adds a handler; one that is there already stays where it is. -/
def register (c : Subscribers) (handler : String) : Subscribers :=
  if handler ∈ c.handlers then c else { c with handlers := c.handlers ++ [handler] }

/-- Takes a handler out; says whether it was there. -/
def unregister (c : Subscribers) (handler : String) : Bool × Subscribers :=
  (handler ∈ c.handlers, { c with handlers := c.handlers.filter (· ≠ handler) })

def clear (c : Subscribers) : Subscribers := { c with handlers := [] }

/-- The events of documents and what handlers are asked to do about them. -/
def events : List (String × String) := [
  ("textDocument/didOpen", "handle_document_open"),
  ("textDocument/didChange", "handle_document_change"),
  ("textDocument/didSave", "handle_document_save"),
  ("textDocument/didClose", "handle_document_close")]

/-- Wires the events to the server. Without handlers there is nothing to wire. -/
def wire (c : Subscribers) : Except Failure Subscribers :=
  if c.isWired then .ok c
  else if c.handlers.isEmpty then .error (.runtime "Cannot register with server: no handlers registered")
  else .ok { c with isWired := true }

/-- The events that are wired to the server. -/
def wiredEvents (c : Subscribers) : List String := if c.isWired then events.map Prod.fst else []

/-- What handlers are asked to do about an event that is wired. -/
def wiredMethod? (c : Subscribers) (event : String) : Option String :=
  if c.isWired then (events.find? fun e => e.1 = event).map Prod.snd else none

/-! ## Handing out one event -/

/-- An event under way: a handler is busy with it, and the rest have yet to be called. -/
structure Distribution (ι π : Type) where
  method : String
  params : π
  rest : List String
  busy : ι

/-- Where the subscribers are kept, and how a handler is called: `none` if it has nothing to be called for
the event. -/
structure Handlers (σ ω ι π : Type) where
  get : σ → Subscribers
  call : (handler method : String) → π → Act σ ω (Option (Step ι Unit))
  resume : ι → Signal → Act σ ω (Step ι Unit)

namespace Handlers

variable {σ ω ι π : Type} (env : Handlers σ ω ι π)

/-- Calls handlers one after the other. Whatever goes wrong in one is its own affair, but an event that is
to be given up is given up. -/
def callAll (method : String) (params : π) : List String → Act σ ω (Step (Distribution ι π) Unit)
  | [] => pure (.done ())
  | handler :: rest => do
    match ← env.call handler method params with
    | some (.waits busy) => pure (.waits ⟨method, params, rest, busy⟩)
    | some (.ends (.error .cancelled)) => pure (.fail .cancelled)
    | _ => callAll method params rest

/-- Hands an event to the handlers there are now. -/
def distribute (method : String) (params : π) : Act σ ω (Step (Distribution ι π) Unit) := do
  env.callAll method params (env.get (← Act.state)).handlers

/-- Goes on with an event after a wait of the handler that is busy with it. -/
def resumeDistribution (d : Distribution ι π) (signal : Signal) :
    Act σ ω (Step (Distribution ι π) Unit) := do
  match ← env.resume d.busy signal with
  | .waits busy => pure (.waits { d with busy })
  | .ends (.error .cancelled) => pure (.fail .cancelled)
  | .ends _ => env.callAll d.method d.params d.rest

end Handlers

/-! ## What the operations do to the handlers -/

theorem handlers_register (c : Subscribers) (h : String) :
    (c.register h).handlers = if h ∈ c.handlers then c.handlers else c.handlers ++ [h] := by
  unfold register
  split <;> rfl

/-- No handler is there twice. -/
theorem nodup_register {c : Subscribers} {h : String} (nodup : c.handlers.Nodup) :
    (c.register h).handlers.Nodup := by
  rw [handlers_register]
  split
  · exact nodup
  · rename_i fresh
    rw [List.nodup_append]
    refine ⟨nodup, by simp, ?_⟩
    intro a ha b hb heq
    rw [List.mem_singleton] at hb
    subst hb heq
    exact fresh ha

end Subscribers

end InkServer
