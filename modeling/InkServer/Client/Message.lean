import InkServer.State

/-!
# Messages to the client

What the server sends: notifications, requests and responses, and how diagnostics and notices are written
in them. Fields that have nothing to say are left out of what the server sends on its own account.
-/

namespace InkServer.Message

/-! ## Kinds of messages -/

/-- A message that the other side does not answer, or a request before it has a number. -/
def call (method : String) (params : Value) : Value :=
  .object [("method", .str method), ("params", params)]

/-- The answer to a request. -/
def response (id result : Value) : Value := .object [("id", id), ("result", result)]

/-- The answer to a request that failed. -/
def failure (id : Value) (code : Int) (text : String) : Value :=
  .object [("id", id), ("error", .object [("code", .int code), ("message", .str text)])]

/-- There is no such method. -/
def methodNotFound : Int := -32601

/-- What a request asks for does not make sense. -/
def invalidParams : Int := -32602

/-- The server failed. -/
def internalError : Int := -32603

/-- The request was given up. -/
def requestCancelled : Int := -32800

/-! ## What the server tells -/

def position (p : Position) : Value :=
  .object [("line", .nat p.line), ("character", .nat p.character)]

def range (r : Range) : Value := .object [("start", position r.start), ("end", position r.stop)]

/-- A field that is there only if it has a value. -/
def field? (key : String) (v : Option Value) : List (String × Value) := (v.map fun v => (key, v)).toList

def diagnostic (d : Diagnostic) : Value :=
  .object ([("range", range d.range), ("message", .str d.message)] ++
    field? "severity" (d.severity.map fun s => .nat s.code) ++
    field? "source" (d.source.map .str))

/-- Diagnostics of a document, with its version if it is open. -/
def publication (p : Publication) : Value :=
  call "textDocument/publishDiagnostics" (.object ([("uri", .str p.uri)] ++
    field? "version" (p.version.map .int) ++
    [("diagnostics", .list (p.diagnostics.map diagnostic))]))

/-- Something for the user to read. -/
def notice (n : Notice) : Value :=
  call "window/showMessage" (.object [("type", .nat n.code), ("message", .str n.text)])

/-- The message of an event, if the client hears of it. -/
def ofEvent? : Event → Option Value
  | .published p => some (publication p)
  | .noticed n => some (notice n)
  | .sent message => some message
  | _ => none

end InkServer.Message
