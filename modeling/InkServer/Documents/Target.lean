import InkServer.Documents

/-!
# What a command is about

A command names a document by its URI, or brings the document along.
-/

namespace InkServer

/-- A document that a command is about. -/
inductive DocumentTarget where
  | document (document : OpenDocument)
  | uri (uri : String)
  deriving DecidableEq, Repr

namespace DocumentTarget

/-- The version that a value stands for; what counts as absent is version zero. -/
def version (v : Value) : Except Failure Int :=
  if v.isTruthy then
    match v with
    | .int i => .ok i
    | .bool b => .ok (if b then 1 else 0)
    | .str s => (Integer.ofText s).mapError .integer
    | .float x =>
      match x, x.truncate? with
      | _, some i => .ok i
      | .nan, none => .error (.value "cannot convert float NaN to integer")
      | _, none => .error (.overflow "cannot convert float infinity to integer")
    | v =>
      .error (.kind ("int() argument must be a string, a bytes-like object or a real number, not '" ++
        v.kindName ++ "'"))
  else .ok 0

/-- What a command is given: a value of the client, or a target that is known already. -/
inductive Argument where
  | value (v : Value)
  | target (t : DocumentTarget)

/-- The target that an argument of a command stands for, and a note if it stands for none. -/
def ofArgument (argument : Argument) : Except Failure (Option DocumentTarget × Option String) := do
  match argument with
  | .target t => pure (some t, none)
  | .value .null => pure (none, none)
  | .value (.str name) => pure (some (.uri name), none)
  | .value v =>
    match v.get? "uri", v.get? "text" with
    | some (.str name), some (.str text) =>
      let version ← version (v.field "version")
      pure (some (.document ⟨name, version, text⟩), none)
    | some (.str name), _ => pure (some (.uri name), none)
    | _, _ => pure (none, some ("Ignoring unsupported document argument: " ++ v.shown))

end DocumentTarget

end InkServer
