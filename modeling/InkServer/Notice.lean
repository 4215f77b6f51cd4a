/-!
# Messages for the user

What the user gets to read, and how grave it is. A message that cannot be sent is dropped; the others are
sent all the same.
-/

namespace InkServer

/-- A message for the user. -/
inductive Notice where
  | error (text : String)
  | warning (text : String)
  | information (text : String)
  /-- The server itself is in trouble; the text says more, if there is one. -/
  | serverError (text : Option String)
  deriving DecidableEq, Repr

namespace Notice

/-- The message that says that the server is in trouble. -/
def serverTrouble : String :=
  "The Ink language server encountered an error. Check the server log for more information."

/-- The type of a message in the protocol. -/
def code : Notice → Nat
  | .error _ => 1
  | .warning _ => 2
  | .information _ => 3
  | .serverError _ => 1

/-- What the user gets to read. -/
def text : Notice → String
  | .error text => text
  | .warning text => text
  | .information text => text
  | .serverError none => serverTrouble
  | .serverError (some "") => serverTrouble
  | .serverError (some text) => serverTrouble ++ " (" ++ text ++ ")"

/-- The messages that arrive if sending some texts fails. -/
def arriving (failing : String → Bool) (notices : List Notice) : List Notice :=
  notices.filter fun n => !failing n.text

end Notice

end InkServer
