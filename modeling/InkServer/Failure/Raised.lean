import InkServer.OsError
import InkServer.Value

/-!
# Errors by what they carry

An error that came from elsewhere is a kind and the values it carries. Its message follows from them: one
value is the message, several are shown as a tuple, and errors of the operating system tell the cause and
the file.
-/

namespace InkServer

/-- An error of some kind with the values it carries. -/
structure Raised where
  kind : String
  carried : List Value
  deriving Repr

namespace Raised

/-- The kind of all errors of the operating system. -/
def systemKind : String := "OSError"

/-- The kinds of errors of the operating system. -/
def systemKinds : List String := [
  systemKind, "FileNotFoundError", "FileExistsError", "NotADirectoryError", "IsADirectoryError",
  "PermissionError", "ProcessLookupError", "InterruptedError", "ChildProcessError", "BlockingIOError",
  "ConnectionError", "BrokenPipeError", "ConnectionAbortedError", "ConnectionResetError",
  "ConnectionRefusedError", "TimeoutError"]

def isSystem (e : Raised) : Bool := systemKinds.contains e.kind

/-- The kind of an error, which for one of the operating system follows from its cause. -/
def kindName (e : Raised) : String :=
  if e.kind = systemKind && 2 ≤ e.carried.length && e.carried.length ≤ 5 then
    match e.carried.head?.bind Value.nat? with
    | some code => (Errno.ofCode code).family
    | none => e.kind
  else e.kind

/-- Values as a tuple. -/
def tuple (vs : List Value) : String := "(" ++ String.intercalate ", " (Value.shownItems vs) ++ ")"

/-- The message of values that say nothing about the operating system. -/
def plainMessage : List Value → String
  | [] => ""
  | [v] => v.plain
  | vs => tuple vs

/-- The message about a cause, which may name a file. -/
def systemMessage (code text : Value) (file : String) : String :=
  s!"[Errno {code.plain}] {text.plain}" ++ file

def message (e : Raised) : String :=
  if e.kind = "KeyError" then
    match e.carried with
    | [v] => v.shown
    | vs => plainMessage vs
  else if e.isSystem then
    match e.carried with
    | [code, text] => systemMessage code text ""
    | [code, text, .null] | [code, text, .null, _] | [code, text, .null, _, _] =>
      systemMessage code text ""
    | [code, text, file] | [code, text, file, _] | [code, text, file, _, .null] =>
      systemMessage code text (": " ++ file.shown)
    | [code, text, file, _, other] => systemMessage code text (": " ++ file.shown ++ " -> " ++ other.shown)
    | vs => plainMessage vs
  else plainMessage e.carried

end Raised

end InkServer
