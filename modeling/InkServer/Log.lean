import InkServer.Text.Case

/-!
# The log

What is written to the log and what is left out. A record is one line; only the grave ones are shown
unless somebody is looking for a fault.
-/

namespace InkServer.Log

/-! ## Switches of the environment -/

/-- The texts that switch something on, whatever their letter case. -/
def affirmatives : List String := ["1", "true", "yes"]

/-- Whether a variable of the environment switches something on; `default` holds while it is unset or
empty. -/
def flag (value : Option String) (default : Bool) : Bool :=
  match value with
  | none => default
  | some text => if text = "" then default else affirmatives.contains (Text.lower text)

/-! ## Records -/

/-- How grave a record is; greater numbers are graver. -/
abbrev Level := Int

def debug : Level := 10

def information : Level := 20

def warning : Level := 30

def error : Level := 40

def critical : Level := 50

/-- The name of a level; one between the usual levels is named by its number. -/
def levelName (level : Level) : String :=
  if level = 0 then "NOTSET"
  else if level = debug then "DEBUG"
  else if level = information then "INFO"
  else if level = warning then "WARNING"
  else if level = error then "ERROR"
  else if level = critical then "CRITICAL"
  else s!"Level {level}"

/-- Something worth noting, and the part of the server that notes it. -/
structure Record where
  level : Level
  origin : String
  message : String
  deriving DecidableEq, Repr

/-- The line of a record. -/
def Record.line (r : Record) : String := levelName r.level ++ ":" ++ r.origin ++ ":" ++ r.message

/-- The least grave records that are shown. -/
def threshold (debugging : Bool) : Level := if debugging then debug else warning

/-- Whether faults are being searched for: somebody asked for it, or the environment does. -/
def isDebugging (asked : Bool) (variable_ : Option String) : Bool := asked || flag variable_ false

end InkServer.Log
