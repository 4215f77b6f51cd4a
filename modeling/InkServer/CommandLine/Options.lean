import InkServer.Number.Integer
import InkServer.Path
import InkServer.Text.Similar

/-!
# Options of a command line

Arguments are read from left to right. An option that takes a value takes the next argument whatever it
looks like, or what follows its equals sign; two dashes alone end the options.
-/

namespace InkServer.CommandLine

/-- An option by its name, dashes included. -/
structure Flag where
  name : String
  takesValue : Bool := false
  deriving DecidableEq, Repr

/-- Why a command line makes no sense. -/
inductive UsageError where
  | unknownOption (name : String) (similar : List String)
  | unknownCommand (name : String) (similar : List String)
  | missingValue (name : String)
  | needlessValue (name : String)
  | notInteger (name value : String)
  | directory (name value : String)
  | extraArguments (arguments : List String)
  deriving DecidableEq, Repr

namespace UsageError

/-- What somebody may have meant. -/
def suggestion : List String → String
  | [] => ""
  | [word] => " Did you mean " ++ Text.quoted word ++ "?"
  | words =>
    let sorted := words.mergeSort fun a b => decide (a ≤ b)
    " (Did you mean one of: " ++ String.intercalate ", " (sorted.map Text.quoted) ++ "?)"

def message : UsageError → String
  | .unknownOption name similar => s!"No such option {Text.quoted name}." ++ suggestion similar
  | .unknownCommand name similar => s!"No such command {Text.quoted name}." ++ suggestion similar
  | .missingValue name => s!"Option {Text.quoted name} requires an argument."
  | .needlessValue name => s!"Option {Text.quoted name} does not take a value."
  | .notInteger name value =>
    s!"Invalid value for {Text.quoted name}: {Text.quoted value} is not a valid integer."
  | .directory name value =>
    s!"Invalid value for {Text.quoted name}: File {Text.quoted value} is a directory."
  | .extraArguments [argument] => s!"Got unexpected extra argument ({argument})"
  | .extraArguments arguments =>
    "Got unexpected extra arguments (" ++ String.intercalate " " arguments ++ ")"

/-- Whether the usage of the command is shown along with the message. -/
def showsUsage : UsageError → Bool
  | .missingValue _ => false
  | .needlessValue _ => false
  | _ => true

end UsageError

/-! ## Reading -/

/-- What was read: the options with their values in the order in which they came, and the other
arguments. -/
structure Reading where
  options : List (String × String) := []
  arguments : List String := []
  deriving DecidableEq, Repr

/-- An argument that starts with a dash and is more than that. -/
def looksLikeOption (argument : String) : Bool :=
  match argument.toList with
  | '-' :: _ :: _ => true
  | _ => false

/-- The name of an option and what follows its equals sign. -/
def splitValue (argument : String) : String × Option String :=
  let cs := argument.toList
  match cs.dropWhile (· ≠ '=') with
  | _ :: value => (String.ofList (cs.takeWhile (· ≠ '=')), some (String.ofList value))
  | [] => (argument, none)

/-- The error about an option that nobody knows. With a single dash it is told by its first letter. -/
def unknown (flags : List Flag) (argument name : String) : UsageError :=
  match argument.toList with
  | '-' :: '-' :: _ => .unknownOption name (Text.closeWords (flags.map (·.name)) name)
  | '-' :: letter :: _ => .unknownOption (String.ofList ['-', letter]) []
  | _ => .unknownOption name []

/-- Adds an option to what is read after it. -/
def Reading.withOption (name value : String) (r : Reading) : Reading :=
  { r with options := (name, value) :: r.options }

def Reading.withArgument (argument : String) (r : Reading) : Reading :=
  { r with arguments := argument :: r.arguments }

/-- Reads arguments. With `mixed`, options may come after other arguments; without, the first argument
that is no option ends them. -/
def read (flags : List Flag) (mixed : Bool) : List String → Except UsageError Reading
  | [] => .ok {}
  | argument :: rest =>
    if argument = "--" then .ok { arguments := rest }
    else if looksLikeOption argument then
      let (name, value?) := splitValue argument
      match flags.find? fun f => f.name = name with
      | none => .error (unknown flags argument name)
      | some flag =>
        if flag.takesValue then
          match value?, rest with
          | some value, rest => (read flags mixed rest).map (·.withOption name value)
          | none, value :: rest => (read flags mixed rest).map (·.withOption name value)
          | none, [] => .error (.missingValue name)
        else
          match value? with
          | some _ => .error (.needlessValue name)
          | none => (read flags mixed rest).map (·.withOption name "")
    else if mixed then (read flags mixed rest).map (·.withArgument argument)
    else .ok { arguments := argument :: rest }

namespace Reading

def has (r : Reading) (name : String) : Bool := r.options.any fun o => o.1 = name

/-- The value of an option; one that comes twice has its last value. -/
def value? (r : Reading) (name : String) : Option String :=
  ((r.options.filter fun o => o.1 = name).getLast?).map Prod.snd

/-- The names of the options in the order in which each came first. -/
def names (r : Reading) : List String := (r.options.map Prod.fst).eraseDups

end Reading

end InkServer.CommandLine
