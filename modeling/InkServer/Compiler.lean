import InkServer.Compiler.Timeout
import InkServer.Failure

/-!
# The compiler's command line

Which program is run for a compile and with what arguments: settings of the document come before the
configuration of the server.
-/

namespace InkServer

/-- How the compiler is run: the usual executable, words that go in front of it, and how long it may take;
without a limit it may take any time. -/
structure Compiler where
  executable : Option Value := none
  launcher : List String := []
  timeout : Option Seconds := some default

namespace Compiler

/-- The program that is run if none is named. -/
def defaultExecutable : String := "inklecate"

/-- The program that a compile runs. -/
def program (c : Compiler) (settings : Settings) : Value :=
  match settings.executable? with
  | some v => v
  | none =>
    match c.executable.filter Value.isTruthy with
    | some v => v
    | none => .str defaultExecutable

/-- The words in front of the program. -/
def launchWords (c : Compiler) (settings : Settings) : List String :=
  if c.launcher.isEmpty && settings.runsThroughMono then ["mono"] else c.launcher

/-- The command line that compiles `entry` to `output`. -/
def command (c : Compiler) (settings : Settings) (entry output : Path) : List Value :=
  (c.launchWords settings).map .str ++
    [c.program settings, .str "-o", .str output.text, .str entry.text]

/-- The words of a command line, all of which have to be texts. -/
def wordsFrom (index : Nat) : List Value → Except Failure (List String)
  | [] => .ok []
  | .str word :: rest => (wordsFrom (index + 1) rest).map fun words => word :: words
  | v :: _ => .error (.word index v.kindName)

def words (command : List Value) : Except Failure (List String) := wordsFrom 0 command

/-- The entry file of a compile: the given one, or the main story of the settings. -/
def entryPath (settings : Settings) (entry : Option Path) : Except Failure Path :=
  match entry with
  | some p => .ok p
  | none => (settings.mainStory.map Path.ofText).mapError .story

end Compiler

end InkServer
