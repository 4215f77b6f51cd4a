import InkServer.CommandLine.Run
import InkServer.FileSystem.Layout

/-!
# The program

Reads the arguments, the environment and the files that are named there, has the run planned, and says
what is to be said. Serving a connection is left to whoever embeds the library: a run of the program ends
as one does whose client has nothing to say.
-/

namespace InkServer.Program

/-- What stands at a path, if it can be read. -/
def nodeAt (path : String) : IO (Option FileNode) := do
  try
    return some (.file (← IO.FS.readBinFile path))
  catch e =>
    match e with
    | .inappropriateType .. => return some .directory
    | _ => return none

/-- The files at some paths, as far as they can be read. -/
def filesAt (paths : List String) : IO FileSystem := do
  let nodes ← paths.filterMapM fun path => do
    return (← nodeAt path).map fun n => (Path.ofText path, n)
  return ((FileWork.placeAll nodes).run {}).2

/-- The paths that a run may look at. -/
def pathsOf (environment : CommandLine.Environment) (arguments : List String) : List String :=
  arguments ++ environment.config.toList ++ [(environment.home.child ".inkls/config.yml").text]

/-- Says what a run leaves behind. -/
def report (o : CommandLine.Outcome) : IO UInt32 := do
  (← IO.getStdout).putStr o.output
  (← IO.getStderr).putStr (o.errors ++ String.join ((o.uncaught.map (· ++ "\n")).toList))
  return UInt32.ofNat o.status

end InkServer.Program

open InkServer in
def main (arguments : List String) : IO UInt32 := do
  let home := Path.ofText ((← IO.getEnv "HOME").getD "/")
  let environment : CommandLine.Environment := { home, config := ← IO.getEnv "INKLS_CONFIG" }
  let files ← Program.filesAt (Program.pathsOf environment arguments)
  match ((CommandLine.plan environment arguments).run files).1 with
  | .finish outcome => Program.report outcome
  | .serve serving => Program.report (serving.conclude none none)
