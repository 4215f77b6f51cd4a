import InkServer.Mirror.Disk
import InkServer.Number.Integer

/-!
# Compiler processes

What a compiler process does once it is started is up to it; a behaviour says what that is. A process that
nothing else is known about behaves as the story asks for in comments, which is how the server can be
tried out without a compiler.
-/

namespace InkServer

/-- What a process does: what it prints, the status it exits with (`none` if it never had one), whether
it waits before it ends or never ends, and whether it is gone when it is to be killed. -/
structure Behaviour where
  output : ByteArray := ByteArray.empty
  status : Option Int := some 0
  held : Bool := false
  hangs : Bool := false
  gone : Bool := false
  /-- Whether the process is seen to have ended by the time that it is to be killed. -/
  endsFirst : Bool := false
  /-- Whether some time passes until the end of a process that was given up is seen. -/
  lingers : Bool := false
  /-- Why the process cannot be started at all. -/
  refusal : Option OsError := none

namespace Behaviour

/-- The rest of a line behind a mark, without the blanks around it. -/
def afterMark? (mark : String) (line : List Char) : Option (List Char) :=
  (Text.after? mark.toList line).map Text.trimBlanks

/-- The status that a line asks for. -/
def statusOf (line : List Char) : Option Int :=
  (afterMark? "// exit:" line).bind fun text =>
    match Integer.ofText (String.ofList text) with
    | .ok n => some n
    | .error _ => none

/-- The behaviour that a story asks for. -/
def ofStory (story : String) : Behaviour :=
  let lines := (Text.pieces '\n' story.toList).map Text.trimBlanks
  let report := lines.filterMap (afterMark? "// report:")
  let mark := if lines.contains "// bom".toList then "\ufeff" else ""
  { output := (mark ++ String.intercalate "\n" (report.map String.ofList)).toUTF8
    status := some ((lines.filterMap statusOf).getLastD 0)
    held := lines.contains "// hold".toList }

/-- The behaviour of a process that is given no entry file: it tells the name of the file it misses. -/
def ofMissing (entry : Path) : Behaviour :=
  { output := s!"ERROR: '{entry.name}' line 1: Could not find the file\n".toUTF8, status := some 1 }

/-- The behaviour that the entry file asks for. -/
def ofEntry (directory entry : Path) : StateM Disk Behaviour := do
  match ← (DiskWork.attempt (FileWork.read (directory / entry))).run with
  | .ok (.ok content) => pure (ofStory (Text.Utf8.decode content))
  | _ => pure (ofMissing entry)

/-- What is left behind by a process that ends well. -/
def writeOutput (output : Path) : StateM Disk Unit := do
  let _ ← (DiskWork.attempt (FileWork.write output "\x7b\x7d".toUTF8)).run
  pure ()

end Behaviour

end InkServer
