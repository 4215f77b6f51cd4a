import InkServer.Diagnostic.Report
import InkServer.Text.Basic
import InkServer.Uri

/-!
# From reports to diagnostics

A report speaks about files of the mirror; the editor is told about the documents they were copied from.
Lines that are no findings are passed over, but a failed compile that yields no finding at all is an
error, so that a failure is never shown as a clean story.
-/

namespace InkServer

/-- What the compiler reported about one compile: its text, its exit status, the entry file it was given
and the mirror it ran in. -/
structure CompilerReport where
  output : String
  exitStatus : Int
  entry : Path
  mirror : Path
  deriving DecidableEq, Repr

namespace CompilerReport

/-- Who diagnostics are said to come from. -/
def source : String := "inklecate"

/-- A failed compile whose report has no finding. -/
structure Unrecognized where
  output : String
  exitStatus : Int
  deriving DecidableEq, Repr

def Unrecognized.message (u : Unrecognized) : String :=
  s!"The compiler exited with status {u.exitStatus} without a recognizable diagnostic"

/-- Why a report has no diagnostics. -/
inductive Error where
  | unrecognized (report : Unrecognized)
  | line (error : Report.Error)
  | uri (error : Uri.Error)
  | position (error : PositionError)
  deriving DecidableEq, Repr

def Error.message : Error → String
  | .unrecognized u => u.message
  | .line e => e.message
  | .uri e => e.message
  | .position e => e.message

/-- How documents are named: the URI of each path. -/
abbrev Naming := Path → Except Uri.Error String

/-- The diagnostic of an entry, addressed to the document it was copied from. -/
def Entry.toDiagnostic (naming : Naming) (root : Path) (e : Report.Entry) :
    Except Error AddressedDiagnostic := do
  let uri ← (naming (root / e.path)).mapError .uri
  let line := e.line - 1
  let character := (e.column.getD 1) - 1
  let range ← (Range.make line character (line + 1) 0).mapError .position
  pure ⟨uri, ⟨range, e.message, some e.severity, some source⟩⟩

/-- The diagnostics of the lines, in order. -/
def findings (naming : Naming) (root mirror entry : Path) :
    List (List Char) → Except Error (List AddressedDiagnostic)
  | [] => pure []
  | line :: rest => do
    match ← (Report.parseLine line mirror entry).mapError .line with
    | none => findings naming root mirror entry rest
    | some e =>
      let d ← Entry.toDiagnostic naming root e
      let ds ← findings naming root mirror entry rest
      pure (d :: ds)

/-- The diagnostics of a whole report about the workspace at `root`. -/
def diagnostics (report : CompilerReport) (naming : Naming) (root : Path) :
    Except Error (List AddressedDiagnostic) := do
  let ds ← findings naming root report.mirror report.entry (Text.splitLines report.output.toList)
  if ds.isEmpty && report.exitStatus != 0 then
    throw (.unrecognized ⟨report.output, report.exitStatus⟩)
  pure ds

/-- The first line that is not blank, without the blanks around it. -/
def firstLine (output : String) : List Char :=
  ((Text.splitLines output.toList).map Text.trimBlanks).find? (fun line => !line.isEmpty) |>.getD []

/-- The range of the first line of a document. -/
def firstLineRange : Range :=
  ⟨⟨0, 0, Nat.zero_le _, Nat.zero_le _⟩, ⟨1, 0, by decide, Nat.zero_le _⟩⟩

/-- The one diagnostic that stands for a report without findings, addressed to the entry file. -/
def Unrecognized.toDiagnostic (u : Unrecognized) (naming : Naming) (root entry : Path) :
    Except Error AddressedDiagnostic := do
  let uri ← (naming (root / entry)).mapError .uri
  let line := firstLine u.output
  let message := s!"inklecate failed (exit status {u.exitStatus})" ++
    if line.isEmpty then "" else ": " ++ String.ofList line
  pure ⟨uri, ⟨firstLineRange, message, some .error, some source⟩⟩

end CompilerReport

end InkServer
