import InkServer.Compiler.Error
import InkServer.Config
import InkServer.Diagnostic.Findings
import InkServer.Mirror.Error
import InkServer.Number.Integer
import InkServer.Settings

/-!
# Failures

How an operation of the server can end other than with a result. The first group are the errors of
workspaces, which the operations on workspaces catch; the others come from what these are made of.
Each failure has a kind, which the client and the user get to see, and a message.
-/

namespace InkServer

/-- Why an operation failed. -/
inductive Failure where
  | mirror (error : MirrorError)
  | copy (error : CopyError)
  /-- A path that lies in no workspace. -/
  | noWorkspace (path : Path)
  | compiler (error : CompilerError)
  | report (error : CompilerReport.Error)
  | uri (error : Uri.Error)
  | position (error : PositionError)
  | file (error : FileError)
  | config (error : Config.Error)
  /-- Settings that name no main story. -/
  | story (error : Settings.StoryError)
  /-- Settings that are no mapping. -/
  | settings (error : Settings.NotAMapping)
  /-- A word of a command line that is no text. -/
  | word (index : Nat) (name : String)
  /-- A key that a mapping does not have. -/
  | key (name : String)
  /-- A part that a value of some kind does not have. -/
  | attribute (owner name : String)
  /-- A text that is no integer. -/
  | integer (error : Integer.Error)
  /-- A number too great to be an integer. -/
  | overflow (text : String)
  /-- A value that does not do. -/
  | value (text : String)
  /-- A value of the wrong kind. -/
  | kind (text : String)
  /-- Any other trouble while running. -/
  | runtime (text : String)
  /-- The operation was cancelled. -/
  | cancelled

namespace Failure

/-- The kind of an error about files. -/
def fileKind : FileError → String
  | .os e => e.cause.family
  | .nullCharacter => "ValueError"
  | .refused _ => "OSError"

/-- The kind of an error about a report. -/
def reportKind : CompilerReport.Error → String
  | .unrecognized _ => "DiagnosticParseError"
  | .line (.unknownSeverity _) => "KeyError"
  | .line (.tooManyDigits _) => "ValueError"
  | .uri _ => "ValueError"
  | .position _ => "ValueError"

/-- The kind of an error about a configuration. -/
def configKind : Config.Error → String
  | .missing _ => "FileNotFoundError"
  | .file e => fileKind e
  | .encoding _ => "UnicodeDecodeError"
  | .yaml e => e.kindName
  | .notAMapping _ => "ValueError"
  | .section_ (.wrongLength ..) => "ValueError"
  | .section_ _ => "TypeError"
  | .invalid _ => "ValueError"

/-- The kind of a failure, as it is shown. -/
def kindName : Failure → String
  | .mirror _ => "MirrorCreationError"
  | .copy _ => "FileCopyError"
  | .noWorkspace _ => "WorkspaceNotFoundError"
  | .compiler _ => "CompilerInvocationError"
  | .report e => reportKind e
  | .uri _ => "ValueError"
  | .position _ => "ValueError"
  | .file e => fileKind e
  | .config e => configKind e
  | .story .missing => "KeyError"
  | .story (.notText _) => "TypeError"
  | .settings _ => "AttributeError"
  | .word _ _ => "TypeError"
  | .key _ => "KeyError"
  | .attribute .. => "AttributeError"
  | .integer _ => "ValueError"
  | .overflow _ => "OverflowError"
  | .value _ => "ValueError"
  | .kind _ => "TypeError"
  | .runtime _ => "RuntimeError"
  | .cancelled => "CancelledError"

def message : Failure → String
  | .mirror e => e.message
  | .copy e => e.message
  | .noWorkspace path =>
    s!"The temporary workspace is missing or {path.name} is not in the workspace."
  | .compiler e => e.message
  | .report e => e.message
  | .uri e => e.message
  | .position e => e.message
  | .file e => e.message
  | .config e => e.message
  | .story e => e.message
  | .settings e => e.message
  | .word index name => s!"sequence item {index}: expected str instance, {name} found"
  | .key name => Text.quoted name
  | .attribute owner name => s!"'{owner}' object has no attribute '{name}'"
  | .integer e => e.message
  | .overflow text => text
  | .value text => text
  | .kind text => text
  | .runtime text => text
  | .cancelled => ""

/-- Whether a failure is an error of workspaces. -/
def isWorkspaceError : Failure → Bool
  | .mirror _ => true
  | .copy _ => true
  | .noWorkspace _ => true
  | .compiler _ => true
  | .report (.unrecognized _) => true
  | _ => false

end Failure

end InkServer
