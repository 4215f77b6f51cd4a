import InkServer.Compiler.Timeout
import InkServer.OsError

/-!
# What can go wrong with a compile

A compiler that cannot be started or does not finish in time. A compile that ends with errors in the story
is no such failure: its report says what is wrong.
-/

namespace InkServer

/-- Why a compile yields no report. -/
inductive CompilerError where
  /-- The operating system could not start the program. -/
  | notStarted (program : String) (error : OsError)
  /-- The compiler was still running when its time was up. -/
  | timedOut (limit : Seconds)
  /-- The workspace has no mirror any more. -/
  | lostMirror (workspace : String)
  /-- Any other failure of an invocation. -/
  | failed (text : String) (expired : Bool)
  deriving DecidableEq, Repr

namespace CompilerError

def message : CompilerError → String
  | .notStarted program error => s!"Could not start the compiler '{program}': " ++ error.message
  | .timedOut limit => s!"The compiler did not finish within {limit.text} seconds"
  | .lostMirror workspace => s!"Workspace {workspace} lost its temporary compilation directory"
  | .failed text _ => text

def isTimeout : CompilerError → Bool
  | .timedOut _ => true
  | .failed _ expired => expired
  | _ => false

end CompilerError

end InkServer
