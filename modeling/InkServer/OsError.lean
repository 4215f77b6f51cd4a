import InkServer.Text.Quoted
import InkServer.Path

/-!
# Errors of the operating system

Why an operation on a file or a process was refused, and how that is told: the number of the cause, its
description, and the path it is about.
-/

namespace InkServer

/-- A cause of the operating system. Those that the file operations here meet have names. -/
inductive Errno where
  | noEntry
  | exists
  | notDirectory
  | isDirectory
  | nameTooLong
  | tooManyLinks
  | other (code : Nat)
  deriving DecidableEq, Repr

namespace Errno

def code : Errno → Nat
  | .noEntry => 2
  | .exists => 17
  | .notDirectory => 20
  | .isDirectory => 21
  | .nameTooLong => 36
  | .tooManyLinks => 40
  | .other n => n

/-- The cause with a number. -/
def ofCode (n : Nat) : Errno :=
  match n with
  | 2 => .noEntry
  | 17 => .exists
  | 20 => .notDirectory
  | 21 => .isDirectory
  | 36 => .nameTooLong
  | 40 => .tooManyLinks
  | n => .other n

/-- The descriptions of the causes that have no name here. -/
def descriptions : List (Nat × String) := [
  (0, "Success"), (1, "Operation not permitted"), (3, "No such process"), (4, "Interrupted system call"),
  (5, "Input/output error"), (6, "No such device or address"), (7, "Argument list too long"),
  (8, "Exec format error"), (9, "Bad file descriptor"), (10, "No child processes"),
  (11, "Resource temporarily unavailable"), (12, "Cannot allocate memory"), (13, "Permission denied"),
  (14, "Bad address"), (15, "Block device required"), (16, "Device or resource busy"),
  (18, "Invalid cross-device link"), (19, "No such device"), (22, "Invalid argument"),
  (23, "Too many open files in system"), (24, "Too many open files"),
  (25, "Inappropriate ioctl for device"), (26, "Text file busy"), (27, "File too large"),
  (28, "No space left on device"), (29, "Illegal seek"), (30, "Read-only file system"),
  (31, "Too many links"), (32, "Broken pipe"), (33, "Numerical argument out of domain"),
  (34, "Numerical result out of range"), (35, "Resource deadlock avoided"), (37, "No locks available"),
  (38, "Function not implemented"), (39, "Directory not empty"), (75, "Value too large for defined data type"),
  (80, "Accessing a corrupted shared library"), (95, "Operation not supported"),
  (104, "Connection reset by peer"), (110, "Connection timed out"), (111, "Connection refused"),
  (116, "Stale file handle"), (121, "Remote I/O error"), (122, "Disk quota exceeded")]

def description : Errno → String
  | .noEntry => "No such file or directory"
  | .exists => "File exists"
  | .notDirectory => "Not a directory"
  | .isDirectory => "Is a directory"
  | .nameTooLong => "File name too long"
  | .tooManyLinks => "Too many levels of symbolic links"
  | .other n => ((descriptions.find? fun d => d.1 = n).map Prod.snd).getD s!"Unknown error {n}"

/-- The name of the family of errors that a cause belongs to. -/
def family (e : Errno) : String :=
  match e.code with
  | 1 | 13 => "PermissionError"
  | 2 => "FileNotFoundError"
  | 3 => "ProcessLookupError"
  | 4 => "InterruptedError"
  | 10 => "ChildProcessError"
  | 11 | 114 | 115 => "BlockingIOError"
  | 17 => "FileExistsError"
  | 20 => "NotADirectoryError"
  | 21 => "IsADirectoryError"
  | 32 | 108 => "BrokenPipeError"
  | 103 => "ConnectionAbortedError"
  | 104 => "ConnectionResetError"
  | 110 => "TimeoutError"
  | 111 => "ConnectionRefusedError"
  | _ => "OSError"

end Errno

/-- A cause and the path it is about, if it is about one. -/
structure OsError where
  cause : Errno
  path : Option String
  deriving DecidableEq, Repr

def OsError.message (e : OsError) : String :=
  s!"[Errno {e.cause.code}] " ++ e.cause.description ++ (e.path.elim "" fun p => ": " ++ Text.quoted p)

/-- Why an operation on a path failed. A path that holds a null character is refused before the
operating system sees it. -/
inductive FileError where
  | os (error : OsError)
  | nullCharacter
  /-- A refusal that comes with its own text. -/
  | refused (text : String)
  deriving DecidableEq, Repr

def FileError.message : FileError → String
  | .os e => e.message
  | .nullCharacter => "embedded null byte"
  | .refused text => text

end InkServer
