import InkServer.OsError

/-!
# What can go wrong with a mirror

A mirror that cannot be made, and a single file that cannot be brought into one. Both say why, and the
former whether a directory was left behind that somebody has to delete.
-/

namespace InkServer

/-- Why a mirror could not be made. -/
inductive MirrorError.Cause where
  /-- The workspace is no directory. -/
  | noRoot
  /-- No scratch directory could be made. -/
  | noScratch (error : FileError)
  /-- A directory of the workspace could not be listed. -/
  | unlisted (directory : Path) (error : FileError)
  /-- A source file could not be copied. -/
  | uncopied (relative : Path) (error : FileError)
  /-- The text of an open document could not be written over the copy. -/
  | unrestored (error : FileError)
  deriving DecidableEq, Repr

/-- A mirror of the workspace at `root` that could not be made; `scratch` is the directory that was made
for it and is left behind. -/
structure MirrorError where
  cause : MirrorError.Cause
  root : Path
  scratch : Option Path := none
  deriving DecidableEq, Repr

def MirrorError.message (e : MirrorError) : String :=
  match e.cause with
  | .noRoot => s!"Workspace directory {e.root.text} does not exist"
  | .noScratch error => "Could not create the temporary compilation directory: " ++ error.message
  | .unlisted directory error => s!"Could not list {directory.text}: " ++ error.message
  | .uncopied relative error =>
    s!"Could not copy {relative.text} into the temporary directory: " ++ error.message
  | .unrestored error =>
    "Could not restore open documents into the temporary directory: " ++ error.message

/-- Why a file could not be brought into a mirror. -/
inductive CopyError where
  /-- The workspace has no mirror. -/
  | noMirror (workspace : String)
  /-- The path leads out of the workspace. -/
  | outside (path root : Path)
  /-- The file is no source file. -/
  | notSource (path relative : Path)
  /-- The text of a document could not be written. -/
  | unwritten (relative target : Path) (error : FileError)
  /-- A created file could not be copied. -/
  | uncopied (path : Path) (error : FileError)
  /-- A created directory could not be listed. -/
  | unlisted (path : Path) (error : MirrorError)
  deriving DecidableEq, Repr

namespace CopyError

def message : CopyError → String
  | .noMirror workspace => s!"Workspace {workspace} has no temporary compilation directory"
  | .outside path root => s!"{path.text} is not inside workspace {root.text}"
  | .notSource _ relative => s!"{relative.text} is not an Ink file and is not mirrored"
  | .unwritten relative _ error => s!"Could not update {relative.text}: " ++ error.message
  | .uncopied path error => s!"Could not copy {path.text}: " ++ error.message
  | .unlisted _ error => error.message

/-- The path that the error is about. -/
def path : CopyError → Option Path
  | .noMirror _ => none
  | .outside path _ => some path
  | .notSource path _ => some path
  | .unwritten _ target _ => some target
  | .uncopied path _ => some path
  | .unlisted path _ => some path

end CopyError

end InkServer
