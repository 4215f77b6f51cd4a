import InkServer.FileSystem
import InkServer.Text.Basic
import InkServer.Text.Utf8

/-!
# Working with files

Operations on paths that say what went wrong and about which path. An operation of several steps keeps
what it did before the step that failed.
-/

namespace InkServer

/-- Work on files: it may change them and it may fail, and what it changed stays changed. -/
abbrev FileWork := ExceptT FileError (StateM FileSystem)

namespace FileWork

/-- Whether a path holds a null character. -/
def hasNull (p : Path) : Bool := p.text.toList.contains '\x00'

/-- Tells an outcome about a path. -/
def about {α : Type} (p : Path) (r : Except Errno α) : Except FileError α :=
  if hasNull p then .error .nullCharacter
  else r.mapError fun cause => .os ⟨cause, some p.text⟩

/-- Makes a change to one place. -/
def change (p : Path) (f : FileSystem → Except Errno FileSystem) : FileWork Unit := do
  let fs ← get
  match about p (f fs) with
  | .error e => throw e
  | .ok fs => set fs

/-- Asks about a path. -/
def ask {α : Type} (p : Path) (f : FileSystem → Except Errno α) : FileWork α := do
  let fs ← get
  match about p (f fs) with
  | .error e => throw e
  | .ok a => pure a

/-- Whether something with a property stands at a path. A path that cannot be there has no property; any
other trouble is an error. -/
def holds (p : Path) (property : FileNode → Bool) : FileWork Bool := do
  let fs ← get
  if hasNull p then pure false
  else
    match fs.stat p with
    | .ok n => pure (property n)
    | .error e =>
      if FileSystem.meansAbsent e then pure false else throw (.os ⟨e, some p.text⟩)

def isDirectory (p : Path) : FileWork Bool := holds p FileNode.isDirectory

def isFile (p : Path) : FileWork Bool :=
  holds p fun n =>
    match n with
    | .file _ => true
    | _ => false

def existsAt (p : Path) : FileWork Bool := holds p fun _ => true

def read (p : Path) : FileWork ByteArray := ask p fun fs => fs.read p

def write (p : Path) (content : ByteArray) : FileWork Unit := change p fun fs => fs.write p content

/-- The text of a file with its line ends unified. -/
def readText (p : Path) : FileWork String := do
  let content ← read p
  pure (String.ofList (Text.unifyNewlines (Text.Utf8.decode content).toList))

/-- Runs work and hands its failure on as a value. -/
def attempt {α : Type} (work : FileWork α) : FileWork (Except FileError α) := do
  let fs ← get
  let (r, fs) := work.run fs
  set fs
  pure r

/-- After a failure to make a directory: it does not matter if one is there. -/
def unlessDirectory (p : Path) (e : FileError) : FileWork Unit := do
  match e with
  | .os _ => if ← isDirectory p then pure () else throw e
  | _ => throw e

/-- Makes one directory; one that is there already is left alone. -/
def ensureDirectory (p : Path) : FileWork Unit := do
  match ← attempt (change p fun fs => fs.makeDirectory p) with
  | .ok () => pure ()
  | .error (.os e) => if e.cause = .noEntry then throw (.os e) else unlessDirectory p (.os e)
  | .error e => throw e

/-- Makes a directory and, as far as they are missing, those above it; `depth` bounds how many. -/
def ensureDirectories : Nat → Path → FileWork Unit
  | 0, p => ensureDirectory p
  | depth + 1, p => do
    match ← attempt (change p fun fs => fs.makeDirectory p) with
    | .ok () => pure ()
    | .error (.os e) =>
      if e.cause = .noEntry then
        if p.parent = p then throw (.os e)
        else
          ensureDirectories depth p.parent
          ensureDirectory p
      else unlessDirectory p (.os e)
    | .error e => throw e

/-- Makes a directory with all that are missing above it. -/
def makeDirectories (p : Path) : FileWork Unit := ensureDirectories p.segments.length p

/-- Removes a directory with everything in it. -/
def removeTree (p : Path) : FileWork Unit := do
  let fs ← get
  match about p (fs.find false p) with
  | .error e => throw e
  | .ok (_, none) => throw (.os ⟨.noEntry, some p.text⟩)
  | .ok (_, some (.link _)) => throw (.refused "Cannot call rmtree on a symbolic link")
  | .ok (_, some (.file _)) => throw (.os ⟨.notDirectory, some p.text⟩)
  | .ok (at_, some .directory) => set (fs.drop at_)

/-- Removes a file. -/
def unlink (p : Path) : FileWork Unit := change p fun fs => fs.unlink p

/-- The files in the directory `p` and in the directories below it, each directory's files before its
subdirectories and both in the order of their names. Links to directories are not entered. `depth` bounds
how far down. -/
def filesBelow : Nat → Path → FileWork (List Path)
  | 0, _ => pure []
  | depth + 1, p => do
    let names ← ask p fun fs => fs.list p
    let fs ← get
    let files := (names.filter fun n => !fs.listsDirectory p n).map p.child
    let below ← (names.filter fun n => fs.listsDirectory p n && !fs.isLink (p.child n)).mapM fun n =>
      filesBelow depth (p.child n)
    pure (files ++ below.flatten)

/-- All files below a directory; a tree is never deeper than it has nodes. -/
def allFilesBelow (p : Path) : FileWork (List Path) := do
  let fs ← get
  filesBelow (fs.nodes.size + 1) p

end FileWork

end InkServer
