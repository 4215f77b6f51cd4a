import InkServer.FileSystem.Access
import InkServer.Mirror
import InkServer.Task

/-!
# Mirrors on disk

Making, filling and deleting the directories of mirrors. All of it writes below a mirror and nowhere else:
the paths it writes to are made of the mirror's directory and a path relative to the workspace, which
never leads up.
-/

namespace InkServer

/-- Something that happened to the directory of a mirror. -/
inductive MirrorEvent where
  /-- A file got a new content. -/
  | wrote (mirror relative : Path) (content : ByteArray)
  | deleted (mirror : Path)

/-- The files of the machine, and how many scratch directories were made. While `writeFailure` is set,
nothing can be written into a mirror. -/
structure Disk where
  files : FileSystem := {}
  scratches : Nat := 0
  writeFailure : Option String := none
  /-- For the record: what happened to the mirrors. -/
  history : List MirrorEvent := []

/-- Work on mirrors, which may fail and keeps what it did until then. -/
abbrev DiskWork := ExceptT Failure (StateM Disk)

namespace DiskWork

/-- Runs work on files and hands its failure on as a value. -/
def attempt {α : Type} (work : FileWork α) : DiskWork (Except FileError α) := do
  let disk ← get
  let (r, files) := work.run disk.files
  set { disk with files }
  pure r

/-- Runs work on files; its failures are told by `wrap`. One about a null character in a path is told as
it is. -/
def telling {α : Type} (wrap : FileError → Failure) (work : FileWork α) : DiskWork α := do
  match ← attempt work with
  | .ok a => pure a
  | .error .nullCharacter => throw (.file .nullCharacter)
  | .error e => throw (wrap e)

/-- Runs work on files as it is. -/
def plainly {α : Type} (work : FileWork α) : DiskWork α := telling .file work

/-- Keeps what happened to a mirror on record. -/
def note (e : MirrorEvent) : DiskWork Unit :=
  modify fun disk => { disk with history := disk.history ++ [e] }

end DiskWork

namespace Mirror

open DiskWork

/-- How the directories of mirrors are named. -/
def scratchName (number : Nat) : String := s!"inkls-{number}"

/-- Makes an empty directory for a mirror. -/
def makeScratch (policy : MirrorPolicy) (wrap : FileError → Failure) : DiskWork Mirror := do
  let number := (← get).scratches + 1
  let path := policy.tempRoot.child (scratchName number)
  telling wrap (FileWork.makeDirectories policy.tempRoot)
  telling wrap (FileWork.change path fun fs => fs.makeDirectory path)
  modify fun disk => { disk with scratches := number }
  pure ⟨path⟩

/-- Writes one file of a mirror. -/
def writeFile (m : Mirror) (wrap : FileError → Failure) (relative : Path) (content : ByteArray) :
    DiskWork MirrorEntry := do
  match (← get).writeFailure with
  | some text => throw (wrap (.refused text))
  | none =>
    let destination := m.path / relative
    telling wrap (do
      FileWork.makeDirectories destination.parent
      FileWork.write destination content)
    note (.wrote m.path relative content)
    pure (.ofContent relative content)

/-- The source files below a directory, by their path in the workspace at `root`. -/
def sources (policy : MirrorPolicy) (directory root : Path) (wrap : FileError → Failure) :
    DiskWork (List Path) := do
  let files ← telling wrap (FileWork.allFilesBelow directory)
  pure ((files.filter policy.isSource).filterMap fun p => p.relativeTo? root)

/-- Copies one file of the workspace at `root` into a mirror. -/
def copyFile (m : Mirror) (root : Path) (wrap : FileError → Failure) (relative : Path) :
    DiskWork MirrorEntry := do
  let content ← telling wrap (FileWork.read (root / relative))
  m.writeFile wrap relative content

/-- Makes a mirror of the workspace at `root` with all its source files. -/
def create (policy : MirrorPolicy) (root : Path) : DiskWork (Mirror × Index) := do
  if !(← plainly (FileWork.isDirectory root)) then throw (.mirror ⟨.noRoot, root, none⟩)
  let m ← makeScratch policy fun e => .mirror ⟨.noScratch e, root, none⟩
  let paths ← sources policy root root fun e => .mirror ⟨.unlisted root e, root, some m.path⟩
  let entries ← paths.mapM fun relative =>
    m.copyFile root (fun e => .mirror ⟨.uncopied relative e, root, some m.path⟩) relative
  pure (m, Index.record {} entries)

/-- Writes the texts of documents over the copies in a mirror. -/
def overlay (m : Mirror) (root : Path) (documents : List (Path × ByteArray)) :
    DiskWork (List MirrorEntry) :=
  documents.mapM fun (relative, content) =>
    m.writeFile (fun e => .mirror ⟨.unrestored e, root, some m.path⟩) relative content

/-- The path in the workspace at `root` that a path stands for, if it is that of a source file. -/
def checkedRelative (policy : MirrorPolicy) (root path : Path) : Except CopyError Path :=
  let candidate := if path.isAbsolute then path else root / path
  match candidate.relativeTo? root with
  | none => .error (.outside path root)
  | some relative => if policy.isSource relative then .ok relative else .error (.notSource path relative)

/-- Writes the text of a document into a mirror. -/
def update (m : Mirror) (relative : Path) (content : ByteArray) : DiskWork MirrorEntry :=
  m.writeFile (fun e => .copy (.unwritten relative (m.path / relative) e)) relative content

/-- The source files that a created path stands for: the file itself, or those of a directory. -/
def createdSources (policy : MirrorPolicy) (root path : Path) : DiskWork (List Path) := do
  if ← telling (fun e => .copy (.uncopied path e)) (FileWork.isDirectory path) then
    if path.isInside root then
      sources policy path root fun e => .copy (.unlisted path ⟨.unlisted path e, root, none⟩)
    else throw (.copy (.outside path root))
  else
    match checkedRelative policy root path with
    | .ok relative => pure [relative]
    | .error e => throw (.copy e)

/-- Copies a file or directory that was created in the workspace into its mirror. -/
def copyCreated (m : Mirror) (policy : MirrorPolicy) (root path : Path) :
    DiskWork (List MirrorEntry) := do
  let paths ← createdSources policy root path
  paths.mapM fun relative => m.copyFile root (fun e => .copy (.uncopied path e)) relative

/-- Runs work whose failure does not matter unless something is left; says whether nothing is. -/
def removed (work : FileWork Unit) : StateM Disk Bool := do
  match ← (attempt work).run with
  | .ok (.ok ()) => pure true
  | .ok (.error (.os e)) => pure (e.cause == .noEntry)
  | _ => pure false

/-- Deletes a mirror and what was compiled beside it, as far as possible; says whether nothing is left. -/
def delete (m : Mirror) : StateM Disk Bool := do
  let directory ← removed (FileWork.removeTree m.path)
  let output ← removed (FileWork.unlink m.outputPath)
  let _ ← (note (.deleted m.path)).run
  pure (directory && output)

/-- Whether the directory of a mirror is there. -/
def isThere (m : Mirror) : DiskWork Bool := plainly (FileWork.isDirectory m.path)

/-- Whether a file of a mirror is known to have some content. -/
def isUpToDate (m : Mirror) (index : Index) (relative : Path) (content : ByteArray) : DiskWork Bool := do
  match index.get? relative with
  | none => pure false
  | some entry =>
    if entry.fingerprint = Digest.sha256 content then plainly (FileWork.isFile (m.path / relative))
    else pure false

end Mirror

end InkServer
