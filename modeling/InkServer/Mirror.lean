import InkServer.Dict
import InkServer.Digest
import InkServer.Path.Normal
import InkServer.Text.Case

/-!
# Mirrors

A mirror is a scratch directory with a copy of the source files of one workspace, and the compiler runs in
it. What is compiled lies beside the mirror, not in it. The entries of a mirror say what was last written
to each of its files.
-/

namespace InkServer

/-- Whether a file name ends like a source file; letter case does not matter. -/
def Path.isSource (extensions : List String) (p : Path) : Bool :=
  extensions.any fun e => Text.lower p.ending = Text.lower e

/-- Which files are mirrored, and where mirrors go. -/
structure MirrorPolicy where
  extensions : List String
  tempRoot : Path
  deriving DecidableEq, Repr

/-- Whether a file is mirrored. -/
def MirrorPolicy.isSource (policy : MirrorPolicy) (p : Path) : Bool := p.isSource policy.extensions

/-- What was last written to a file of a mirror. -/
structure MirrorEntry where
  path : Path
  fingerprint : String
  size : Nat
  deriving DecidableEq, Repr

/-- The entry of a file with some content. -/
def MirrorEntry.ofContent (relative : Path) (content : ByteArray) : MirrorEntry :=
  ⟨relative, Digest.sha256 content, content.size⟩

/-- A mirror is known by its directory. -/
structure Mirror where
  path : Path
  deriving DecidableEq, Repr

namespace Mirror

/-- Where the compiled story goes. -/
def outputPath (m : Mirror) : Path := m.path.withName (m.path.name ++ ".json")

/-- The entries of a mirror by the path of their file. -/
abbrev Index := Dict Path MirrorEntry

/-- Notes what was written. -/
def Index.record (index : Index) (entries : List MirrorEntry) : Index :=
  entries.foldl (fun i e => i.insert e.path e) index

/-- The source files among some documents, by their path in the workspace. The others are passed over. -/
def overlays (policy : MirrorPolicy) (root : Path) (documents : List (Path × ByteArray)) :
    List (Path × ByteArray) :=
  documents.filterMap fun (path, content) =>
    match path.relativeTo? root with
    | some relative => if policy.isSource relative then some (relative, content) else none
    | none => none

end Mirror

end InkServer
