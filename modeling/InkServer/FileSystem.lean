import InkServer.Dict
import InkServer.OsError
import InkServer.Text.Basic

/-!
# The file system

A tree of directories, files and symbolic links, kept as what stands at each place. `walk` follows a path
from the root as the operating system does, links included; the operations on top of it change one place
or, for a tree, every place below one.
-/

namespace InkServer

/-- What stands at a place of the file system. -/
inductive FileNode where
  | file (content : ByteArray)
  | directory
  | link (target : String)

def FileNode.isDirectory : FileNode → Bool
  | .directory => true
  | _ => false

/-- A place: the names from the root down. -/
abbrev Place := List String

/-- The nodes of a file system; the root is always there and always a directory. -/
structure FileSystem where
  nodes : Dict Place FileNode := {}

instance : Inhabited FileSystem := ⟨{}⟩

namespace FileSystem

/-- What stands at a place, links not followed. -/
def node? (fs : FileSystem) (at_ : Place) : Option FileNode :=
  if at_ = [] then some .directory else fs.nodes.get? at_

/-- Puts a node at a place. -/
def put (fs : FileSystem) (at_ : Place) (n : FileNode) : FileSystem := ⟨fs.nodes.insert at_ n⟩

/-- Drops a place and everything below it. -/
def drop (fs : FileSystem) (at_ : Place) : FileSystem :=
  ⟨⟨fs.nodes.entries.filter fun e => !at_.isPrefixOf e.1⟩⟩

/-- The names that stand directly below a place. -/
def names (fs : FileSystem) (at_ : Place) : List String :=
  (fs.nodes.keys.filter fun p => p != [] && p.dropLast == at_).map fun p => p.getLastD ""

/-- The longest a name may be, in bytes. -/
def maxName : Nat := 255

/-- The most links that are followed on one way. -/
def maxLinks : Nat := 40

/-- Follows names from the directory `here` up to the first link that has to be followed; from there
`onLink` goes on. The result is the place reached and what stands there; nothing may stand there only
behind the last name. A link at the last name is followed if `follow` says so. -/
def descend (fs : FileSystem) (follow : Bool)
    (onLink : Place → List String → Except Errno (Place × Option FileNode)) (here : Place) :
    List String → Except Errno (Place × Option FileNode)
  | [] => .ok (here, some .directory)
  | name :: rest =>
    if name = ".." then fs.descend follow onLink here.dropLast rest
    else if maxName < name.utf8ByteSize then .error .nameTooLong
    else
      let there := here ++ [name]
      match fs.node? there with
      | none => if rest.isEmpty then .ok (there, none) else .error .noEntry
      | some .directory => fs.descend follow onLink there rest
      | some (.file c) =>
        if rest.isEmpty then .ok (there, some (.file c)) else .error .notDirectory
      | some (.link target) =>
        if rest.isEmpty && !follow then .ok (there, some (.link target))
        else
          let p := Path.ofText target
          onLink (if p.isAbsolute then [] else here) (p.segments ++ rest)

/-- Follows names from a directory, and with them at most so many links. -/
def walk (fs : FileSystem) (follow : Bool) :
    Nat → Place → List String → Except Errno (Place × Option FileNode)
  | 0 => fs.descend follow fun _ _ => .error .tooManyLinks
  | links + 1 => fs.descend follow (fs.walk follow links)

/-- The longest a path may be, in bytes, the end included. -/
def maxPath : Nat := 4096

/-- Follows a path from the root, which is the working directory as well. -/
def find (fs : FileSystem) (follow : Bool) (p : Path) : Except Errno (Place × Option FileNode) :=
  if maxPath ≤ p.text.utf8ByteSize then .error .nameTooLong else fs.walk follow maxLinks [] p.segments

/-! ## Operations that change one place -/

/-- Writes a file, which is made if nothing stands there. -/
def write (fs : FileSystem) (p : Path) (content : ByteArray) : Except Errno FileSystem :=
  match fs.find true p with
  | .error e => .error e
  | .ok (_, some .directory) => .error .isDirectory
  | .ok (at_, _) => .ok (fs.put at_ (.file content))

/-- Makes a directory where nothing stands. -/
def makeDirectory (fs : FileSystem) (p : Path) : Except Errno FileSystem :=
  match fs.find false p with
  | .error e => .error e
  | .ok (_, some _) => .error .exists
  | .ok (at_, none) => .ok (fs.put at_ .directory)

/-- Removes a file or a link. -/
def unlink (fs : FileSystem) (p : Path) : Except Errno FileSystem :=
  match fs.find false p with
  | .error e => .error e
  | .ok (_, none) => .error .noEntry
  | .ok (_, some .directory) => .error .isDirectory
  | .ok (at_, some _) => .ok (fs.drop at_)

/-! ## Questions -/

/-- What a path leads to. -/
def stat (fs : FileSystem) (p : Path) : Except Errno FileNode :=
  match fs.find true p with
  | .error e => .error e
  | .ok (_, none) => .error .noEntry
  | .ok (_, some n) => .ok n

/-- The content of a file. -/
def read (fs : FileSystem) (p : Path) : Except Errno ByteArray :=
  match fs.stat p with
  | .error e => .error e
  | .ok (.file content) => .ok content
  | .ok _ => .error .isDirectory

/-- The names in a directory, in order. -/
def list (fs : FileSystem) (p : Path) : Except Errno (List String) :=
  match fs.find true p with
  | .error e => .error e
  | .ok (_, none) => .error .noEntry
  | .ok (at_, some .directory) => .ok (Text.inOrder (fs.names at_))
  | .ok (_, some _) => .error .notDirectory

/-- Whether a path leads to a directory. -/
def leadsToDirectory (fs : FileSystem) (p : Path) : Bool :=
  match fs.stat p with
  | .ok .directory => true
  | _ => false

/-- Whether a link stands at a path. -/
def isLink (fs : FileSystem) (p : Path) : Bool :=
  match fs.find false p with
  | .ok (_, some (.link _)) => true
  | _ => false

/-- Whether a name in the directory `p` is listed as that of a directory: one stands there, which the listing
itself tells, or a link that leads to one. -/
def listsDirectory (fs : FileSystem) (p : Path) (name : String) : Bool :=
  match fs.find true p with
  | .error _ => false
  | .ok (at_, _) =>
    match fs.node? (at_ ++ [name]) with
    | some .directory => true
    | some (.link _) => fs.leadsToDirectory (p.child name)
    | _ => false

/-- Causes that only say that nothing usable stands there. -/
def meansAbsent : Errno → Bool
  | .noEntry | .notDirectory | .tooManyLinks => true
  | .other 9 => true
  | _ => false

end FileSystem

end InkServer
