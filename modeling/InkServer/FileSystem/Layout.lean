import InkServer.FileSystem.Access

/-!
# Laying out files

Putting files, directories and links where nothing has to be there before, taking away whatever stands
somewhere, and listing everything below a directory.
-/

namespace InkServer

namespace FileWork

/-- Makes a link where nothing stands. -/
def makeLink (p : Path) (target : String) : FileWork Unit :=
  change p fun fs =>
    match fs.find false p with
    | .error e => .error e
    | .ok (_, some _) => .error .exists
    | .ok (at_, none) => .ok (fs.put at_ (.link target))

/-- Puts something at a path; the directories above it are made if they are missing. -/
def place (p : Path) : FileNode → FileWork Unit
  | .directory => makeDirectories p
  | .file content => do
    makeDirectories p.parent
    write p content
  | .link target => do
    makeDirectories p.parent
    makeLink p target

/-- Puts several things where they belong. -/
def placeAll (nodes : List (Path × FileNode)) : FileWork Unit := nodes.forM fun (p, n) => place p n

/-- Takes away what stands at a path, with everything below it. -/
def clear (p : Path) : FileWork Unit :=
  change p fun fs =>
    match fs.find false p with
    | .error e => .error e
    | .ok (_, none) => .error .noEntry
    | .ok (at_, some _) => .ok (fs.drop at_)

end FileWork

namespace FileSystem

/-- How a node is listed: a directory ends in a slash. -/
def listedName (names : List String) (n : FileNode) : String :=
  String.intercalate "/" names ++ if n.isDirectory then "/" else ""

/-- Everything below a directory, by its path from there, in order; nothing if there is no directory. -/
def listing (fs : FileSystem) (p : Path) : List (String × FileNode) :=
  match fs.find true p with
  | .ok (at_, some .directory) =>
    let below := fs.nodes.entries.filterMap fun (place, n) =>
      match at_.isPrefixOf place, place.drop at_.length with
      | true, name :: rest => some (listedName (name :: rest) n, n)
      | _, _ => none
    below.mergeSort fun a b => decide (a.1 ≤ b.1)
  | _ => []

end FileSystem

end InkServer
