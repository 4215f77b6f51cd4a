import InkServer.Text.Split

/-!
# File paths

A path is a kind of start and a list of segments. Reading a path drops empty segments and `.`; `..` is
kept, since what it means depends on links. The proof field makes every path one that can be read back
from its text.
-/

namespace InkServer

/-- A name between two slashes of a path. -/
def IsSegment (s : String) : Prop := s ≠ "" ∧ s ≠ "." ∧ '/' ∉ s.toList

instance : DecidablePred IsSegment := fun s => inferInstanceAs (Decidable (s ≠ "" ∧ s ≠ "." ∧ '/' ∉ s.toList))

/-- Where a path starts: at the working directory, at the root, or at the root written with two
slashes, which is a root of its own. -/
inductive PathStart where
  | relative
  | root
  | doubleRoot
  deriving DecidableEq, Repr, Inhabited

/-- A path: where it starts and the segments from there. -/
structure Path where
  start : PathStart
  segments : List String
  valid : ∀ s ∈ segments, IsSegment s
  deriving DecidableEq

namespace Path

/-- The path of a start and those of the given names that are segments. -/
def ofSegments (start : PathStart) (names : List String) : Path :=
  ⟨start, names.filter fun s => decide (IsSegment s), by simp⟩

/-- Where the path written by some characters starts. -/
def startOf : List Char → PathStart
  | '/' :: '/' :: '/' :: _ => .root
  | '/' :: '/' :: _ => .doubleRoot
  | '/' :: _ => .root
  | _ => .relative

/-- Reads a path. -/
def ofText (s : String) : Path :=
  ofSegments (startOf s.toList) ((Text.pieces '/' s.toList).map String.ofList)

instance : Inhabited Path := ⟨⟨.relative, [], by simp⟩⟩

/-- The working directory. -/
def here : Path := ⟨.relative, [], by simp⟩

/-- The text of a start. -/
def startText : PathStart → String
  | .relative => ""
  | .root => "/"
  | .doubleRoot => "//"

/-- The text of a path; the working directory is written as a dot. -/
def text (p : Path) : String :=
  if p.start = .relative ∧ p.segments = [] then "."
  else startText p.start ++ String.intercalate "/" p.segments

instance : ToString Path := ⟨text⟩

instance : Repr Path := ⟨fun p _ => p.text⟩

def isAbsolute (p : Path) : Bool := p.start != .relative

/-- The last segment, the empty text if there is none. -/
def name (p : Path) : String := p.segments.getLastD ""

/-- The path without its last segment. -/
def parent (p : Path) : Path :=
  ⟨p.start, p.segments.dropLast, fun s h => p.valid s (List.dropLast_subset p.segments h)⟩

/-- `q` as seen from `p`: an absolute path stands for itself. -/
def join (p q : Path) : Path :=
  if q.isAbsolute then q
  else ⟨p.start, p.segments ++ q.segments, fun s h => (List.mem_append.mp h).elim (p.valid s) (q.valid s)⟩

instance : HDiv Path Path Path := ⟨join⟩

/-- The file `name` of the directory `p`. -/
def child (p : Path) (name : String) : Path := p / ofText name

/-- The path with another last segment. -/
def withName (p : Path) (name : String) : Path := p.parent.child name

/-- The ending of a name: from its last dot on, if that dot is neither its first nor its last
character. -/
def endingOf (cs : List Char) : List Char :=
  let tail := cs.reverse.takeWhile (· ≠ '.')
  let before := (cs.reverse.dropWhile (· ≠ '.')).drop 1
  if tail.isEmpty || before.isEmpty || tail.length == cs.length then [] else '.' :: tail.reverse

/-- The ending of the last segment. -/
def ending (p : Path) : String := String.ofList (endingOf p.name.toList)

/-- The start, if there is one, and the segments. -/
def parts (p : Path) : List String :=
  if p.isAbsolute then startText p.start :: p.segments else p.segments

/-- The absolute path a path stands for when the working directory is the root. -/
def absolute (p : Path) : Path :=
  if p.isAbsolute then p else ⟨.root, p.segments, p.valid⟩

end Path

end InkServer
