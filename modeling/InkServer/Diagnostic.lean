import InkServer.Dict

/-!
# Diagnostics

What the editor is shown about a document: ranges of text, how grave a finding is and what it says. A
position carries a proof that it fits the bounds of the protocol, so a diagnostic that exists can be
sent.
-/

namespace InkServer

/-- The greatest line or column of a position. -/
def maxPosition : Nat := 2147483647

/-- A place in a document, counted from zero. -/
structure Position where
  line : Nat
  character : Nat
  line_le : line ≤ maxPosition
  character_le : character ≤ maxPosition
  deriving DecidableEq, Repr

/-- Which coordinate of a position is out of bounds, and its value. -/
inductive PositionError where
  | line (value : Int)
  | character (value : Int)
  deriving DecidableEq, Repr

def PositionError.message : PositionError → String
  | .line value => s!"Position.line should be in range [0:2147483647], but was {value}."
  | .character value => s!"Position.character should be in range [0:2147483647], but was {value}."

/-- A coordinate within the bounds. -/
def coordinate? (i : Int) : Option { n : Nat // n ≤ maxPosition } :=
  match i with
  | .ofNat n => if h : n ≤ maxPosition then some ⟨n, h⟩ else none
  | .negSucc _ => none

/-- The position of two coordinates; the line is checked first. -/
def Position.make (line character : Int) : Except PositionError Position :=
  match coordinate? line, coordinate? character with
  | some l, some c => .ok ⟨l.1, c.1, l.2, c.2⟩
  | none, _ => .error (.line line)
  | _, none => .error (.character character)

/-- From a position up to another, which is not part of it. -/
structure Range where
  start : Position
  stop : Position
  deriving DecidableEq, Repr

/-- The range of four coordinates; the start is checked first. -/
def Range.make (startLine startCharacter endLine endCharacter : Int) : Except PositionError Range := do
  let start ← Position.make startLine startCharacter
  let stop ← Position.make endLine endCharacter
  pure ⟨start, stop⟩

/-- How grave a finding is. -/
inductive Severity where
  | error
  | warning
  | information
  | hint
  deriving DecidableEq, Repr

/-- The number of a severity in the protocol. -/
def Severity.code : Severity → Nat
  | .error => 1
  | .warning => 2
  | .information => 3
  | .hint => 4

def Severity.ofCode? : Nat → Option Severity
  | 1 => some .error
  | 2 => some .warning
  | 3 => some .information
  | 4 => some .hint
  | _ => none

/-- One finding about a document. -/
structure Diagnostic where
  range : Range
  message : String
  severity : Option Severity := none
  source : Option String := none
  deriving DecidableEq, Repr

/-- A finding with the document it is about. -/
structure AddressedDiagnostic where
  uri : String
  diagnostic : Diagnostic
  deriving DecidableEq, Repr

/-- Adds a finding to those of its document. -/
def addToGroup (groups : Dict String (List Diagnostic)) (d : AddressedDiagnostic) :
    Dict String (List Diagnostic) :=
  groups.insert d.uri ((groups.get? d.uri).getD [] ++ [d.diagnostic])

/-- The findings of each document, documents and findings in the order of the report. -/
def groupByUri (ds : List AddressedDiagnostic) : Dict String (List Diagnostic) :=
  ds.foldl addToGroup {}

/-- The findings about one document, in order. -/
def findingsFor (uri : String) (ds : List AddressedDiagnostic) : List Diagnostic :=
  (ds.filter fun d => d.uri = uri).map (·.diagnostic)

/-- Grouping loses and reorders nothing: a document's group is what the list says about it. -/
theorem get?_foldl_addToGroup (ds : List AddressedDiagnostic) (groups : Dict String (List Diagnostic))
    (uri : String) :
    ((ds.foldl addToGroup groups).get? uri).getD [] =
      (groups.get? uri).getD [] ++ findingsFor uri ds := by
  induction ds generalizing groups with
  | nil => simp [findingsFor]
  | cons d ds ih =>
    rw [List.foldl_cons, ih, addToGroup, Dict.get?_insert]
    by_cases h : d.uri = uri <;> simp [findingsFor, h]

end InkServer
