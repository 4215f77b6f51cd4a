import InkServer.Yaml.Error
/-!
# Reading position in a YAML document

A cursor stands before the next character of a document and knows its line and column, since indentation
has a meaning. Behind the last character there is `none`.
-/

namespace InkServer.Yaml

/-- A position in a document: the text that follows it, and how far it is from the start. -/
structure Cursor where
  rest : List Char
  index : Nat := 0
  line : Nat := 0
  column : Nat := 0

/-- Whether a character ends a line. -/
def isBreak (c : Char) : Bool :=
  c = '\n' || c = '\r' || c.toNat == 0x85 || c.toNat == 0x2028 || c.toNat == 0x2029

def isBlank (c : Char) : Bool := c = ' ' || c = '\t'

namespace Cursor

/-- The character `n` places ahead. -/
def peek (k : Cursor) (n : Nat) : Option Char := k.rest[n]?

/-- The next character. -/
def next (k : Cursor) : Option Char := k.rest.head?

def isAt (k : Cursor) (c : Char) : Bool := k.next == some c

/-- Whether the character `n` places ahead ends a line or the document. -/
def breaks (k : Cursor) (n : Nat) : Bool :=
  match k.peek n with
  | none => true
  | some c => isBreak c

/-- Whether the character `n` places ahead is a blank or ends a line or the document. -/
def spaces (k : Cursor) (n : Nat) : Bool :=
  match k.peek n with
  | none => true
  | some c => isBreak c || isBlank c

/-- Whether a space or the end of a line or of the document follows. -/
def atSpaceOrBreak (k : Cursor) : Bool := k.isAt ' ' || k.breaks 0

/-- The cursor behind the next character. -/
def advance (k : Cursor) : Cursor :=
  match k.rest with
  | [] => k
  | c :: rest =>
    if isBreak c && !(c = '\r' && rest.head? == some '\n') then
      ⟨rest, k.index + 1, k.line + 1, 0⟩
    else if c.toNat == 0xFEFF then ⟨rest, k.index + 1, k.line, k.column⟩
    else ⟨rest, k.index + 1, k.line, k.column + 1⟩

/-- The cursor `n` characters on. -/
def forward (k : Cursor) : Nat → Cursor
  | 0 => k
  | n + 1 => k.advance.forward n

/-- The characters up to the first without `p`, and the cursor before it. -/
def takeWhile (k : Cursor) (p : Char → Bool) : List Char × Cursor :=
  let cs := k.rest.takeWhile p
  (cs, k.forward cs.length)

/-- The cursor before the first character without `p`. -/
def skipWhile (k : Cursor) (p : Char → Bool) : Cursor := (k.takeWhile p).2

def skipSpaces (k : Cursor) : Cursor := k.skipWhile (· = ' ')

/-- Skips the rest of the line. -/
def skipLine (k : Cursor) : Cursor := k.skipWhile fun c => !isBreak c

/-- Skips a comment if one starts here. -/
def skipComment (k : Cursor) : Cursor := if k.isAt '#' then k.skipLine else k

/-- Reads the end of a line: the character it counts as, and the cursor behind it. -/
def lineBreak? (k : Cursor) : Option (Char × Cursor) :=
  match k.rest with
  | '\r' :: '\n' :: _ => some ('\n', k.forward 2)
  | c :: _ =>
    if c.toNat == 0x2028 || c.toNat == 0x2029 then some (c, k.advance)
    else if isBreak c then some ('\n', k.advance)
    else none
  | [] => none

/-- Whether a line that separates documents starts here. -/
def separatesDocuments (k : Cursor) : Bool :=
  (k.rest.take 3 == "---".toList || k.rest.take 3 == "...".toList) && k.spaces 3

end Cursor

end InkServer.Yaml
