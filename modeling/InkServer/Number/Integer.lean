import InkServer.Text.Basic
import InkServer.Text.Quoted

/-!
# Integers from text

How a text is read as an integer: blanks around it do not count, a sign may come first, digits may be those
of any script, and single underscores may stand between digits.
-/

namespace InkServer.Integer

/-- The most digits that are read. -/
def maxDigits : Nat := 4300

/-- Why a text is no integer. -/
inductive Error where
  | malformed (text : String)
  | tooLong (digits : Nat)
  deriving DecidableEq, Repr

def Error.message : Error → String
  | .malformed text => "invalid literal for int() with base 10: " ++ Text.quoted text
  | .tooLong digits =>
    s!"Exceeds the limit (4300 digits) for integer string conversion: value has {digits} digits; " ++
      "use sys.set_int_max_str_digits() to increase the limit"

/-- Whether a character may surround an integer. In a text of plain characters only the usual blanks
may. -/
def surrounds (plain : Bool) (c : Char) : Bool :=
  if plain then c = ' ' || ('\t' ≤ c && c ≤ '\r') else Text.isBlank c

/-- The values of digits, with single underscores between them left out. -/
def digits? : List Char → Option (List Nat)
  | [] => none
  | [c] => (Text.digitValue? c).map fun d => [d]
  | c :: '_' :: rest => do
    let d ← Text.digitValue? c
    let ds ← digits? rest
    pure (d :: ds)
  | c :: rest => do
    let d ← Text.digitValue? c
    let ds ← digits? rest
    pure (d :: ds)

/-- The sign in front, and what follows it. -/
def sign : List Char → Bool × List Char
  | '-' :: rest => (true, rest)
  | '+' :: rest => (false, rest)
  | cs => (false, cs)

/-- Reads an integer. -/
def ofText (s : String) : Except Error Int :=
  let plain := s.toList.all fun c => c.toNat < 128
  let cs := Text.trimRight (surrounds plain) (Text.trimLeft (surrounds plain) s.toList)
  let (negative, cs) := sign cs
  match digits? cs with
  | none => .error (.malformed s)
  | some ds =>
    if maxDigits < ds.length then .error (.tooLong ds.length)
    else
      let n : Nat := ds.foldl (fun n d => 10 * n + d) 0
      .ok (if negative then -(n : Int) else n)

end InkServer.Integer
