import InkServer.Diagnostic
import InkServer.Path.Normal
import InkServer.Text.Basic
import InkServer.Text.Quoted
import InkServer.Text.Split

/-!
# Lines of a compiler report

The compiler writes one finding per line, such as `ERROR: 'a/b.ink' line 12, column 3: Expected …`. A
line is read into an entry that names a file below the mirror; a line in any other form, or one that
names a file outside, is no finding.
-/

namespace InkServer.Report

/-! ## Words in any letter case -/

/-- Whether `c` stands for the lower-case ASCII letter `letter` in either case. The dotless and the
dotted capital I stand for `i`. -/
def isLetter (letter c : Char) : Bool :=
  c.toLower = letter || (letter = 'i' && (c = 'ı' || c = 'İ'))

/-- What follows a word at the front; letters of the word are lower case. -/
def afterWord? : List Char → List Char → Option (List Char)
  | [], cs => some cs
  | _ :: _, [] => none
  | w :: word, c :: cs => if isLetter w c then afterWord? word cs else none

def skipBlanks (cs : List Char) : List Char := cs.dropWhile Text.isBlank

/-- What follows blanks, of which there has to be one. -/
def afterBlanks? : List Char → Option (List Char)
  | c :: cs => if Text.isBlank c then some (skipBlanks cs) else none
  | [] => none

/-! ## Severities -/

/-- The words that say how grave a finding is. -/
def severities : List (String × Severity) :=
  [("RUNTIME ERROR", .error), ("RUNTIME WARNING", .warning), ("ERROR", .error), ("WARNING", .warning),
    ("TODO", .information)]

/-- A severity word at the front as it is written, and what follows it. -/
def readSeverity? (cs : List Char) : Option (List Char × List Char) :=
  severities.findSome? fun (word, _) =>
    (afterWord? (word.toList.map Char.toLower) cs).map fun rest =>
      (cs.take (cs.length - rest.length), rest)

/-- The upper case of a severity word; the dotless I belongs to the plain capital I. -/
def upperSeverity (word : List Char) : String :=
  String.ofList (word.map fun c => if c = 'ı' then 'I' else c.toUpper)

/-- A severity word with a capital at its front alone. -/
def capitalizeSeverity (word : List Char) : String :=
  match word with
  | [] => ""
  | c :: rest => String.ofList ((if c = 'ı' then 'I' else c.toUpper) :: rest.map Char.toLower)

/-! ## Lines -/

/-- The parts of a line in the form of a finding, as they are written. -/
structure Parts where
  severity : List Char
  path : Option (List Char)
  line : List Char
  column : Option (List Char)
  message : List Char

/-- Reads a quoted path and the blanks behind it, if there is one. -/
def readPath? (cs : List Char) : Option (Option (List Char) × List Char) :=
  match cs with
  | '\'' :: rest =>
    let path := rest.takeWhile (· ≠ '\'')
    match rest.dropWhile (· ≠ '\'') with
    | _ :: rest => if path.isEmpty then none else (afterBlanks? rest).map fun rest => (some path, rest)
    | [] => none
  | _ => some (none, cs)

/-- Reads a column behind a line number, if there is one. -/
def readColumn? (cs : List Char) : Option (List Char × List Char) := do
  let cs := skipBlanks cs
  let cs := match cs with
    | ',' :: rest => skipBlanks rest
    | _ => cs
  let rest ← afterWord? "col".toList cs
  let rest := (afterWord? "umn".toList rest).getD rest
  let rest ← afterBlanks? rest
  let digits := rest.takeWhile Text.isDigit
  if digits.isEmpty then none else some (digits, rest.dropWhile Text.isDigit)

/-- The message behind the last colon; it must be on one line. -/
def readMessage? (cs : List Char) : Option (List Char) :=
  let message := Text.trimBlanks cs
  if '\n' ∈ message then none else some message

/-- Reads a line in the form of a finding. -/
def readParts? (line : List Char) : Option Parts := do
  let (severity, rest) ← readSeverity? (skipBlanks line)
  let rest ← Text.after? [':'] (skipBlanks rest)
  let (path, rest) ← readPath? (skipBlanks rest)
  let rest ← afterWord? "line".toList rest
  let rest ← afterBlanks? rest
  let number := rest.takeWhile Text.isDigit
  let rest := rest.dropWhile Text.isDigit
  if number.isEmpty then none
  else
    let (column, rest) :=
      match readColumn? rest with
      | some (digits, rest') => (some digits, rest')
      | none => (none, rest)
    let rest ← Text.after? [':'] (skipBlanks rest)
    let message ← readMessage? rest
    some ⟨severity, path, number, column, message⟩

/-! ## Entries -/

/-- One finding of a report. Lines and columns count from one, and the path is relative to the mirror
unless the compile's own entry path is not. -/
structure Entry where
  severity : Severity
  path : Path
  line : Nat
  column : Option Nat
  message : String
  deriving DecidableEq, Repr

/-- Why a line in the form of a finding cannot be read. -/
inductive Error where
  /-- The severity is written with a letter that has no plain upper case. -/
  | unknownSeverity (word : String)
  /-- A number has too many digits. -/
  | tooManyDigits (count : Nat)
  deriving DecidableEq, Repr

/-- The most digits a number may have. -/
def maxDigits : Nat := 4300

def Error.message : Error → String
  | .unknownSeverity word => Text.quoted word
  | .tooManyDigits count =>
    s!"Exceeds the limit (4300 digits) for integer string conversion: value has {count} digits; " ++
      "use sys.set_int_max_str_digits() to increase the limit"

/-- The file a line names, relative to the mirror; `none` if it lies outside. -/
def locate (mirror entry : Path) : Option (List Char) → Option Path
  | none => some entry
  | some written =>
    let p := Path.ofText (String.ofList written)
    let relative := if p.isAbsolute then p.relativeTo? mirror else some p
    relative.filter fun r => ".." ∉ r.segments

def readNumber (digits : List Char) : Except Error Nat :=
  if maxDigits < digits.length then .error (.tooManyDigits digits.length)
  else .ok ((Text.digitsValue? 0 digits).getD 0)

def readSeverity (word : List Char) : Except Error Severity :=
  match severities.find? fun (known, _) => known = upperSeverity word with
  | some (_, severity) => .ok severity
  | none => .error (.unknownSeverity (upperSeverity word))

/-- Reads one line of a report; `none` for a line that is no finding inside the mirror. -/
def parseLine (line : List Char) (mirror entry : Path) : Except Error (Option Entry) := do
  let some parts := readParts? line | pure none
  let some path := locate mirror entry parts.path | pure none
  let severity ← readSeverity parts.severity
  let number ← readNumber parts.line
  let column ← parts.column.mapM readNumber
  let message :=
    if parts.message.isEmpty then capitalizeSeverity parts.severity else String.ofList parts.message
  pure (some ⟨severity, path, number, column, message⟩)

/-! ## Writing lines -/

/-- The line that a compiler writes about a finding: the severity word, then the path if it is given. -/
def writeLine (word : String) (path : Option String) (line : String) (column : Option String)
    (message : String) : String :=
  word ++ ": " ++ (path.elim "" fun p => "'" ++ p ++ "' ") ++ "line " ++ line ++
    (column.elim "" fun c => ", column " ++ c) ++ ": " ++ message

end InkServer.Report
