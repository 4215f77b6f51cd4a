import InkServer.Yaml.Cursor
import InkServer.Text.Basic

/-!
# Scalar texts of YAML

The three ways to write a text: in quotes, plain, and as an indented block. Lines are folded: one line
end between words is a blank, more keep all but the first.
-/

namespace InkServer.Yaml

/-- A text so far, last character first, and the cursor behind it. -/
abbrev Reading := List Char × Cursor

def hexValue? (c : Char) : Option Nat :=
  if '0' ≤ c ∧ c ≤ '9' then some (c.toNat - 48)
  else if 'a' ≤ c ∧ c ≤ 'f' then some (c.toNat - 87)
  else if 'A' ≤ c ∧ c ≤ 'F' then some (c.toNat - 55)
  else none

/-- The number written by hexadecimal digits. -/
def hexNumber? (cs : List Char) : Option Nat :=
  cs.foldlM (fun n c => (hexValue? c).map (16 * n + ·)) 0

/-- What the character behind a backslash stands for. -/
def simpleEscape? : Char → Option Char
  | '0' => some '\x00'
  | 'a' => some '\x07'
  | 'b' => some '\x08'
  | 't' => some '\t'
  | '\t' => some '\t'
  | 'n' => some '\n'
  | 'v' => some '\x0b'
  | 'f' => some '\x0c'
  | 'r' => some '\r'
  | 'e' => some '\x1b'
  | ' ' => some ' '
  | '"' => some '"'
  | '\\' => some '\\'
  | '/' => some '/'
  | 'N' => some '\u0085'
  | '_' => some '\u00a0'
  | 'L' => some '\u2028'
  | 'P' => some '\u2029'
  | _ => none

/-- How many hexadecimal digits follow the character behind a backslash. -/
def escapeWidth? : Char → Option Nat
  | 'x' => some 2
  | 'u' => some 4
  | 'U' => some 8
  | _ => none

/-! ## Quoted texts -/

/-- The empty lines inside a quoted text. -/
def quotedBreaks : Nat → List Char → Cursor → Except Error Reading
  | 0, _, _ => .error .scanner
  | fuel + 1, seen, k =>
    if k.separatesDocuments then .error .scanner
    else
      let k := k.skipWhile isBlank
      match k.lineBreak? with
      | some (c, k) => quotedBreaks fuel (c :: seen) k
      | none => .ok (seen, k)

/-- The blanks inside a quoted text. -/
def quotedSpaces (fuel : Nat) (seen : List Char) (k : Cursor) : Except Error Reading := do
  let (blanks, k) := k.takeWhile isBlank
  if k.next.isNone then throw .scanner
  match k.lineBreak? with
  | none => pure (blanks.reverse ++ seen, k)
  | some (c, k) =>
    let (breaks, k) ← quotedBreaks fuel [] k
    if c ≠ '\n' then pure (breaks ++ c :: seen, k)
    else if breaks.isEmpty then pure (' ' :: seen, k)
    else pure (breaks ++ seen, k)

/-- The characters of a quoted text up to the next blank, line end or closing quote. -/
def quotedChars (double : Bool) : Nat → List Char → Cursor → Except Error Reading
  | 0, _, _ => .error .scanner
  | fuel + 1, seen, k =>
    match k.next with
    | none => .ok (seen, k)
    | some c =>
      if isBlank c || isBreak c then .ok (seen, k)
      else if !double && c = '\'' then
        if k.peek 1 = some '\'' then quotedChars double fuel ('\'' :: seen) (k.forward 2)
        else .ok (seen, k)
      else if double && c = '"' then .ok (seen, k)
      else if double && c = '\\' then
        let k := k.advance
        match k.next with
        | none => .error .scanner
        | some e =>
          match simpleEscape? e, escapeWidth? e with
          | some c, _ => quotedChars double fuel (c :: seen) k.advance
          | none, some width =>
            let k := k.advance
            let digits := k.rest.take width
            match (if digits.length = width then hexNumber? digits else none) with
            | some n => quotedChars double fuel (Char.ofNat n :: seen) (k.forward width)
            | none => .error .scanner
          | none, none =>
            match k.lineBreak? with
            | some (_, k) =>
              match quotedBreaks fuel [] k with
              | .ok (breaks, k) => quotedChars double fuel (breaks ++ seen) k
              | .error e => .error e
            | none => .error .scanner
      else quotedChars double fuel (c :: seen) k.advance

/-- The rest of a quoted text up to and with its closing quote. -/
def quotedRest (double : Bool) : Nat → List Char → Cursor → Except Error Reading
  | 0, _, _ => .error .scanner
  | fuel + 1, seen, k => do
    if k.isAt (if double then '"' else '\'') then pure (seen, k.advance)
    else
      let (seen, k) ← quotedSpaces (fuel + 1) seen k
      let (seen, k) ← quotedChars double (fuel + 1) seen k
      quotedRest double fuel seen k

/-- A quoted text; the cursor stands before the opening quote. -/
def quotedText (double : Bool) (k : Cursor) : Except Error (String × Cursor) := do
  let fuel := k.rest.length + 1
  let (seen, k) ← quotedChars double fuel [] k.advance
  let (seen, k) ← quotedRest double fuel seen k
  pure (String.ofList seen.reverse, k)

/-! ## Plain texts -/

/-- What separates two words of a plain text. -/
inductive Gap where
  /-- The text ends at a line that separates documents. -/
  | closed
  /-- Characters, last first; none if nothing separates. -/
  | chars (seen : List Char)

/-- The empty lines and indentation behind the end of a line of a plain text. -/
def plainBreaks : Nat → List Char → Cursor → Option (List Char) × Cursor
  | 0, _, k => (none, k)
  | fuel + 1, seen, k =>
    let k := k.skipSpaces
    match k.lineBreak? with
    | none => (some seen, k)
    | some (c, k) => if k.separatesDocuments then (none, k) else plainBreaks fuel (c :: seen) k

/-- Reads what separates two words of a plain text; the flag says whether a line ended. -/
def plainGap (k : Cursor) : Gap × Bool × Cursor :=
  let (blanks, k) := k.takeWhile (· = ' ')
  match k.lineBreak? with
  | none => (.chars blanks.reverse, false, k)
  | some (c, k) =>
    if k.separatesDocuments then (.closed, true, k)
    else
      match plainBreaks (k.rest.length + 1) [] k with
      | (none, k) => (.closed, true, k)
      | (some breaks, k) =>
        if c ≠ '\n' then (.chars (breaks ++ [c]), true, k)
        else if breaks.isEmpty then (.chars [' '], true, k)
        else (.chars breaks, true, k)

def isFlowMark (c : Char) : Bool :=
  c = ',' || c = '[' || c = ']' || c = '\x7b' || c = '\x7d'

/-- Whether a plain text stops before the next character. -/
def plainStops (flow : Bool) (k : Cursor) : Bool :=
  match k.next with
  | none => true
  | some c =>
    isBlank c || isBreak c ||
      (c = ':' && (k.spaces 1 || (flow && (k.peek 1).any isFlowMark))) ||
      (flow && (isFlowMark c || c = '?'))

/-- The next word of a plain text. -/
def plainWord (flow : Bool) : Nat → List Char → Cursor → Reading
  | 0, seen, k => (seen, k)
  | fuel + 1, seen, k =>
    match k.next with
    | none => (seen, k)
    | some c => if plainStops flow k then (seen, k) else plainWord flow fuel (c :: seen) k.advance

/-- The words of a plain text; the flag says whether a line ended behind the last one. -/
def plainWords (flow : Bool) (indent : Int) :
    Nat → List Char → List Char → Bool → Cursor → List Char × Bool × Cursor
  | 0, seen, _, ended, k => (seen, ended, k)
  | fuel + 1, seen, gap, ended, k =>
    if k.isAt '#' then (seen, ended, k)
    else
      let (word, k') := plainWord flow (fuel + 1) [] k
      if word.isEmpty then (seen, ended, k)
      else
        let seen := word ++ gap ++ seen
        match plainGap k' with
        | (.closed, ended, k) => (seen, ended, k)
        | (.chars gap, ended, k) =>
          if gap.isEmpty || k.isAt '#' || (!flow && (k.column : Int) < indent) then (seen, ended, k)
          else plainWords flow indent fuel seen gap ended k

/-- A plain text, and whether a simple key may follow it because a line ended. -/
def plainText (flow : Bool) (indent : Int) (k : Cursor) : String × Bool × Cursor :=
  let (seen, ended, k) := plainWords flow (indent + 1) (k.rest.length + 1) [] [] false k
  (String.ofList seen.reverse, ended, k)

/-! ## Block texts -/

/-- What is kept of the line ends behind a block text. -/
inductive Chomp where
  | strip
  | clip
  | keep
  deriving DecidableEq

/-- The sign that says what to keep. -/
def chompOf? : Option Char → Option Chomp
  | some '+' => some .keep
  | some '-' => some .strip
  | _ => none

/-- The digit that says how far a block text is indented; zero is refused. -/
def incrementOf (c : Option Char) : Except Error (Option Nat) :=
  match c with
  | some d =>
    if '0' ≤ d ∧ d ≤ '9' then
      if d = '0' then .error .scanner else .ok (some (d.toNat - 48))
    else .ok none
  | none => .ok none

/-- The header of a block text behind its mark. -/
def blockHeader (k : Cursor) : Except Error (Chomp × Option Nat × Cursor) := do
  let (chomp, increment, k) ←
    match chompOf? k.next with
    | some chomp =>
      let k := k.advance
      match ← incrementOf k.next with
      | some n => pure (chomp, some n, k.advance)
      | none => pure (chomp, none, k)
    | none =>
      match ← incrementOf k.next with
      | some n =>
        let k := k.advance
        match chompOf? k.next with
        | some chomp => pure (chomp, some n, k.advance)
        | none => pure (Chomp.clip, some n, k)
      | none => pure (Chomp.clip, none, k)
  if !k.atSpaceOrBreak then throw .scanner
  let k := k.skipSpaces.skipComment
  if !k.breaks 0 then throw .scanner
  pure (chomp, increment, ((k.lineBreak?.map Prod.snd).getD k))

/-- The empty lines before a block text, and the greatest indentation among them and its first line. -/
def blockIndentation : Nat → List Char → Nat → Cursor → List Char × Nat × Cursor
  | 0, seen, deepest, k => (seen, deepest, k)
  | fuel + 1, seen, deepest, k =>
    if k.isAt ' ' then
      let k := k.skipSpaces
      blockIndentation fuel seen (max deepest k.column) k
    else
      match k.lineBreak? with
      | some (c, k) => blockIndentation fuel (c :: seen) deepest k
      | none => (seen, deepest, k)

/-- Skips up to `indent` columns of spaces. -/
def skipIndent (indent : Nat) : Nat → Cursor → Cursor
  | 0, k => k
  | fuel + 1, k => if k.column < indent && k.isAt ' ' then skipIndent indent fuel k.advance else k

/-- The empty lines between two lines of a block text. -/
def blockBreaks (indent : Nat) : Nat → List Char → Cursor → Reading
  | 0, seen, k => (seen, k)
  | fuel + 1, seen, k =>
    let k := skipIndent indent indent k
    match k.lineBreak? with
    | some (c, k) => blockBreaks indent fuel (c :: seen) k
    | none => (seen, k)

/-- Whether a line of a block text starts here. -/
def inBlock (indent : Nat) (k : Cursor) : Bool := k.column == indent && k.next.isSome

/-- The lines of a block text: the text so far, the last line end, the empty lines behind it. -/
def blockLines (folded : Bool) (indent : Nat) :
    Nat → List Char → List Char → Cursor → List Char × List Char × List Char × Cursor
  | 0, seen, breaks, k => (seen, [], breaks, k)
  | fuel + 1, seen, breaks, k =>
    if !inBlock indent k then (seen, [], breaks, k)
    else
      let flush := !(k.next.any isBlank)
      let (line, k) := k.takeWhile fun c => !isBreak c
      let seen := line.reverse ++ breaks ++ seen
      let (ending, k) :=
        match k.lineBreak? with
        | some (c, k) => ([c], k)
        | none => ([], k)
      let (breaks, k) := blockBreaks indent (fuel + 1) [] k
      if inBlock indent k then
        let gap :=
          if folded && ending == ['\n'] && flush && !(k.next.any isBlank) then
            if breaks.isEmpty then [' '] else []
          else ending
        blockLines folded indent fuel (gap ++ seen) breaks k
      else (seen, ending, breaks, k)

/-- A block text inside a node indented by `indent`; the cursor stands before its mark. -/
def blockText (folded : Bool) (indent : Int) (k : Cursor) : Except Error (String × Cursor) := do
  let (chomp, increment, k) ← blockHeader k.advance
  let least := max 1 (indent + 1).toNat
  let fuel := k.rest.length + 1
  let (column, breaks, k) :=
    match increment with
    | none =>
      let (breaks, deepest, k) := blockIndentation fuel [] 0 k
      (max least deepest, breaks, k)
    | some n =>
      let column := least + n - 1
      let (breaks, k) := blockBreaks column fuel [] k
      (column, breaks, k)
  let (seen, ending, breaks, k) := blockLines folded column fuel [] breaks k
  let seen := if chomp = .strip then seen else ending ++ seen
  let seen := if chomp = .keep then breaks ++ seen else seen
  pure (String.ofList seen.reverse, k)

end InkServer.Yaml
