import InkServer.Text.Split
import InkServer.Value

/-!
# JSON

Reading and writing dynamic values as JSON. Objects keep the order of their members, a repeated member
keeps its first place and its last value, and numbers with a point or an exponent stay apart from whole
numbers.
-/

namespace InkServer.Json

/-! ## Reading -/

def isSpace (c : Char) : Bool := c = ' ' || c = '\t' || c = '\n' || c = '\r'

def skipSpace (cs : List Char) : List Char := cs.dropWhile isSpace

def hexValue? (c : Char) : Option Nat :=
  if '0' ≤ c ∧ c ≤ '9' then some (c.toNat - '0'.toNat)
  else if 'a' ≤ c ∧ c ≤ 'f' then some (c.toNat - 'a'.toNat + 10)
  else if 'A' ≤ c ∧ c ≤ 'F' then some (c.toNat - 'A'.toNat + 10)
  else none

/-- Reads four hexadecimal digits. -/
def readUnit? : List Char → Option (Nat × List Char)
  | a :: b :: c :: d :: rest => do
    let a ← hexValue? a
    let b ← hexValue? b
    let c ← hexValue? c
    let d ← hexValue? d
    some (((a * 16 + b) * 16 + c) * 16 + d, rest)
  | _ => none

/-- The character of a high and a low surrogate. -/
def ofSurrogates (high low : Nat) : Char :=
  Char.ofNat (0x10000 + (high - 0xD800) * 0x400 + (low - 0xDC00))

def simpleEscape? : Char → Option Char
  | '"' => some '"'
  | '\\' => some '\\'
  | '/' => some '/'
  | 'b' => some '\x08'
  | 'f' => some '\x0c'
  | 'n' => some '\n'
  | 'r' => some '\r'
  | 't' => some '\t'
  | _ => none

/-- Reads a text up to its closing quote; `seen` is what came before, last character first. -/
def readText? : Nat → List Char → List Char → Option (String × List Char)
  | 0, _, _ => none
  | _ + 1, _, [] => none
  | fuel + 1, seen, c :: rest =>
    if c = '"' then some (String.ofList seen.reverse, rest)
    else if c = '\\' then
      match rest with
      | 'u' :: rest =>
        match readUnit? rest with
        | none => none
        | some (high, rest) =>
          if 0xD800 ≤ high ∧ high < 0xDC00 then
            match rest with
            | '\\' :: 'u' :: rest' =>
              match readUnit? rest' with
              | some (low, rest') =>
                if 0xDC00 ≤ low ∧ low < 0xE000 then
                  readText? fuel (ofSurrogates high low :: seen) rest'
                else readText? fuel ('\uFFFD' :: seen) rest
              | none => none
            | _ => readText? fuel ('\uFFFD' :: seen) rest
          else readText? fuel (Char.ofNat high :: seen) rest
      | e :: rest =>
        match simpleEscape? e with
        | some c => readText? fuel (c :: seen) rest
        | none => none
      | [] => none
    else readText? fuel (c :: seen) rest

def isAsciiDigit (c : Char) : Bool := '0' ≤ c && c ≤ '9'

/-- The number that ASCII digits stand for. -/
def digitsToNat (ds : List Char) : Nat :=
  ds.foldl (fun n c => 10 * n + (c.toNat - '0'.toNat)) 0

/-- Reads the part of a number after its whole digits: fraction digits, then the exponent. -/
def readFraction (cs : List Char) : List Char × List Char :=
  match cs with
  | '.' :: rest =>
    let ds := rest.takeWhile isAsciiDigit
    if ds.isEmpty then ([], cs) else (ds, rest.dropWhile isAsciiDigit)
  | _ => ([], cs)

/-- Reads an exponent if there is one. -/
def readExponent (cs : List Char) : Option Int × List Char :=
  match cs with
  | e :: rest =>
    if e = 'e' || e = 'E' then
      let (negative, rest) : Bool × List Char :=
        match rest with
        | '-' :: rest => (true, rest)
        | '+' :: rest => (false, rest)
        | _ => (false, rest)
      let ds := rest.takeWhile isAsciiDigit
      if ds.isEmpty then (none, cs)
      else
        let n : Int := digitsToNat ds
        (some (if negative then -n else n), rest.dropWhile isAsciiDigit)
    else (none, cs)
  | [] => (none, cs)

/-- Reads a number. -/
def readNumber? (cs : List Char) : Option (Value × List Char) :=
  let (negative, cs) : Bool × List Char :=
    match cs with
    | '-' :: rest => (true, rest)
    | _ => (false, cs)
  let whole := cs.takeWhile isAsciiDigit
  let rest := cs.dropWhile isAsciiDigit
  if whole.isEmpty then none
  else
    let (fraction, rest) := readFraction rest
    let (exponent, rest) := readExponent rest
    if fraction.isEmpty && exponent.isNone then
      let n : Int := digitsToNat whole
      some (.int (if negative then -n else n), rest)
    else
      let digits := digitsToNat (whole ++ fraction)
      some (.float (.ofDecimal negative digits (exponent.getD 0 - fraction.length)), rest)

mutual

/-- Reads one value; each call uses up fuel, and twice the length of the text is enough. -/
def readValue? : Nat → List Char → Option (Value × List Char)
  | 0, _ => none
  | fuel + 1, cs =>
    match skipSpace cs with
    | [] => none
    | '"' :: rest => (readText? (rest.length + 1) [] rest).map fun (s, rest) => (.str s, rest)
    | '[' :: rest =>
      match skipSpace rest with
      | ']' :: rest => some (.list [], rest)
      | rest => (readItems? fuel [] rest).map fun (items, rest) => (.list items, rest)
    | c :: rest =>
      if c = '\x7b' then
        match skipSpace rest with
        | [] => none
        | d :: rest' =>
          if d = '\x7d' then some (.map [], rest')
          else (readMembers? fuel [] (d :: rest')).map fun (entries, rest) => (.map entries, rest)
      else if c = 't' then (Text.after? "rue".toList rest).map fun rest => (.bool true, rest)
      else if c = 'f' then (Text.after? "alse".toList rest).map fun rest => (.bool false, rest)
      else if c = 'n' then (Text.after? "ull".toList rest).map fun rest => (.null, rest)
      else readNumber? (c :: rest)

/-- Reads the items of a list up to its end; `seen` is what came before, last item first. -/
def readItems? : Nat → List Value → List Char → Option (List Value × List Char)
  | 0, _, _ => none
  | fuel + 1, seen, cs =>
    match readValue? fuel cs with
    | none => none
    | some (v, rest) =>
      match skipSpace rest with
      | ',' :: rest => readItems? fuel (v :: seen) rest
      | ']' :: rest => some ((v :: seen).reverse, rest)
      | _ => none

/-- Reads the members of an object up to its end, after those in `seen`. -/
def readMembers? : Nat → List (Value × Value) → List Char → Option (List (Value × Value) × List Char)
  | 0, _, _ => none
  | fuel + 1, seen, cs =>
    match skipSpace cs with
    | '"' :: rest =>
      match readText? (rest.length + 1) [] rest with
      | none => none
      | some (key, rest) =>
        match skipSpace rest with
        | ':' :: rest =>
          match readValue? fuel rest with
          | none => none
          | some (v, rest) =>
            let seen := Value.putField key v seen
            match skipSpace rest with
            | [] => none
            | d :: rest =>
              if d = ',' then readMembers? fuel seen rest
              else if d = '\x7d' then some (seen, rest)
              else none
        | _ => none
    | _ => none

end

/-- Reads a text that holds one JSON value and nothing else. -/
def parse? (s : String) : Option Value :=
  let cs := s.toList
  match readValue? (2 * cs.length + 2) cs with
  | some (v, rest) => if (skipSpace rest).isEmpty then some v else none
  | none => none

/-! ## Writing -/

/-- The written form of one character inside a text; everything but printable ASCII is escaped. -/
def escapeChar (c : Char) : List Char :=
  if c = '"' then ['\\', '"']
  else if c = '\\' then ['\\', '\\']
  else if ' ' ≤ c ∧ c ≤ '~' then [c]
  else
    let n := c.toNat
    if n < 0x10000 then '\\' :: 'u' :: Text.hexDigits 4 n
    else
      let n := n - 0x10000
      '\\' :: 'u' :: Text.hexDigits 4 (0xD800 + n / 0x400) ++
        '\\' :: 'u' :: Text.hexDigits 4 (0xDC00 + n % 0x400)

/-- A text as JSON. -/
def writeText (s : String) : String :=
  "\"" ++ String.ofList (s.toList.flatMap escapeChar) ++ "\""

mutual

/-- A value as JSON. Keys that are no texts appear as in messages. -/
def write : Value → String
  | .null => "null"
  | .bool true => "true"
  | .bool false => "false"
  | .int i => toString i
  | .float x => x.text
  | .str s => writeText s
  | .list items => "[" ++ String.intercalate "," (writeItems items) ++ "]"
  | .map entries => "\x7b" ++ String.intercalate "," (writeEntries entries) ++ "\x7d"
  | .other appearance => writeText appearance

def writeItems : List Value → List String
  | [] => []
  | v :: rest => write v :: writeItems rest

def writeEntries : List (Value × Value) → List String
  | [] => []
  | (k, v) :: rest => (writeText k.plain ++ ":" ++ write v) :: writeEntries rest

end

end InkServer.Json
