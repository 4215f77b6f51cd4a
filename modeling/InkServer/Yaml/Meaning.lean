import InkServer.Value
import InkServer.Yaml.Cursor

/-!
# What plain texts of YAML mean

A plain text may be a number, a truth value, nothing or a date; every other one is a text. The forms are
those of YAML 1.1: `yes` and `on` are true, a leading zero makes a number octal, digits may be grouped by
underscores, and groups of digits between colons count in sixties.
-/

namespace InkServer.Yaml

/-- The sorts of scalar that a plain text is recognized as. -/
inductive ScalarSort where
  | bool
  | float
  | int
  | merge
  | null
  | timestamp
  | value
  | str
  deriving DecidableEq

def isDigit (c : Char) : Bool := '0' ≤ c && c ≤ '9'

def isDigitOrUnderscore (c : Char) : Bool := isDigit c || c = '_'

def trueWords : List String := ["yes", "Yes", "YES", "true", "True", "TRUE", "on", "On", "ON"]

def falseWords : List String := ["no", "No", "NO", "false", "False", "FALSE", "off", "Off", "OFF"]

def nullWords : List String := ["~", "null", "Null", "NULL", ""]

/-- A text without its sign. -/
def unsigned (cs : List Char) : List Char :=
  match cs with
  | '+' :: rest => rest
  | '-' :: rest => rest
  | _ => cs

/-- An exponent with a sign at the end of a number. -/
def isExponent (cs : List Char) : Bool :=
  match cs with
  | [] => true
  | e :: sign :: d :: rest =>
    (e = 'e' || e = 'E') && (sign = '+' || sign = '-') && (d :: rest).all isDigit
  | _ => false

/-- Groups of up to two digits below sixty, each behind a colon, up to the rest that has none. -/
def isSixties : Nat → List Char → (List Char → Bool) → Bool
  | 0, _, _ => false
  | fuel + 1, cs, rest =>
    let tail (cs : List Char) : Bool :=
      match cs with
      | ':' :: _ => isSixties fuel cs rest
      | _ => rest cs
    match cs with
    | ':' :: a :: b :: cs' =>
      if '0' ≤ a && a ≤ '5' && isDigit b then tail cs'
      else if isDigit a then tail (b :: cs')
      else false
    | [':', a] => isDigit a && rest []
    | _ => false

/-- Digits and underscores before sixties. -/
def startsSixties (cs : List Char) (first : Char → Bool) (rest : List Char → Bool) : Bool :=
  match cs with
  | c :: cs' => first c && isSixties cs.length (cs'.dropWhile isDigitOrUnderscore) rest
  | [] => false

def isFloat (cs : List Char) : Bool :=
  let u := unsigned cs
  let pointed : Bool :=
    match u with
    | c :: rest =>
      isDigit c &&
        match rest.dropWhile isDigitOrUnderscore with
        | '.' :: rest => isExponent (rest.dropWhile isDigitOrUnderscore)
        | _ => false
    | [] => false
  let fraction : Bool :=
    match cs with
    | '.' :: c :: rest => isDigit c && isExponent (rest.dropWhile isDigitOrUnderscore)
    | _ => false
  let sixties :=
    startsSixties u isDigit fun rest =>
      match rest with
      | '.' :: rest => rest.all isDigitOrUnderscore
      | _ => false
  pointed || fraction || sixties || [".inf", ".Inf", ".INF"].contains (String.ofList u) ||
    [".nan", ".NaN", ".NAN"].contains (String.ofList cs)

def isHexDigit (c : Char) : Bool :=
  isDigit c || ('a' ≤ c && c ≤ 'f') || ('A' ≤ c && c ≤ 'F')

def isInt (cs : List Char) : Bool :=
  let u := unsigned cs
  let radix : Bool :=
    match u with
    | '0' :: 'b' :: c :: rest => (c :: rest).all fun c => c = '0' || c = '1' || c = '_'
    | '0' :: 'x' :: c :: rest => (c :: rest).all fun c => isHexDigit c || c = '_'
    | '0' :: c :: rest => (c :: rest).all fun c => ('0' ≤ c && c ≤ '7') || c = '_'
    | _ => false
  let decimal : Bool :=
    match u with
    | ['0'] => true
    | c :: rest => '1' ≤ c && c ≤ '9' && rest.all isDigitOrUnderscore
    | [] => false
  radix || decimal || startsSixties u (fun c => '1' ≤ c && c ≤ '9') List.isEmpty

/-! ## Dates and times -/

/-- A date, and the time of day if there is one: hour, minute, second, microseconds, and the offset from
universal time in minutes. -/
structure Moment where
  year : Nat
  month : Nat
  day : Nat
  time : Option (Nat × Nat × Nat × Nat × Option Int)

def number (cs : List Char) : Nat := cs.foldl (fun n c => 10 * n + (c.toNat - 48)) 0

/-- Reads from `least` to `most` digits. -/
def digits? (least most : Nat) (cs : List Char) : Option (Nat × List Char) :=
  let ds := (cs.take most).takeWhile isDigit
  if ds.length < least then none else some (number ds, cs.drop ds.length)

/-- Reads a given character. -/
def char? (c : Char) (cs : List Char) : Option (List Char) :=
  match cs with
  | d :: rest => if c = d then some rest else none
  | [] => none

/-- Reads a zone: universal time or hours and minutes off it. -/
def zone? (cs : List Char) : Option (Option Int) :=
  match cs.dropWhile isBlank with
  | [] => if cs.isEmpty then some none else none
  | ['Z'] => some (some 0)
  | sign :: rest =>
    if sign = '+' || sign = '-' then do
      let (hours, rest) ← digits? 1 2 rest
      let (minutes, rest) ←
        match rest with
        | ':' :: rest => digits? 2 2 rest
        | _ => some (0, rest)
      if rest.isEmpty then
        let offset : Int := hours * 60 + minutes
        some (some (if sign = '-' then -offset else offset))
      else none
    else none

/-- Reads a date, or a date and a time of day. -/
def moment? (cs : List Char) : Option Moment := do
  let (year, rest) ← digits? 4 4 cs
  let rest ← char? '-' rest
  let (month, rest') ← digits? 1 2 rest
  let rest' ← char? '-' rest'
  let (day, rest'') ← digits? 1 2 rest'
  if rest''.isEmpty then
    if rest.length = 5 then some ⟨year, month, day, none⟩ else none
  else
    let rest ←
      match rest'' with
      | 'T' :: rest => some rest
      | 't' :: rest => some rest
      | c :: _ => if isBlank c then some (rest''.dropWhile isBlank) else none
      | [] => none
    let (hour, rest) ← digits? 1 2 rest
    let rest ← char? ':' rest
    let (minute, rest) ← digits? 2 2 rest
    let rest ← char? ':' rest
    let (second, rest) ← digits? 2 2 rest
    let (fraction, rest) :=
      match rest with
      | '.' :: rest => (rest.takeWhile isDigit, rest.dropWhile isDigit)
      | _ => ([], rest)
    let micros := number ((fraction ++ List.replicate 6 '0').take 6)
    let zone ← zone? rest
    some ⟨year, month, day, some (hour, minute, second, micros, zone)⟩

def daysIn (year month : Nat) : Nat :=
  if month = 2 then
    if year % 4 = 0 ∧ (year % 100 ≠ 0 ∨ year % 400 = 0) then 29 else 28
  else if month = 4 ∨ month = 6 ∨ month = 9 ∨ month = 11 then 30
  else 31

/-- How a span of minutes appears. -/
def shownSpan (minutes : Int) : String :=
  let days := minutes.fdiv 1440
  let seconds := minutes.fmod 1440 * 60
  let parts := (if days ≠ 0 then [s!"days={days}"] else []) ++
    (if seconds ≠ 0 then [s!"seconds={seconds}"] else [])
  "datetime.timedelta(" ++ String.intercalate ", " parts ++ ")"

/-- How an offset of minutes appears. -/
def shownOffset (minutes : Int) : String :=
  if minutes = 0 then "datetime.timezone.utc" else "datetime.timezone(" ++ shownSpan minutes ++ ")"

/-- Why a zone is too far off. -/
def zoneFault? (minutes : Int) : Option String :=
  if minutes.natAbs < 1440 then none
  else some ("offset must be a timedelta strictly between -timedelta(hours=24) and " ++
    "timedelta(hours=24), not " ++ shownSpan minutes)

/-- Why there is no such date. -/
def Moment.dateFault? (m : Moment) : Option String :=
  if m.year = 0 then some "year 0 is out of range"
  else if m.month = 0 ∨ 12 < m.month then some "month must be in 1..12"
  else if m.day = 0 ∨ daysIn m.year m.month < m.day then some "day is out of range for month"
  else none

/-- Why there is no such time of day. -/
def clockFault? (hour minute second : Nat) : Option String :=
  if 23 < hour then some "hour must be in 0..23"
  else if 59 < minute then some "minute must be in 0..59"
  else if 59 < second then some "second must be in 0..59"
  else none

/-- Why there is no such moment; of several reasons the first. -/
def Moment.fault? (m : Moment) : Option String :=
  match m.time with
  | none => m.dateFault?
  | some (hour, minute, second, _, zone) =>
    (zone.bind zoneFault?).or (m.dateFault?.or (clockFault? hour minute second))

/-- How a moment appears in a message. -/
def Moment.shown (m : Moment) : String :=
  match m.time with
  | none => s!"datetime.date({m.year}, {m.month}, {m.day})"
  | some (h, min, s, micros, zone) =>
    let clock := if micros ≠ 0 then s!", {s}, {micros}" else if s ≠ 0 then s!", {s}" else ""
    let zone := zone.elim "" fun z => ", tzinfo=" ++ shownOffset z
    s!"datetime.datetime({m.year}, {m.month}, {m.day}, {h}, {min}" ++ clock ++ zone ++ ")"

/-! ## Sorts and values -/

/-- The sort of a plain text. -/
def sortOf (s : String) : ScalarSort :=
  let cs := s.toList
  if trueWords.contains s || falseWords.contains s then .bool
  else if isFloat cs then .float
  else if isInt cs then .int
  else if s = "<<" then .merge
  else if nullWords.contains s then .null
  else if (moment? cs).isSome then .timestamp
  else if s = "=" then .value
  else .str

/-- The value of digits between colons, counted in sixties. -/
def sixties (parts : List Nat) : Nat := parts.foldl (fun n d => 60 * n + d) 0

/-- The pieces of a text between colons. -/
def colonPieces : List Char → List (List Char)
  | [] => [[]]
  | ':' :: cs => [] :: colonPieces cs
  | c :: cs =>
    match colonPieces cs with
    | piece :: rest => (c :: piece) :: rest
    | [] => [[c]]

def isNegative (cs : List Char) : Bool := cs.head? == some '-'

/-- The number written in a base, `none` if a character is no digit of it. -/
def inBase? (base : Nat) (cs : List Char) : Option Nat :=
  if cs.isEmpty then none
  else cs.foldlM (fun n c =>
    let d :=
      if isDigit c then some (c.toNat - 48)
      else if 'a' ≤ c ∧ c ≤ 'z' then some (c.toNat - 87)
      else if 'A' ≤ c ∧ c ≤ 'Z' then some (c.toNat - 55)
      else none
    match d with
    | some d => if d < base then some (base * n + d) else none
    | none => none) 0

/-- The whole number that a text stands for. -/
def intValue? (s : String) : Option Int :=
  let cs := s.toList.filter (· ≠ '_')
  let u := unsigned cs
  let n? : Option Nat :=
    match u with
    | ['0'] => some 0
    | '0' :: 'b' :: rest => inBase? 2 rest
    | '0' :: 'x' :: rest => inBase? 16 rest
    | '0' :: _ => inBase? 8 u
    | _ => if ':' ∈ u then ((colonPieces u).mapM (inBase? 10)).map sixties else inBase? 10 u
  n?.map fun n => if isNegative cs then -(n : Int) else n

/-- How many digits a number has that is written with too many. -/
def tooLong? (s : String) : Option Nat :=
  let u := unsigned (s.toList.filter (· ≠ '_'))
  if u.head? ≠ some '0' ∧ u.all isDigit ∧ Integer.maxDigits < u.length then some u.length else none

/-- Why a text is no whole number. -/
def intFault (s : String) : ScalarFault :=
  let u := unsigned (s.toList.filter (· ≠ '_'))
  match tooLong? s, u with
  | some n, _ => .tooLong n
  | none, '0' :: 'b' :: rest => .notInt 2 (String.ofList rest)
  | none, '0' :: 'x' :: rest => .notInt 16 (String.ofList rest)
  | none, '0' :: _ => .notInt 8 (String.ofList u)
  | none, _ =>
    let piece := ((colonPieces u).find? fun piece => (inBase? 10 piece).isNone).getD u
    .notInt 10 (String.ofList piece)

/-- The decimal that a text without sign stands for: its digits and the power of ten behind them. -/
def decimal? (cs : List Char) : Option (Nat × Int) :=
  let whole := cs.takeWhile isDigit
  let rest := cs.dropWhile isDigit
  let (fraction, rest) : List Char × List Char :=
    match rest with
    | '.' :: rest => (rest.takeWhile isDigit, rest.dropWhile isDigit)
    | _ => ([], rest)
  let exponent? : Option Int :=
    match rest with
    | [] => some 0
    | e :: rest =>
      if e = 'e' || e = 'E' then
        let ds := unsigned rest
        if ds.isEmpty || !ds.all isDigit then none
        else some (if isNegative rest then -(number ds : Int) else number ds)
      else none
  if whole.isEmpty && fraction.isEmpty then none
  else exponent?.map fun e => (number (whole ++ fraction), e - fraction.length)

/-- The number with a fraction that a text stands for. -/
def floatValue? (s : String) : Option Binary64 :=
  let cs := s.toList.filter (· ≠ '_')
  let negative := isNegative cs
  let u := unsigned cs
  let word := String.ofList (u.map Char.toLower)
  if word = ".inf" then some (.infinite negative)
  else if word = ".nan" then some .nan
  else
    match colonPieces u with
    | [_] => (decimal? u).map fun (digits, e) => .ofDecimal negative digits e
    | pieces => do
      let decimals ← pieces.mapM decimal?
      let least := decimals.foldl (fun m d => min m d.2) 0
      let scaled := decimals.map fun (digits, e) => digits * Binary64.tenTo (e - least).toNat
      some (.ofDecimal negative (sixties scaled) least)

/-- The value of a scalar of a sort; `none` if the text does not fit it. -/
def ScalarSort.value? (sort : ScalarSort) (s : String) : Option Value :=
  match sort with
  | .bool =>
    if (trueWords.map String.toLower).contains s.toLower then some (.bool true)
    else if (falseWords.map String.toLower).contains s.toLower then some (.bool false)
    else none
  | .int => if (tooLong? s).isSome then none else (intValue? s).map .int
  | .float => (floatValue? s).map .float
  | .null => some .null
  | .timestamp =>
    match moment? s.toList with
    | some m => if m.fault?.isNone then some (.other m.shown) else none
    | none => none
  | .str => some (.str s)
  | .merge => none
  | .value => none

/-- Why a text has no value of a sort. -/
def ScalarSort.fault (sort : ScalarSort) (s : String) : ScalarFault :=
  match sort with
  | .bool => .notBool s.toLower
  | .int => intFault s
  | .float =>
    let u := (unsigned (s.toList.filter (· ≠ '_'))).map Char.toLower
    let piece := ((colonPieces u).find? fun piece => (decimal? piece).isNone).getD u
    .notFloat (String.ofList piece)
  | .timestamp => .noMoment (((moment? s.toList).bind Moment.fault?).getD "")
  | _ => .noMoment ""

end InkServer.Yaml
