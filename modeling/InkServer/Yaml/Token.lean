import InkServer.Yaml.Text
import InkServer.Text.Utf8
import InkServer.Dict

/-!
# Tokens of YAML

A document as marks, texts and the starts and ends that indentation implies. A text becomes the key of a
mapping only when a colon follows it on its line; the mark for that key is then put in front of it
afterwards.
-/

namespace InkServer.Yaml

/-- A tag as written: the handle, if it has one, and the rest. -/
structure TagText where
  handle : Option String
  suffix : String
  deriving DecidableEq

/-- A line that tells how to read the document. -/
inductive Directive where
  | version (major : Nat)
  | tag (handle : String) (start : String)
  | unknown

inductive Token where
  | directive (d : Directive)
  | documentStart
  | documentEnd
  | blockSequence
  | blockMapping
  | blockEnd
  | flowSequence
  | flowSequenceEnd
  | flowMapping
  | flowMappingEnd
  | blockEntry
  | flowEntry
  | key
  | value
  | alias (name : String)
  | anchor (name : String)
  | tag (t : TagText)
  | scalar (text : String) (plain : Bool)

/-- A place where a mapping key may have started: which token it is, whether the indentation demands a
key there, and its position. -/
structure SimpleKey where
  token : Nat
  required : Bool
  index : Nat
  line : Nat
  column : Nat

/-- Where the reading of tokens stands. The indentation of the outermost level is `-1`. -/
structure Scan where
  cursor : Cursor
  tokens : Array Token := #[]
  flowLevel : Nat := 0
  indent : Int := -1
  indents : List Int := []
  keyAllowed : Bool := true
  keys : Dict Nat SimpleKey := {}

namespace Scan

/-- The longest a key on one line may be. -/
def maxKeyLength : Nat := 1024

def push (s : Scan) (t : Token) : Scan := { s with tokens := s.tokens.push t }

/-- Puts a token before the one at a place. -/
def insertAt (s : Scan) (i : Nat) (t : Token) : Scan :=
  { s with tokens := s.tokens.extract 0 i ++ #[t] ++ s.tokens.extract i s.tokens.size }

/-- Gives up keys that can no longer be followed by their colon. -/
def dropStaleKeys (s : Scan) : Except Error Scan := do
  let stale (k : SimpleKey) : Bool :=
    k.line != s.cursor.line || s.cursor.index - k.index > maxKeyLength
  if s.keys.values.any fun k => stale k && k.required then throw .scanner
  pure { s with keys := ⟨s.keys.entries.filter fun e => !stale e.2⟩ }

/-- Gives up the possible key of the current level. -/
def dropKey (s : Scan) : Except Error Scan :=
  match s.keys.get? s.flowLevel with
  | none => .ok s
  | some k => if k.required then .error .scanner else .ok { s with keys := s.keys.erase s.flowLevel }

/-- Remembers that a key may start here. -/
def saveKey (s : Scan) : Except Error Scan := do
  let required := s.flowLevel == 0 && s.indent == (s.cursor.column : Int)
  if s.keyAllowed then
    let s ← s.dropKey
    pure { s with
      keys := s.keys.insert s.flowLevel
        ⟨s.tokens.size, required, s.cursor.index, s.cursor.line, s.cursor.column⟩ }
  else pure s

/-- Ends the blocks that are indented further than `column`. -/
def unwindTo (column : Int) (s : Scan) : List Int → Scan
  | [] => { s with indents := [] }
  | outer :: rest =>
    if column < s.indent then
      unwindTo column { s.push .blockEnd with indent := outer, indents := rest } rest
    else { s with indents := outer :: rest }

def unwind (s : Scan) (column : Int) : Scan :=
  if s.flowLevel == 0 then unwindTo column s s.indents else s

/-- Starts a block at a column if it is further in; says whether it did. -/
def indentTo (s : Scan) (column : Nat) : Bool × Scan :=
  if s.indent < (column : Int) then
    (true, { s with indents := s.indent :: s.indents, indent := column })
  else (false, s)

/-- Skips blanks, comments and line ends up to the next token. -/
def skipToToken : Nat → Scan → Scan
  | 0, s => s
  | fuel + 1, s =>
    let k := s.cursor.skipSpaces.skipComment
    match k.lineBreak? with
    | none => { s with cursor := k }
    | some (_, k) =>
      skipToToken fuel { s with cursor := k, keyAllowed := s.keyAllowed || s.flowLevel == 0 }

/-! ## Names, tags and directives -/

def isNameChar (c : Char) : Bool :=
  ('0' ≤ c && c ≤ '9') || ('A' ≤ c && c ≤ 'Z') || ('a' ≤ c && c ≤ 'z') || c = '-' || c = '_'

def isTagChar (c : Char) : Bool :=
  isNameChar c || ";/?:@&=+$,.!~*'()[]%".toList.contains c

/-- The name of an anchor or alias; the cursor stands before its mark. -/
def anchorName (k : Cursor) : Except Error (String × Cursor) := do
  let (name, k) := k.advance.takeWhile isNameChar
  if name.isEmpty then throw .scanner
  let closed := k.spaces 0 || (k.next.any fun c => "?:,]\x7d%@\x60".toList.contains c)
  if !closed then throw .scanner
  pure (String.ofList name, k)

/-- The bytes of percent escapes, as many as there are in a row. -/
def percentBytes : Nat → List UInt8 → Cursor → Except Error (List UInt8 × Cursor)
  | 0, _, _ => .error .scanner
  | fuel + 1, seen, k =>
    if k.isAt '%' then
      let digits := (k.rest.drop 1).take 2
      match (if digits.length = 2 then hexNumber? digits else none) with
      | some n => percentBytes fuel (n.toUInt8 :: seen) (k.forward 3)
      | none => .error .scanner
    else .ok (seen.reverse, k)

/-- The characters of a tag. -/
def tagChars : Nat → List Char → Cursor → Except Error (List Char × Cursor)
  | 0, _, _ => .error .scanner
  | fuel + 1, seen, k =>
    match k.next with
    | some '%' =>
      match percentBytes (k.rest.length + 1) [] k with
      | .error e => .error e
      | .ok (bytes, k) =>
        match Text.Utf8.decodeStrict? ⟨bytes.toArray⟩ with
        | some text => tagChars fuel (text.toList.reverse ++ seen) k
        | none => .error .scanner
    | some c => if isTagChar c then tagChars fuel (c :: seen) k.advance else .ok (seen.reverse, k)
    | none => .ok (seen.reverse, k)

/-- The part of a tag behind its handle; it may not be empty. -/
def tagRest (k : Cursor) : Except Error (String × Cursor) := do
  let (cs, k) ← tagChars (k.rest.length + 1) [] k
  if cs.isEmpty then throw .scanner
  pure (String.ofList cs, k)

/-- A handle such as `!` or `!e!`. -/
def tagHandle (k : Cursor) : Except Error (String × Cursor) := do
  if !k.isAt '!' then throw .scanner
  if k.peek 1 == some ' ' then pure ("!", k.advance)
  else
    let (name, k') := k.advance.takeWhile isNameChar
    if k'.isAt '!' then pure ("!" ++ String.ofList name ++ "!", k'.advance)
    else throw .scanner

/-- A tag; the cursor stands before its mark. -/
def tagText (k : Cursor) : Except Error (TagText × Cursor) := do
  let (t, k) ←
    if k.peek 1 == some '<' then
      let (suffix, k) ← tagRest (k.forward 2)
      if !k.isAt '>' then throw .scanner
      pure (TagText.mk none suffix, k.advance)
    else if k.spaces 1 then pure (TagText.mk none "!", k.advance)
    else
      let word := (k.rest.drop 1).takeWhile fun c => c ≠ ' ' && !isBreak c
      let (handle, k) ←
        if '!' ∈ word then tagHandle k else pure ("!", k.advance)
      let (suffix, k) ← tagRest k
      pure (TagText.mk (some handle) suffix, k)
  if !k.atSpaceOrBreak then throw .scanner
  pure (t, k)

/-- The number of a version. -/
def versionNumber (k : Cursor) : Except Error (Nat × Cursor) := do
  let (digits, k) := k.takeWhile fun c => '0' ≤ c && c ≤ '9'
  if digits.isEmpty then throw .scanner
  pure (digits.foldl (fun n c => 10 * n + (c.toNat - 48)) 0, k)

/-- A directive; the cursor stands before its mark. -/
def directive (k : Cursor) : Except Error (Directive × Cursor) := do
  let (name, k) := k.advance.takeWhile isNameChar
  if name.isEmpty || !k.atSpaceOrBreak then throw .scanner
  let (d, k) ←
    if name = "YAML".toList then do
      let (major, k) ← versionNumber k.skipSpaces
      if !k.isAt '.' then throw .scanner
      let (_, k) ← versionNumber k.advance
      if !k.atSpaceOrBreak then throw .scanner
      pure (Directive.version major, k)
    else if name = "TAG".toList then do
      let (handle, k) ← tagHandle k.skipSpaces
      if !k.isAt ' ' then throw .scanner
      let (start, k) ← tagRest k.skipSpaces
      if !k.atSpaceOrBreak then throw .scanner
      pure (Directive.tag handle start, k)
    else pure (Directive.unknown, k.skipLine)
  let k := k.skipSpaces.skipComment
  if !k.breaks 0 then throw .scanner
  pure (d, ((k.lineBreak?.map Prod.snd).getD k))

/-! ## One token after the other -/

/-- A mark of one character. -/
def mark (s : Scan) (t : Token) : Scan := { s.push t with cursor := s.cursor.advance }

/-- A line that separates documents, or a directive, ends every block and key. -/
def atMargin (s : Scan) : Except Error Scan := do
  let s ← (s.unwind (-1)).dropKey
  pure { s with keyAllowed := false }

def flowStart (s : Scan) (t : Token) : Except Error Scan := do
  let s ← s.saveKey
  pure ({ s with flowLevel := s.flowLevel + 1, keyAllowed := true }.mark t)

def flowStop (s : Scan) (t : Token) : Except Error Scan := do
  let s ← s.dropKey
  pure ({ s with flowLevel := s.flowLevel - 1, keyAllowed := false }.mark t)

def flowComma (s : Scan) : Except Error Scan := do
  let s ← { s with keyAllowed := true }.dropKey
  pure (s.mark .flowEntry)

/-- Starts a block for a mark in the block context, where marks are allowed only where keys are. -/
def blockFor (s : Scan) (t : Token) : Except Error Scan :=
  if s.flowLevel != 0 then .ok s
  else if !s.keyAllowed then .error .scanner
  else
    let (started, s) := s.indentTo s.cursor.column
    .ok (if started then s.push t else s)

def blockDash (s : Scan) : Except Error Scan := do
  let s ← s.blockFor .blockSequence
  let s ← { s with keyAllowed := true }.dropKey
  pure (s.mark .blockEntry)

def complexKey (s : Scan) : Except Error Scan := do
  let s ← s.blockFor .blockMapping
  let s ← { s with keyAllowed := s.flowLevel == 0 }.dropKey
  pure (s.mark .key)

/-- A colon turns the possible key of its level into a key. -/
def colon (s : Scan) : Except Error Scan := do
  match s.keys.get? s.flowLevel with
  | some k =>
    let s := { s with keys := s.keys.erase s.flowLevel }
    let s := s.insertAt k.token .key
    let s :=
      if s.flowLevel == 0 then
        let (started, s) := s.indentTo k.column
        if started then s.insertAt k.token .blockMapping else s
      else s
    pure ({ s with keyAllowed := false }.mark .value)
  | none =>
    let s ← s.blockFor .blockMapping
    let s ← { s with keyAllowed := s.flowLevel == 0 }.dropKey
    pure (s.mark .value)

/-- A token that may start a key, read from the cursor. -/
def content (s : Scan) (read : Cursor → Except Error (Token × Cursor)) : Except Error Scan := do
  let s ← s.saveKey
  let (t, k) ← read s.cursor
  pure { s.push t with cursor := k, keyAllowed := false }

def blockScalar (s : Scan) (folded : Bool) : Except Error Scan := do
  let s ← { s with keyAllowed := true }.dropKey
  let (text, k) ← blockText folded s.indent s.cursor
  pure { s.push (.scalar text false) with cursor := k }

def plainScalar (s : Scan) : Except Error Scan := do
  let s ← s.saveKey
  let (text, ended, k) := plainText (s.flowLevel != 0) s.indent s.cursor
  pure { s.push (.scalar text true) with cursor := k, keyAllowed := ended }

/-- Whether a plain text may start with the next character. -/
def plainStarts (s : Scan) (c : Char) : Bool :=
  let k := s.cursor
  !(isBlank c || isBreak c || "-?:,[]\x7b\x7d#&*!|>'\"%@\x60".toList.contains c) ||
    (!k.spaces 1 && (c = '-' || (s.flowLevel == 0 && (c = '?' || c = ':'))))

/-- Reads the token that starts with `c`. -/
def token (s : Scan) (c : Char) : Except Error Scan := do
  let k := s.cursor
  let inFlow := s.flowLevel != 0
  if c = '%' && k.column == 0 then
    let s ← s.atMargin
    let (d, k) ← directive k
    pure { s.push (.directive d) with cursor := k }
  else if c = '-' && k.column == 0 && k.separatesDocuments then
    let s ← s.atMargin
    pure { s.push .documentStart with cursor := k.forward 3 }
  else if c = '.' && k.column == 0 && k.separatesDocuments then
    let s ← s.atMargin
    pure { s.push .documentEnd with cursor := k.forward 3 }
  else if c = '[' then s.flowStart .flowSequence
  else if c = '\x7b' then s.flowStart .flowMapping
  else if c = ']' then s.flowStop .flowSequenceEnd
  else if c = '\x7d' then s.flowStop .flowMappingEnd
  else if c = ',' then s.flowComma
  else if c = '-' && k.spaces 1 then s.blockDash
  else if c = '?' && (inFlow || k.spaces 1) then s.complexKey
  else if c = ':' && (inFlow || k.spaces 1) then s.colon
  else if c = '*' then s.content fun k => (anchorName k).map fun (n, k) => (.alias n, k)
  else if c = '&' then s.content fun k => (anchorName k).map fun (n, k) => (.anchor n, k)
  else if c = '!' then s.content fun k => (tagText k).map fun (t, k) => (.tag t, k)
  else if c = '|' && !inFlow then s.blockScalar false
  else if c = '>' && !inFlow then s.blockScalar true
  else if c = '\'' || c = '"' then
    s.content fun k => (quotedText (c = '"') k).map fun (t, k) => (.scalar t false, k)
  else if s.plainStarts c then s.plainScalar
  else throw .scanner

/-- Reads tokens up to the end of the document or to the first error, which is kept beside what was
read before it. -/
def run : Nat → Scan → Scan × Option Error
  | 0, s => (s, some .scanner)
  | fuel + 1, s =>
    let s := skipToToken (s.cursor.rest.length + 1) s
    match s.dropStaleKeys with
    | .error e => (s, some e)
    | .ok s =>
      let s := s.unwind s.cursor.column
      match s.cursor.next with
      | none =>
        match (s.unwind (-1)).dropKey with
        | .error e => (s, some e)
        | .ok s => (s, none)
      | some c =>
        match s.token c with
        | .error e => (s, some e)
        | .ok s => run fuel s

end Scan

/-- Whether a document may hold a character. -/
def isAllowed (c : Char) : Bool :=
  let n := c.toNat
  n == 9 || n == 10 || n == 13 || (0x20 ≤ n && n ≤ 0x7E) || n == 0x85 || (0xA0 ≤ n && n ≤ 0xD7FF) ||
    (0xE000 ≤ n && n ≤ 0xFFFD) || 0x10000 ≤ n

/-- The tokens of a document, with the error that ends them if there is one. -/
def tokens (cs : List Char) : List Token × Option Error :=
  if cs.all isAllowed then
    let cs := match cs with
      | c :: rest => if c.toNat == 0xFEFF then rest else cs
      | [] => cs
    let (s, e) := Scan.run (cs.length + 2) { cursor := ⟨cs, 0, 0, 0⟩ }
    (s.tokens.toList, e)
  else ([], some .reader)

end InkServer.Yaml
