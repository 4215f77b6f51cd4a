import InkServer.Path
import InkServer.Text.Utf8
import InkServer.Text.Quoted
import InkServer.Uri.Host

/-!
# File URIs

Between documents as the editor names them and paths in the file system. Decoding undoes encoding for
every path that starts with one slash and whose first segment is no drive letter.
-/

namespace InkServer.Uri

/-- Why a URI does not name a file, or a path has no URI. -/
inductive Error where
  /-- The scheme is not that of files. -/
  | notAFile (uri : String)
  /-- One square bracket stands in the authority without the other. -/
  | unbalancedBracket
  /-- What stands in brackets is no address. -/
  | host (error : HostError)
  /-- The authority has a character that stands for one of the separators. -/
  | disguisedSeparator (authority : String)
  /-- A path that starts with two slashes names an authority but nothing in it. -/
  | unfinishedAuthority
  deriving DecidableEq, Repr

def Error.message : Error → String
  | .notAFile uri => "Not a file URI: " ++ uri
  | .unbalancedBracket => "Invalid IPv6 URL"
  | .host e => e.message
  | .disguisedSeparator a => "netloc '" ++ a ++ "' contains invalid characters under NFKC normalization"
  | .unfinishedAuthority => "substring not found"

/-! ## Percent escapes -/

/-- The characters that are written as they are. -/
def isUnreserved (c : Char) : Bool :=
  ('a' ≤ c && c ≤ 'z') || ('A' ≤ c && c ≤ 'Z') || ('0' ≤ c && c ≤ '9') ||
    c = '_' || c = '.' || c = '-' || c = '~' || c = '/'

def upperHexDigit (n : Nat) : Char := if n < 10 then Char.ofNat (48 + n) else Char.ofNat (55 + n)

/-- One byte as a percent escape. -/
def escapeByte (b : UInt8) : List Char :=
  ['%', upperHexDigit (b.toNat / 16), upperHexDigit (b.toNat % 16)]

def escapeChar (c : Char) : List Char :=
  if isUnreserved c then [c] else (String.utf8EncodeChar c).flatMap escapeByte

/-- A text with percent escapes for all but unreserved characters. -/
def escape (cs : List Char) : List Char := cs.flatMap escapeChar

def hexValue? (c : Char) : Option Nat :=
  if '0' ≤ c ∧ c ≤ '9' then some (c.toNat - 48)
  else if 'a' ≤ c ∧ c ≤ 'f' then some (c.toNat - 87)
  else if 'A' ≤ c ∧ c ≤ 'F' then some (c.toNat - 55)
  else none

/-- The byte of a percent escape at the front. -/
def escapedByte? : List Char → Option Nat
  | a :: b :: _ =>
    match hexValue? a, hexValue? b with
    | some a, some b => some (16 * a + b)
    | _, _ => none
  | _ => none

/-- The characters still owed when decoding stops inside a character. -/
def pending : Text.Utf8.State → List Char
  | .between => []
  | .inside _ => [Text.Utf8.replacement]

/-- Resolves percent escapes after the bytes read into `state`. An escape that is malformed stays as it
is; `skip` counts characters of an escape that was already read. -/
def unescapeFrom (state : Text.Utf8.State) (skip : Nat) : List Char → List Char
  | [] => pending state
  | c :: rest =>
    match skip with
    | skip + 1 => unescapeFrom state skip rest
    | 0 =>
      if c.toNat < 0x80 then
        match (if c = '%' then escapedByte? rest else none) with
        | some b =>
          let (state, cs) := Text.Utf8.step state b
          cs ++ unescapeFrom state 2 rest
        | none =>
          let (state, cs) := Text.Utf8.step state c.toNat
          cs ++ unescapeFrom state 0 rest
      else pending state ++ c :: unescapeFrom .between 0 rest

/-- A text with its percent escapes resolved. -/
def unescape (cs : List Char) : List Char := unescapeFrom .between 0 cs

/-! ## Parts of a URI -/

def isAsciiLetter (c : Char) : Bool := ('a' ≤ c && c ≤ 'z') || ('A' ≤ c && c ≤ 'Z')

def isSchemeChar (c : Char) : Bool :=
  isAsciiLetter c || ('0' ≤ c && c ≤ '9') || c = '+' || c = '-' || c = '.'

/-- Leading controls and blanks do not count, nor do tabs and line ends anywhere. -/
def clean (cs : List Char) : List Char :=
  (cs.dropWhile fun c => c.toNat ≤ 0x20).filter fun c => c ≠ '\t' && c ≠ '\r' && c ≠ '\n'

/-- The scheme in lower case and what follows its colon. -/
def splitScheme (cs : List Char) : List Char × List Char :=
  let scheme := cs.takeWhile (· ≠ ':')
  match scheme, cs.dropWhile (· ≠ ':') with
  | first :: _, ':' :: rest =>
    if isAsciiLetter first && scheme.all isSchemeChar then (scheme.map Char.toLower, rest) else ([], cs)
  | _, _ => ([], cs)

def endsAuthority (c : Char) : Bool := c = '/' || c = '?' || c = '#'

/-- The authority behind two slashes and what follows it. -/
def splitAuthority (cs : List Char) : List Char × List Char :=
  match cs with
  | '/' :: '/' :: rest =>
    (rest.takeWhile fun c => !endsAuthority c, rest.dropWhile fun c => !endsAuthority c)
  | _ => ([], cs)

/-- Characters that compatibility mapping turns into one of the separators `/ ? # @ :`. -/
def disguises : List Nat :=
  [0x2047, 0x2048, 0x2049, 0x2100, 0x2101, 0x2105, 0x2106, 0x2A74, 0xFE13, 0xFE16, 0xFE55, 0xFE56,
    0xFE5F, 0xFE6B, 0xFF03, 0xFF0F, 0xFF1A, 0xFF1F, 0xFF20]

/-- What an authority must keep to. -/
def checkAuthority (cs : List Char) : Except Error Unit := do
  if ('[' ∈ cs) != (']' ∈ cs) then throw .unbalancedBracket
  if '[' ∈ cs then
    match checkHost (((cs.dropWhile (· ≠ '[')).drop 1).takeWhile (· ≠ ']')) with
    | .error e => throw (.host e)
    | .ok () => pure ()
  if cs.any fun c => disguises.contains c.toNat then throw (.disguisedSeparator (String.ofList cs))

/-- Whether a text starts like `/C:`. -/
def startsWithDrive : List Char → Bool
  | '/' :: c :: ':' :: _ => isAsciiLetter c
  | _ => false

/-- The path text that a URI with a scheme stands for. -/
def pathText (uri : String) : Except Error (List Char) := do
  let (scheme, rest) := splitScheme (clean uri.toList)
  let (authority, rest) := splitAuthority rest
  checkAuthority authority
  let path := unescape (rest.takeWhile fun c => c ≠ '#' && c ≠ '?')
  let authority := unescape authority
  if scheme ≠ "file".toList then throw (.notAFile uri)
  if authority ≠ [] ∧ path ≠ [] then pure ('/' :: '/' :: (authority ++ path))
  else if startsWithDrive path then
    match path with
    | _ :: c :: rest => pure (c.toLower :: rest)
    | _ => pure path
  else pure path

/-- Whether a text has a scheme and an authority mark anywhere, and so is read as a URI. -/
def looksLikeUri : List Char → Bool
  | ':' :: '/' :: '/' :: _ => true
  | _ :: rest => looksLikeUri rest
  | [] => false

/-- The path that a URI, or a bare path, names. -/
def toPath (uri : String) : Except Error Path :=
  if looksLikeUri uri.toList then (pathText uri).map fun cs => Path.ofText (String.ofList cs)
  else .ok (Path.ofText uri)

/-! ## From paths to URIs -/

/-- The URI of an authority and a path text. -/
def assemble (authority path : List Char) : String :=
  let path := if path.head? = some '/' then path else '/' :: path
  let written :=
    match path with
    | '/' :: c :: ':' :: rest =>
      if isAsciiLetter c then '/' :: c.toLower :: ':' :: escape rest else escape path
    | _ => escape path
  String.ofList ("file://".toList ++ escape authority ++ written)

/-- The URI that names the path of some characters. -/
def ofChars : List Char → Except Error String
  | '/' :: '/' :: rest =>
    match rest.dropWhile (· ≠ '/') with
    | [] => .error .unfinishedAuthority
    | path => .ok (assemble (rest.takeWhile (· ≠ '/')) path)
  | cs => .ok (assemble [] cs)

/-- The URI that names a path as it is written. -/
def ofPathText (path : String) : Except Error String := ofChars path.toList

/-- The URI that names a path. -/
def ofPath (p : Path) : Except Error String := ofPathText p.text

end InkServer.Uri
