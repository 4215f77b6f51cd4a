/-!
# Decoding UTF-8 with replacement

Bytes that are not valid UTF-8 are read as U+FFFD, one for each maximal part of a sequence that could
have begun a character. Valid bytes decode as usual, and `decodeStrict?` accepts nothing else.
-/

namespace InkServer.Text.Utf8

/-- The character that stands for bytes that cannot be read. -/
def replacement : Char := '\uFFFD'

/-- How a sequence goes on after its first byte: how many bytes follow, the bits the first byte gives,
and the bounds of the second byte. -/
structure Lead where
  count : Nat
  bits : Nat
  low : Nat
  high : Nat

/-- What a first byte above 0x7F announces; `none` if it begins no character. -/
def lead? (b : Nat) : Option Lead :=
  if 0xC2 ≤ b && b ≤ 0xDF then some ⟨1, b - 0xC0, 0x80, 0xBF⟩
  else if b == 0xE0 then some ⟨2, 0, 0xA0, 0xBF⟩
  else if b == 0xED then some ⟨2, 0xD, 0x80, 0x9F⟩
  else if 0xE1 ≤ b && b ≤ 0xEF then some ⟨2, b - 0xE0, 0x80, 0xBF⟩
  else if b == 0xF0 then some ⟨3, 0, 0x90, 0xBF⟩
  else if b == 0xF4 then some ⟨3, 4, 0x80, 0x8F⟩
  else if 0xF1 ≤ b && b ≤ 0xF3 then some ⟨3, b - 0xF0, 0x80, 0xBF⟩
  else none

/-- Where decoding stands: between characters, or inside one that needs `count` more bytes and has read
`bits` so far; only the next byte is bounded by `low` and `high`. -/
inductive State where
  | between
  | inside (lead : Lead)

/-- Reads one byte between characters. -/
def begin (b : Nat) : State × List Char :=
  if b < 0x80 then (.between, [Char.ofNat b])
  else
    match lead? b with
    | some l => (.inside l, [])
    | none => (.between, [replacement])

/-- Reads one byte: the state after it and the characters it completes. -/
def step : State → Nat → State × List Char
  | .between, b => begin b
  | .inside l, b =>
    if l.low ≤ b && b ≤ l.high then
      let bits := l.bits * 64 + (b - 0x80)
      if l.count ≤ 1 then (.between, [Char.ofNat bits])
      else (.inside ⟨l.count - 1, bits, 0x80, 0xBF⟩, [])
    else
      let (s, cs) := begin b
      (s, replacement :: cs)

/-- Decodes the bytes after `s`. -/
def decodeFrom (s : State) : List UInt8 → List Char
  | [] =>
    match s with
    | .between => []
    | .inside _ => [replacement]
  | b :: rest =>
    let (s, cs) := step s b.toNat
    cs ++ decodeFrom s rest

/-- The text of some bytes, with U+FFFD where they are not valid UTF-8. -/
def decode (bytes : ByteArray) : String := String.ofList (decodeFrom .between bytes.toList)

/-- The text of some bytes if they are valid UTF-8. -/
def decodeStrict? (bytes : ByteArray) : Option String := String.fromUTF8? bytes

/-! ## Where bytes go wrong -/

/-- What is wrong with bytes that are not valid. -/
inductive Fault where
  /-- A byte that begins no character. -/
  | start
  /-- A character that is not continued. -/
  | continuation
  /-- A character that the end cuts off. -/
  | cutOff
  deriving DecidableEq, Repr

def Fault.text : Fault → String
  | .start => "invalid start byte"
  | .continuation => "invalid continuation byte"
  | .cutOff => "unexpected end of data"

/-- The first bytes that are not valid: the byte they begin with, its position, how many they are, and
what is wrong. -/
structure Invalid where
  byte : Nat
  position : Nat
  length : Nat
  fault : Fault
  deriving DecidableEq, Repr

/-- Finds the first invalid bytes. `first` began the character that `s` is inside of, at `start`; `position`
is that of the next byte. -/
def findInvalid (s : State) (first start position : Nat) : List UInt8 → Option Invalid
  | [] =>
    match s with
    | .between => none
    | .inside _ => some ⟨first, 0, position - start, .cutOff⟩
  | b :: rest =>
    match s with
    | .between =>
      match begin b.toNat with
      | (.between, _) =>
        if b.toNat < 0x80 then findInvalid .between first start (position + 1) rest
        else some ⟨b.toNat, position, 1, .start⟩
      | (s, _) => findInvalid s b.toNat position (position + 1) rest
    | .inside l =>
      if l.low ≤ b.toNat && b.toNat ≤ l.high then
        findInvalid (step (.inside l) b.toNat).1 first start (position + 1) rest
      else some ⟨first, start, position - start, .continuation⟩

/-- The first bytes that are not valid UTF-8. A character that the end cuts off is looked at on its own,
so that its position is counted from its own start. -/
def firstInvalid? (bytes : ByteArray) : Option Invalid := findInvalid .between 0 0 0 bytes.toList

end InkServer.Text.Utf8
