/-!
# Characters and lines

The simplest things about texts: which characters are blank, which are digits and what they are worth, where
lines end, and how texts are ordered.
-/

namespace InkServer.Text

/-! ## Blanks -/

/-- The blank characters: the ASCII blanks and separators, and the spaces and line separators of
Unicode. -/
def isBlank (c : Char) : Bool :=
  let n := c.toNat
  (9 ≤ n && n ≤ 13) || (28 ≤ n && n ≤ 32) || n == 0x85 || n == 0xA0 || n == 0x1680 ||
    (0x2000 ≤ n && n ≤ 0x200A) || n == 0x2028 || n == 0x2029 || n == 0x202F || n == 0x205F ||
    n == 0x3000

/-- Drops the characters with `p` from the front. -/
def trimLeft (p : Char → Bool) (cs : List Char) : List Char := cs.dropWhile p

/-- Drops the characters with `p` from the back. -/
def trimRight (p : Char → Bool) (cs : List Char) : List Char := (cs.reverse.dropWhile p).reverse

/-- Drops blanks from both ends. -/
def trimBlanks (cs : List Char) : List Char := trimRight isBlank (trimLeft isBlank cs)

/-- A text without the blanks at its ends. -/
def strip (s : String) : String := String.ofList (trimBlanks s.toList)

/-- Every blank of ASCII is a blank here. -/
theorem isBlank_of_isWhitespace {c : Char} (h : c.isWhitespace) : isBlank c := by
  simp only [Char.isWhitespace, Bool.or_eq_true, decide_eq_true_eq] at h
  rcases h with ((rfl | rfl) | rfl) | rfl <;> decide

/-! ## Decimal digits

Every script's ten decimal digits have consecutive code points, so the zeros determine them all. The
table follows the Unicode Character Database, version 14.
-/

/-- The code points of the digit zero in every script. -/
def zeros : List Nat := [
    0x30, 0x660, 0x6F0, 0x7C0, 0x966, 0x9E6, 0xA66, 0xAE6, 0xB66, 0xBE6, 0xC66, 0xCE6, 0xD66, 0xDE6,
    0xE50, 0xED0, 0xF20, 0x1040, 0x1090, 0x17E0, 0x1810, 0x1946, 0x19D0, 0x1A80, 0x1A90, 0x1B50,
    0x1BB0, 0x1C40, 0x1C50, 0xA620, 0xA8D0, 0xA900, 0xA9D0, 0xA9F0, 0xAA50, 0xABF0, 0xFF10, 0x104A0,
    0x10D30, 0x11066, 0x110F0, 0x11136, 0x111D0, 0x112F0, 0x11450, 0x114D0, 0x11650, 0x116C0,
    0x11730, 0x118E0, 0x11950, 0x11C50, 0x11D50, 0x11DA0, 0x16A60, 0x16AC0, 0x16B50, 0x1D7CE,
    0x1D7D8, 0x1D7E2, 0x1D7EC, 0x1D7F6, 0x1E140, 0x1E2F0, 0x1E950, 0x1FBF0]

/-- The value of a decimal digit of any script, `none` for every other character. -/
def digitValue? (c : Char) : Option Nat :=
  (zeros.find? fun first => first ≤ c.toNat && c.toNat ≤ first + 9).map (c.toNat - ·)

/-- Whether a character is a decimal digit of some script. -/
def isDigit (c : Char) : Bool := (digitValue? c).isSome

/-- Reads digits most significant first, after `seen`. -/
def digitsValue? (seen : Nat) : List Char → Option Nat
  | [] => some seen
  | c :: rest =>
    match digitValue? c with
    | some d => digitsValue? (10 * seen + d) rest
    | none => none

/-! ## Lines

Two ways to read a text as lines. `splitLines` breaks at every line boundary of Unicode and is used for
reports; `unifyNewlines` turns the three line endings of text files into one and is used for files.
-/

/-- Characters at which a report line ends. A carriage return and a line feed together end one line. -/
def isLineBreak (c : Char) : Bool :=
  let n := c.toNat
  (10 ≤ n && n ≤ 13) || (28 ≤ n && n ≤ 30) || n == 0x85 || n == 0x2028 || n == 0x2029

/-- The lines of a text without their ends; `current` holds the line so far, last character first,
and `started` whether anything was read since the last end. -/
def splitLinesFrom (current : List Char) (started : Bool) : List Char → List (List Char)
  | [] => if started then [current.reverse] else []
  | '\r' :: '\n' :: rest => current.reverse :: splitLinesFrom [] false rest
  | c :: rest =>
    if isLineBreak c then current.reverse :: splitLinesFrom [] false rest
    else splitLinesFrom (c :: current) true rest

/-- The lines of a text. A line end at the very end starts no further line. -/
def splitLines (cs : List Char) : List (List Char) := splitLinesFrom [] false cs

/-- Turns `\r\n` and `\r` into `\n`. -/
def unifyNewlines : List Char → List Char
  | [] => []
  | '\r' :: '\n' :: rest => '\n' :: unifyNewlines rest
  | c :: rest => (if c = '\r' then '\n' else c) :: unifyNewlines rest

/-! ## Order

Texts are ordered by the codes of their characters.
-/

/-- Puts a text before the first one that does not come before it. -/
def putInOrder (s : String) : List String → List String
  | [] => [s]
  | t :: ts => if s ≤ t then s :: t :: ts else t :: putInOrder s ts

/-- Texts in order. -/
def inOrder (texts : List String) : List String := texts.foldr putInOrder []

theorem mem_putInOrder {a s : String} {ts : List String} :
    a ∈ putInOrder s ts ↔ a = s ∨ a ∈ ts := by
  induction ts with
  | nil => simp [putInOrder]
  | cons t ts ih =>
    unfold putInOrder
    split
    · simp
    · simp only [List.mem_cons, ih]
      exact or_left_comm

@[simp] theorem mem_inOrder {a : String} {texts : List String} :
    a ∈ inOrder texts ↔ a ∈ texts := by
  induction texts with
  | nil => simp [inOrder]
  | cons t ts ih => simpa [inOrder, mem_putInOrder] using or_congr_right ih

end InkServer.Text
