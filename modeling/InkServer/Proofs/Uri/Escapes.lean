import InkServer.Uri
import Mathlib

/-!
# Escapes are undone by decoding

The characters of a path are written to a URI byte by byte, and read back by a machine that takes one byte
at a time. A character is what the machine yields for its bytes; from this the text follows by induction.
-/

namespace InkServer

namespace Text.Utf8

/-- What the bytes yield that are read after `s`, and the state they lead to. -/
def feed (s : State) : List UInt8 → State × List Char
  | [] => (s, [])
  | b :: rest => ((feed (step s b.toNat).1 rest).1, (step s b.toNat).2 ++ (feed (step s b.toNat).1 rest).2)

theorem step_between_of_lt {n : Nat} (h : n < 0x80) : step .between n = (.between, [Char.ofNat n]) := by
  simp [step, begin, h]

theorem step_between_of_lead {n : Nat} {l : Lead} (hn : 0x80 ≤ n) (h : lead? n = some l) :
    step .between n = (.inside l, []) := by
  simp [step, begin, Nat.not_lt.mpr hn, h]

theorem step_inside_of_last {l : Lead} {n : Nat} (hlow : l.low ≤ n) (hhigh : n ≤ l.high) (h : l.count ≤ 1) :
    step (.inside l) n = (.between, [Char.ofNat (l.bits * 64 + (n - 0x80))]) := by
  simp [step, hlow, hhigh, h]

theorem step_inside_of_more {l : Lead} {n : Nat} (hlow : l.low ≤ n) (hhigh : n ≤ l.high) (h : 1 < l.count) :
    step (.inside l) n = (.inside ⟨l.count - 1, l.bits * 64 + (n - 0x80), 0x80, 0xBF⟩, []) := by
  simp [step, hlow, hhigh, Nat.not_le.mpr h]

/-- The first byte of a character of two bytes. -/
theorem lead?_of_two {v : Nat} (h : 0x7F < v) (h' : v ≤ 0x7FF) :
    lead? (v / 64 % 32 + 192) = some ⟨1, v / 64, 0x80, 0xBF⟩ := by
  unfold lead?
  rw [if_pos (by simp; omega)]
  simp
  omega

/-- The first byte of a character of three bytes leaves room for the second byte. -/
theorem lead?_of_three {v : Nat} (h : 0x7FF < v) (h' : v ≤ 0xFFFF) (hv : v.isValidChar) :
    ∃ l, lead? (v / 4096 % 16 + 224) = some l ∧ l.count = 2 ∧ l.bits = v / 4096 ∧
      l.low ≤ v / 64 % 64 + 128 ∧ v / 64 % 64 + 128 ≤ l.high := by
  unfold Nat.isValidChar at hv
  unfold lead?
  split_ifs <;> simp_all <;> omega

/-- So does the first byte of a character of four bytes. -/
theorem lead?_of_four {v : Nat} (h : 0xFFFF < v) (hv : v.isValidChar) :
    ∃ l, lead? (v / 262144 % 8 + 240) = some l ∧ l.count = 3 ∧ l.bits = v / 262144 ∧
      l.low ≤ v / 4096 % 64 + 128 ∧ v / 4096 % 64 + 128 ≤ l.high := by
  unfold Nat.isValidChar at hv
  unfold lead?
  split_ifs <;> simp_all <;> omega


/-! ## The bytes of a character, by their number -/

theorem toNat_byte {n : Nat} (h : n < 256) : (UInt8.ofNat n).toNat = n := UInt8.toNat_ofNat_of_lt h

theorem feed_one {v : Nat} (h : v ≤ 0x7F) : feed .between [UInt8.ofNat v] = (.between, [Char.ofNat v]) := by
  have hv : (UInt8.ofNat v).toNat = v := toNat_byte (by omega)
  rw [feed, hv, step_between_of_lt (by omega)]
  rfl

/-- A byte that goes on with a character, as it is written. -/
theorem toNat_continuation (n : Nat) : (UInt8.ofNat (n % 64 + 128)).toNat = n % 64 + 128 :=
  toNat_byte (by omega)

theorem feed_two {v : Nat} (h : 0x7F < v) (h' : v ≤ 0x7FF) :
    feed .between [UInt8.ofNat (v / 64 % 32 + 192), UInt8.ofNat (v % 64 + 128)] =
      (.between, [Char.ofNat v]) := by
  have hfirst : (UInt8.ofNat (v / 64 % 32 + 192)).toNat = v / 64 % 32 + 192 :=
    toNat_byte (by omega)
  rw [feed, hfirst, step_between_of_lead (by omega) (lead?_of_two h h'), feed, toNat_continuation,
    step_inside_of_last (by simp) (by simp; omega) (by simp), feed]
  have hv : v / 64 * 64 + v % 64 = v := by omega
  simp [hv]

theorem feed_three {v : Nat} (h : 0x7FF < v) (h' : v ≤ 0xFFFF) (hvalid : v.isValidChar) :
    feed .between [UInt8.ofNat (v / 4096 % 16 + 224), UInt8.ofNat (v / 64 % 64 + 128),
      UInt8.ofNat (v % 64 + 128)] = (.between, [Char.ofNat v]) := by
  have hfirst : (UInt8.ofNat (v / 4096 % 16 + 224)).toNat = v / 4096 % 16 + 224 :=
    toNat_byte (by omega)
  obtain ⟨l, hl, hcount, hbits, hlow, hhigh⟩ := lead?_of_three h h' hvalid
  rw [feed, hfirst, step_between_of_lead (by omega) hl, feed, toNat_continuation,
    step_inside_of_more hlow hhigh (by omega), feed, toNat_continuation,
    step_inside_of_last (by simp) (by simp; omega) (by simp [hcount]), feed, hbits]
  have hv : (v / 4096 * 64 + v / 64 % 64) * 64 + v % 64 = v := by omega
  simp [hv]

theorem feed_four {v : Nat} (h : 0xFFFF < v) (hvalid : v.isValidChar) :
    feed .between [UInt8.ofNat (v / 262144 % 8 + 240), UInt8.ofNat (v / 4096 % 64 + 128),
      UInt8.ofNat (v / 64 % 64 + 128), UInt8.ofNat (v % 64 + 128)] = (.between, [Char.ofNat v]) := by
  have hfirst : (UInt8.ofNat (v / 262144 % 8 + 240)).toNat = v / 262144 % 8 + 240 :=
    toNat_byte (by omega)
  obtain ⟨l, hl, hcount, hbits, hlow, hhigh⟩ := lead?_of_four h hvalid
  rw [feed, hfirst, step_between_of_lead (by omega) hl, feed, toNat_continuation,
    step_inside_of_more hlow hhigh (by omega), feed, toNat_continuation,
    step_inside_of_more (by simp) (by simp; omega) (by simp [hcount]), feed, toNat_continuation,
    step_inside_of_last (by simp) (by simp; omega) (by simp [hcount]), feed, hbits]
  have hv : ((v / 262144 * 64 + v / 4096 % 64) * 64 + v / 64 % 64) * 64 + v % 64 = v := by omega
  simp [hv]

/-- The bytes of a character yield the character. -/
theorem feed_utf8EncodeChar (c : Char) : feed .between (String.utf8EncodeChar c) = (.between, [c]) := by
  have hvalid : c.val.toNat.isValidChar := c.valid
  have hc : Char.ofNat c.val.toNat = c := Char.ofNat_toNat c
  rw [String.utf8EncodeChar.eq_1]
  split
  · rw [feed_one ‹_›, hc]
  · split
    · rw [feed_two (Nat.not_le.mp ‹_›) ‹_›, hc]
    · split
      · rw [feed_three (Nat.not_le.mp ‹_›) ‹_› hvalid, hc]
      · rw [feed_four (Nat.not_le.mp ‹_›) hvalid, hc]

end Text.Utf8

namespace Uri

open Text.Utf8 (State step feed)

/-- One escape stands for its byte. -/
theorem escapedByte?_hexDigits (b : UInt8) (rest : List Char) :
    escapedByte? (upperHexDigit (b.toNat / 16) :: upperHexDigit (b.toNat % 16) :: rest) = some b.toNat := by
  have hdigit : ∀ n < 16, hexValue? (upperHexDigit n) = some n := by decide
  have hb : b.toNat < 256 := b.toNat_lt
  simp only [escapedByte?, hdigit (b.toNat / 16) (by omega), hdigit (b.toNat % 16) (by omega)]
  congr
  omega

theorem unescapeFrom_escapeByte (s : State) (b : UInt8) (rest : List Char) :
    unescapeFrom s 0 (escapeByte b ++ rest) =
      (step s b.toNat).2 ++ unescapeFrom (step s b.toNat).1 0 rest := by
  show unescapeFrom s 0 ('%' :: upperHexDigit _ :: upperHexDigit _ :: rest) = _
  rw [unescapeFrom]
  simp [escapedByte?_hexDigits, unescapeFrom]

theorem unescapeFrom_escapeBytes (s : State) (bytes : List UInt8) (rest : List Char) :
    unescapeFrom s 0 (bytes.flatMap escapeByte ++ rest) =
      (feed s bytes).2 ++ unescapeFrom (feed s bytes).1 0 rest := by
  induction bytes generalizing s with
  | nil => rfl
  | cons b bytes ih =>
      rw [List.flatMap_cons, List.append_assoc, unescapeFrom_escapeByte, ih, feed, List.append_assoc]

/-- Unreserved characters are ASCII, and none of them has a meaning in a URI. -/
theorem toNat_lt_of_isUnreserved {c : Char} (h : isUnreserved c = true) : c.toNat < 0x80 := by
  have hle (a b : Char) (h : a ≤ b) : a.toNat ≤ b.toNat := h
  simp only [isUnreserved, Bool.or_eq_true, Bool.and_eq_true, decide_eq_true_eq] at h
  rcases h with (((((((h | h) | h) | rfl) | rfl) | rfl) | rfl) | rfl)
  · exact Nat.lt_of_le_of_lt (hle _ _ h.2) (by decide)
  · exact Nat.lt_of_le_of_lt (hle _ _ h.2) (by decide)
  · exact Nat.lt_of_le_of_lt (hle _ _ h.2) (by decide)
  all_goals decide

theorem unescapeFrom_escapeChar (c : Char) (rest : List Char) :
    unescapeFrom .between 0 (escapeChar c ++ rest) = c :: unescapeFrom .between 0 rest := by
  unfold escapeChar
  split
  · rename_i h
    have hc : c ≠ '%' := by
      rintro rfl
      exact absurd h (by decide)
    have hlt := toNat_lt_of_isUnreserved h
    rw [List.singleton_append, unescapeFrom]
    simp [hlt, hc, Text.Utf8.step_between_of_lt hlt]
  · rw [unescapeFrom_escapeBytes, Text.Utf8.feed_utf8EncodeChar]
    rfl

/-- Decoding undoes encoding for every text. -/
theorem unescape_escape (cs : List Char) : unescape (escape cs) = cs := by
  unfold unescape escape
  induction cs with
  | nil => rfl
  | cons c cs ih => rw [List.flatMap_cons, unescapeFrom_escapeChar, ih]

end Uri

end InkServer
