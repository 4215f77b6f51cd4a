/-!
# Binary floating-point numbers

The numbers of 64-bit binary floating point, kept as an exact sign, mantissa and exponent so that every
operation is a computation on whole numbers. `ofDecimal` rounds a decimal to the nearest such number, a
tie going to the even mantissa; `shortest` gives the fewest decimal digits that read back.
-/

namespace InkServer

/-- A finite number stands for `± mantissa · 2 ^ exponent`. Numbers built by `ofDecimal` have a mantissa
below `2 ^ 53` and an exponent of at least `-1074`, and the mantissa is as large as that allows. -/
inductive Binary64 where
  | finite (negative : Bool) (mantissa : Nat) (exponent : Int)
  | infinite (negative : Bool)
  | nan
  deriving DecidableEq, Repr

namespace Binary64

/-- The least exponent of a finite number. -/
def minExponent : Int := -1074

/-- The greatest exponent of a finite number. -/
def maxExponent : Int := 971

/-- `num / den` rounded to a whole number, a tie going to the even one. -/
def roundHalfEven (num den : Nat) : Nat :=
  let q := num / den
  let r := num % den
  if 2 * r < den then q
  else if den < 2 * r then q + 1
  else if q % 2 = 0 then q else q + 1

def twoTo (n : Nat) : Nat := Nat.pow 2 n

def tenTo (n : Nat) : Nat := Nat.pow 10 n

/-- A power of two as a fraction. -/
def pow2 (e : Int) : Nat × Nat :=
  if 0 ≤ e then (twoTo e.toNat, 1) else (1, twoTo (-e).toNat)

/-- A power of ten as a fraction. -/
def pow10 (e : Int) : Nat × Nat :=
  if 0 ≤ e then (tenTo e.toNat, 1) else (1, tenTo (-e).toNat)

/-- The nearest number to the positive fraction `num / den`. -/
def ofFraction (negative : Bool) (num den : Nat) : Binary64 :=
  let spread : Int := (num.log2 : Int) - (den.log2 : Int)
  let low := max minExponent (spread - 53)
  let scaled (e : Int) : Nat :=
    let (p, q) := pow2 e
    roundHalfEven (num * q) (den * p)
  let e := if scaled low < twoTo 53 then low else low + 1
  let m := scaled e
  let (m, e) := if m = twoTo 53 then (twoTo 52, e + 1) else (m, e)
  if maxExponent < e then .infinite negative else .finite negative m e

/-- Zero, with a sign. -/
def zero (negative : Bool) : Binary64 := .finite negative 0 minExponent

/-- The nearest number to `± digits · 10 ^ exponent`. -/
def ofDecimal (negative : Bool) (digits : Nat) (exponent : Int) : Binary64 :=
  if digits = 0 then zero negative
  else
    let magnitude := exponent + ((Nat.toDigits 10 digits).length : Int)
    if 400 < magnitude then .infinite negative
    else if magnitude < -400 then zero negative
    else
      let (p, q) := pow10 exponent
      ofFraction negative (digits * p) q

/-- A whole number as the nearest floating-point number. -/
def ofInt (i : Int) : Binary64 := ofDecimal (i < 0) i.natAbs 0

def isPositive : Binary64 → Bool
  | .finite negative m _ => !negative && m != 0
  | .infinite negative => !negative
  | .nan => false

/-- Whether the number has no fraction. -/
def isWhole : Binary64 → Bool
  | .finite _ m e => 0 ≤ e || m % twoTo (-e).toNat == 0
  | _ => false

/-- Whether the number is zero, of either sign. -/
def isZero : Binary64 → Bool
  | .finite _ m _ => m == 0
  | _ => false

/-- The whole number that a number without fraction stands for. -/
def toInt? : Binary64 → Option Int
  | .finite negative m e =>
    if (Binary64.finite negative m e).isWhole then
      let n : Nat := if 0 ≤ e then m * twoTo e.toNat else m / twoTo (-e).toNat
      some (if negative then -(n : Int) else n)
    else none
  | _ => none

/-- The whole number nearest to zero after the fraction is dropped. -/
def truncate? : Binary64 → Option Int
  | .finite negative m e =>
    let n : Nat := if 0 ≤ e then m * twoTo e.toNat else m / twoTo (-e).toNat
    some (if negative then -(n : Int) else n)
  | _ => none

/-- Whether the number is below one. -/
def isBelowOne : Binary64 → Bool
  | .finite negative m e => negative || (e < 0 && m < twoTo (-e).toNat)
  | .infinite negative => negative
  | .nan => false

/-! ## The fewest digits that read back -/

/-- The decimals that round to a positive number: everything between the two fractions, which share a
denominator, the ends included when `closed`. -/
structure Interval where
  low : Nat
  value : Nat
  high : Nat
  den : Nat
  closed : Bool

/-- The interval of `m · 2 ^ e`. Below a power of two the neighbours are twice as dense. -/
def interval (m : Nat) (e : Int) : Interval :=
  let (p, q) := pow2 (e - 2)
  let below := if m = twoTo 52 ∧ minExponent < e then 1 else 2
  ⟨(4 * m - below) * p, 4 * m * p, (4 * m + 2) * p, q, m % 2 == 0⟩

/-- Whether `c · 10 ^ u` lies in the interval. -/
def Interval.contains (i : Interval) (c : Nat) (u : Int) : Bool :=
  let (p, q) := pow10 u
  let x := c * p * i.den
  if i.closed then i.low * q ≤ x && x ≤ i.high * q else i.low * q < x && x < i.high * q

/-- The number of decimal digits before the point of `num / den`; negative for leading zeros behind it. -/
def pointPosition (num den : Nat) : Int :=
  let guess : Int := (Nat.toDigits 10 num).length - (Nat.toDigits 10 den).length
  let (p, q) := pow10 guess
  if den * p ≤ num * q then guess + 1 else guess

/-- On the grid of `10 ^ u`, the neighbour of the value that reads back, the nearer one if both do. -/
def Interval.onGrid? (i : Interval) (u : Int) : Option Nat :=
  let (p, q) := pow10 u
  let num := i.value * q
  let den := i.den * p
  let c := num / den
  let lower := i.contains c u && c != 0
  let upper := i.contains (c + 1) u
  if lower && upper then some (if 2 * (num % den) < den ∨ (2 * (num % den) = den ∧ c % 2 = 0) then c else c + 1)
  else if lower then some c
  else if upper then some (c + 1)
  else none

/-- Tries grids with `n`, `n + 1`, … digits, at most `fuel` of them. -/
def Interval.search (i : Interval) (point : Int) : Nat → Nat → Nat × Int
  | 0, n => ((i.onGrid? (point - n)).getD 0, point - n)
  | fuel + 1, n =>
    match i.onGrid? (point - n) with
    | some c => (c, point - n)
    | none => i.search point fuel (n + 1)

/-- For a positive `m · 2 ^ e`, the digits `c` and exponent `u` with `c · 10 ^ u` reading back as that
number and `c` as short as possible. Seventeen digits always suffice. -/
def shortest (m : Nat) (e : Int) : Nat × Int :=
  let i := interval m e
  i.search (pointPosition i.value i.den) 16 1

/-! ## Text -/

/-- Writes `digits · 10 ^ exponent`: positionally when the point falls within four zeros before or
sixteen digits after the first digit, with a power of ten otherwise. -/
def writeDigits (digits : Nat) (exponent : Int) : String :=
  let ds := (Nat.toDigits 10 digits)
  let point : Int := ds.length + exponent
  if -4 < point ∧ point ≤ 16 then
    if point ≤ 0 then "0." ++ String.ofList (List.replicate (-point).toNat '0' ++ ds)
    else if (ds.length : Int) ≤ point then
      String.ofList (ds ++ List.replicate (point - ds.length).toNat '0') ++ ".0"
    else String.ofList (ds.take point.toNat) ++ "." ++ String.ofList (ds.drop point.toNat)
  else
    let power := point - 1
    let head := String.ofList (ds.take 1)
    let fraction := if ds.length ≤ 1 then "" else "." ++ String.ofList (ds.drop 1)
    let sign := if power < 0 then "-" else "+"
    let magnitude := toString power.natAbs
    head ++ fraction ++ "e" ++ sign ++ (if magnitude.length < 2 then "0" ++ magnitude else magnitude)

/-- Removes zeros at the end of the digits. -/
def dropZeros (fuel digits : Nat) (exponent : Int) : Nat × Int :=
  match fuel with
  | 0 => (digits, exponent)
  | fuel + 1 =>
    if digits % 10 = 0 ∧ digits ≠ 0 then dropZeros fuel (digits / 10) (exponent + 1)
    else (digits, exponent)

/-- The text of a number: the fewest digits that read back, always with a point or a power of ten. -/
def text : Binary64 → String
  | .finite negative m e =>
    let sign := if negative then "-" else ""
    if m = 0 then sign ++ "0.0"
    else
      let (c, u) := shortest m e
      let (c, u) := dropZeros 17 c u
      sign ++ writeDigits c u
  | .infinite negative => if negative then "-inf" else "inf"
  | .nan => "nan"

end Binary64

end InkServer
