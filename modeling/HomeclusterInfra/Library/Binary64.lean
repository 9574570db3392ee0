import Mathlib.Data.Rat.Floor
import HomeclusterInfra.Library.Text

/-!
# Binary floating point numbers

A finite floating point number is the rational number it stands for. The
module computes the nearest double of a nonnegative rational (ties to the even
significand, in the range of normal doubles), the shortest decimal numeral
that reads back as a given double, and the calendar text of a time in seconds,
as Python's `float`, `repr` and `datetime` do.
-/

set_option autoImplicit false

namespace HomeclusterInfra.Binary64

open Text

/-- A power of two with an integer exponent. -/
def twoPow : Int → Rat
  | .ofNat exponent => 2 ^ exponent
  | .negSucc exponent => 1 / 2 ^ (exponent + 1)

/-- A power of ten with an integer exponent. -/
def tenPow : Int → Rat
  | .ofNat exponent => 10 ^ exponent
  | .negSucc exponent => 1 / 10 ^ (exponent + 1)

/-- The nearest integer, the even one of two equally near. -/
def roundHalfEven (q : Rat) : Int :=
  let below := q.floor
  let excess := q - below
  if excess < 1 / 2 then below
  else if 1 / 2 < excess then below + 1
  else if below % 2 = 0 then below else below + 1

/-- The exponent `e` with `2 ^ e ≤ q < 2 ^ (e + 1)`. -/
def binaryExponent (q : Rat) : Int :=
  let guess : Int := Nat.log2 q.num.toNat - Nat.log2 q.den
  if q < twoPow guess then guess - 1 else guess

/-- The nearest double of a nonnegative rational. -/
def nearest (q : Rat) : Rat :=
  if q ≤ 0 then 0
  else
    let unit := twoPow (binaryExponent q - 52)
    roundHalfEven (q / unit) * unit

/-- The least `shift` with `1 ≤ q * 10 ^ shift`, for a rational below one. -/
def leadingZeros (q : Rat) : Nat → Nat → Nat
  | 0, shift => shift
  | fuel + 1, shift => if 1 ≤ q * 10 ^ shift then shift else leadingZeros q fuel (shift + 1)

/-- The exponent `e` with `10 ^ e ≤ q < 10 ^ (e + 1)`. -/
def decimalExponent (q : Rat) : Int :=
  if 1 ≤ q then (natText q.floor.toNat).length - 1 else -(leadingZeros q 400 1)

/-- A decimal numeral: an integer times a power of ten. -/
structure Numeral where
  significand : Nat
  scale : Int

def Numeral.value (numeral : Numeral) : Rat :=
  numeral.significand * tenPow numeral.scale

/-- The numeral with `digits` digits nearest to `q`. -/
def nearestNumeral (q : Rat) (digits : Nat) : Numeral :=
  let scale := decimalExponent q - digits + 1
  ⟨(roundHalfEven (q / tenPow scale)).toNat, scale⟩

/-- The shortest numeral that reads back as `q`. Below a power of two the doubles
lie closer than above it, so the numeral after the nearest one can read back
where the nearest does not. Seventeen digits always suffice. -/
def shortestNumeral (q : Rat) : Nat → Nat → Numeral
  | 0, digits => nearestNumeral q digits
  | fuel + 1, digits =>
      let near := nearestNumeral q digits
      let above := { near with significand := near.significand + 1 }
      if nearest near.value = q then near
      else if nearest above.value = q then above
      else shortestNumeral q fuel (digits + 1)

/-- The digits of a number without the zeros at the end. -/
def significantDigits (n : Nat) : List Char :=
  rstripWhile (· = '0') (natText n)

/-- `d.ddd` times a power of ten. -/
def scientificText (digits : List Char) (exponent : Int) : List Char :=
  let fraction := digits.drop 1
  digits.take 1 ++ (if fraction.isEmpty then [] else '.' :: fraction) ++
    (if exponent < 0 then "e-".toList else "e+".toList) ++ zeroPadded 2 exponent.natAbs

/-- Digits around a point, filled up with zeros. -/
def pointText (digits : List Char) (whole : Nat) : List Char :=
  let padded := digits ++ List.replicate (whole - digits.length) '0'
  let fraction := padded.drop whole
  padded.take whole ++ '.' :: (if fraction.isEmpty then ['0'] else fraction)

/-- Digits, the first of them at a power of ten, as text. -/
def decimalText (digits : List Char) (exponent : Int) : List Char :=
  if exponent < -4 || 16 ≤ exponent then scientificText digits exponent
  else if exponent < 0 then
    ['0'] ++ '.' :: (List.replicate (exponent.natAbs - 1) '0' ++ digits)
  else pointText digits (exponent.toNat + 1)

/-- `repr` of a nonnegative double. -/
def reprText (q : Rat) : List Char :=
  if q ≤ 0 then "0.0".toList
  else
    let numeral := shortestNumeral q 16 1
    decimalText (significantDigits numeral.significand)
      (numeral.scale + (natText numeral.significand).length - 1)

/-! ## Calendar -/

/-- Seconds and microseconds since the epoch, rounded to the even microsecond. -/
def splitSeconds (seconds : Rat) : Nat × Nat :=
  let whole := seconds.floor.toNat
  let micros := (roundHalfEven (nearest ((seconds - whole) * 1000000))).toNat
  if 1000000 ≤ micros then (whole + 1, micros - 1000000) else (whole, micros)

/-- Year, month and day of a number of days since the epoch. -/
def civilDate (days : Nat) : Nat × Nat × Nat :=
  let shifted := days + 719468
  let era := shifted / 146097
  let dayOfEra := shifted % 146097
  let yearOfEra :=
    (dayOfEra - dayOfEra / 1460 + dayOfEra / 36524 - dayOfEra / 146096) / 365
  let dayOfYear := dayOfEra - (365 * yearOfEra + yearOfEra / 4 - yearOfEra / 100)
  let shiftedMonth := (5 * dayOfYear + 2) / 153
  let day := dayOfYear - (153 * shiftedMonth + 2) / 5 + 1
  let month := if shiftedMonth < 10 then shiftedMonth + 3 else shiftedMonth - 9
  (yearOfEra + era * 400 + (if month ≤ 2 then 1 else 0), month, day)

/-- `datetime.fromtimestamp(seconds, utc).isoformat()`; nothing after year 9999. -/
def isoFormat (seconds : Rat) : Option (List Char) :=
  let (whole, micros) := splitSeconds seconds
  let (year, month, day) := civilDate (whole / 86400)
  let clock := whole % 86400
  if 9999 < year then none
  else some (zeroPadded 4 year ++ '-' :: zeroPadded 2 month ++ '-' :: zeroPadded 2 day ++
    'T' :: zeroPadded 2 (clock / 3600) ++ ':' :: zeroPadded 2 (clock / 60 % 60) ++
    ':' :: zeroPadded 2 (clock % 60) ++
    (if micros = 0 then [] else '.' :: zeroPadded 6 micros) ++ "+00:00".toList)

end HomeclusterInfra.Binary64
