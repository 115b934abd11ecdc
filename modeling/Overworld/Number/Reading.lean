import Overworld.Number.Single

set_option autoImplicit false

/-!
Numbers read from text. Integers take a sign and ASCII digits and have to fit their range. Decimal
numbers take an optional sign and then a name of infinity, a name of no number, or digits with an
optional point and exponent; they round once.
-/

namespace Overworld

namespace Reading

/-- Whether a minus leads, and what follows the sign. -/
def splitSign : List Char → Bool × List Char
  | '-' :: rest => (true, rest)
  | '+' :: rest => (false, rest)
  | rest => (false, rest)

def digitsValue (digits : List Char) : Nat :=
  digits.foldl (fun total digit => 10 * total + (digit.toNat - '0'.toNat)) 0

def allDigits (text : List Char) : Bool := !text.isEmpty && text.all Char.isDigit

/-- An unsigned integer up to `limit`; a plus may lead. -/
def natural? (limit : Nat) (text : List Char) : Option Nat :=
  let digits := match text with
    | '+' :: rest => rest
    | rest => rest
  if allDigits digits ∧ digitsValue digits ≤ limit then some (digitsValue digits) else none

/-- A signed integer from `low` to `high`. -/
def integer? (low high : Int) (text : List Char) : Option Int :=
  let (negative, digits) := splitSign text
  let magnitude : Int := digitsValue digits
  let value := if negative then -magnitude else magnitude
  if allDigits digits ∧ low ≤ value ∧ value ≤ high then some value else none

/-- The exponent part that may end a decimal number; absent, it is zero. -/
def exponent? : List Char → Option Int
  | [] => some 0
  | mark :: rest =>
    let (negative, digits) := splitSign rest
    if (mark = 'e' ∨ mark = 'E') ∧ allDigits digits then
      some (if negative then -(digitsValue digits : Int) else digitsValue digits)
    else none

/-- Digits, point and exponent as `coefficient * 10 ^ exponent`. -/
def decimal? (text : List Char) : Option (Nat × Int) :=
  let whole := text.takeWhile Char.isDigit
  let (fraction, rest) := match text.dropWhile Char.isDigit with
    | '.' :: rest => (rest.takeWhile Char.isDigit, rest.dropWhile Char.isDigit)
    | rest => ([], rest)
  if whole.isEmpty ∧ fraction.isEmpty then none
  else (exponent? rest).map fun exponent =>
    (digitsValue (whole ++ fraction), exponent - fraction.length)

/-- Rounds `coefficient * 10 ^ exponent`. Magnitudes far out of range are settled by their count of
digits, so that no power of ten grows with the exponent written. -/
def magnitude (coefficient : Nat) (exponent : Int) : Single :=
  let length : Int := (Nat.toDigits 10 coefficient).length
  if coefficient = 0 ∨ length + exponent < -60 then .zero
  else if 60 < length + exponent then .infinity
  else .ofDecimal coefficient exponent

def lowercase (text : List Char) : List Char := text.map Char.toLower

def unsigned? (text : List Char) : Option Single :=
  let name := lowercase text
  if name = "inf".toList ∨ name = "infinity".toList then some .infinity
  else if name = "nan".toList then some .notANumber
  else (decimal? text).map fun (coefficient, exponent) => magnitude coefficient exponent

def single? (text : List Char) : Option Single :=
  let (negative, rest) := splitSign text
  (unsigned? rest).map fun number => if negative then -number else number

end Reading

end Overworld
