import Overworld.Number.Single

set_option autoImplicit false

/-!
The decimal text of a number: the fewest digits that read back as it, and of those the nearest to
it. Which digits they are and how they are laid out are two questions with two answers.
-/

namespace Overworld

/-- The number `0.d₁d₂… * 10 ^ point`; neither end of the digits is a zero. -/
structure DecimalDigits where
  digits : List Char
  point : Int
deriving DecidableEq

/-- The fractions that round to one binary number, over a common denominator. The ends belong to
the interval when it is `closed`. -/
structure RoundingInterval where
  low : Nat
  value : Nat
  high : Nat
  denominator : Nat
  closed : Bool

namespace RoundingInterval

/-- The interval of `mantissa * 2 ^ exponent`. Its lower half is half as wide where the binary grid
gets finer below. -/
def around (format : BinaryFormat) (mantissa : Nat) (exponent : Int) : RoundingInterval :=
  let scale := 1 <<< (exponent - 2).toNat
  let finer := mantissa = 1 <<< format.mantissaBits ∧ format.lowestExponent < exponent
  { low := (4 * mantissa - if finer then 1 else 2) * scale
    value := 4 * mantissa * scale
    high := (4 * mantissa + 2) * scale
    denominator := 1 <<< (2 - exponent).toNat
    closed := mantissa % 2 = 0 }

/-- The multiple of `10 ^ unit` in the interval that is nearest to its value. Halfway between two,
the upper one is taken. -/
def multiple? (interval : RoundingInterval) (unit : Int) : Option Nat :=
  let scale := Nat.pow 10 (-unit).toNat
  let step := interval.denominator * Nat.pow 10 unit.toNat
  let below := interval.value * scale / step
  let inside (count : Nat) : Bool :=
    if interval.closed then interval.low * scale ≤ count * step ∧ count * step ≤ interval.high * scale
    else interval.low * scale < count * step ∧ count * step < interval.high * scale
  match inside below, inside (below + 1) with
  | true, true =>
    if 2 * (interval.value * scale) < (2 * below + 1) * step then some below else some (below + 1)
  | true, false => some below
  | false, true => some (below + 1)
  | false, false => none

end RoundingInterval

/-- Digits before the point of `numerator / denominator`; zero or less below one tenth. -/
def decimalPoint (numerator denominator : Nat) : Int :=
  (Nat.toDigits 10 (numerator * Nat.pow 10 400 / denominator)).length - 400

def DecimalDigits.ofMultiple (count : Nat) (unit : Int) : DecimalDigits :=
  let digits := Nat.toDigits 10 count
  ⟨(digits.reverse.dropWhile (· == '0')).reverse, digits.length + unit⟩

/-- The fewest digits that read back, looked for on ever finer decimal grids. -/
def RoundingInterval.shortest (interval : RoundingInterval) : DecimalDigits :=
  let point := decimalPoint interval.value interval.denominator
  let found := (List.range 17).findSome? fun (extra : Nat) =>
    let unit := point - 1 - extra
    (interval.multiple? unit).map (DecimalDigits.ofMultiple · unit)
  found.getD ⟨[], 0⟩

/-- How a number is laid out. -/
structure DecimalStyle where
  /-- Whole numbers keep a point and a zero. -/
  keepsFraction : Bool
  /-- The points written without an exponent; all of them where there is no limit. -/
  positional : Option (Int × Int)

namespace DecimalStyle

/-- Never an exponent, and no fraction for whole numbers. -/
def plain : DecimalStyle := ⟨false, none⟩

/-- A fraction for whole numbers, and an exponent below `10 ^ -4` and from `10 ^ 16` on. -/
def precise : DecimalStyle := ⟨true, some (-3, 16)⟩

def isPositional (style : DecimalStyle) (point : Int) : Bool :=
  match style.positional with
  | none => true
  | some (least, greatest) => least ≤ point ∧ point ≤ greatest

def zeros (count : Int) : List Char := List.replicate count.toNat '0'

def layPositional (style : DecimalStyle) (number : DecimalDigits) : List Char :=
  let length : Int := number.digits.length
  if number.point ≤ 0 then
    ['0', '.'] ++ zeros (-number.point) ++ number.digits
  else if length ≤ number.point then
    number.digits ++ zeros (number.point - length) ++ if style.keepsFraction then ['.', '0'] else []
  else
    number.digits.take number.point.toNat ++ '.' :: number.digits.drop number.point.toNat

def layExponent (number : DecimalDigits) : List Char :=
  let fraction := match number.digits.drop 1 with
    | [] => []
    | rest => '.' :: rest
  number.digits.take 1 ++ fraction ++ 'e' :: (toString (number.point - 1)).toList

def lay (style : DecimalStyle) (number : DecimalDigits) : List Char :=
  if number.digits.isEmpty then '0' :: if style.keepsFraction then ['.', '0'] else []
  else if style.isPositional number.point then style.layPositional number
  else layExponent number

end DecimalStyle

/-- The digits of a finite number; none for zero. -/
def DecimalDigits.ofFinite (format : BinaryFormat) (mantissa : Nat) (exponent : Int) : DecimalDigits :=
  if mantissa = 0 then ⟨[], 0⟩
  else (RoundingInterval.around format mantissa exponent).shortest

def Single.text (number : Single) (style : DecimalStyle) : String :=
  let signed (negative : Bool) (text : List Char) : String :=
    String.ofList (if negative then '-' :: text else text)
  match number.value with
  | .nan => "NaN"
  | .infinite negative => signed negative "inf".toList
  | .finite negative mantissa exponent =>
    signed negative (style.lay (DecimalDigits.ofFinite .single mantissa exponent))

end Overworld
