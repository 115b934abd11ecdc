set_option autoImplicit false

/-!
Binary interchange formats, read exactly: what number a bit pattern stands for, and the integer
next to it in each of the directions the library rounds in.
-/

namespace Overworld

/-- Widths of the stored mantissa and of the exponent field. -/
structure BinaryFormat where
  mantissaBits : Nat
  exponentBits : Nat

/-- What a bit pattern stands for; a finite one is `mantissa * 2 ^ exponent`, with a sign. -/
inductive BinaryValue
  | nan
  | infinite (negative : Bool)
  | finite (negative : Bool) (mantissa : Nat) (exponent : Int)
deriving DecidableEq

namespace BinaryFormat

def single : BinaryFormat := ⟨23, 8⟩

/-- The exponent shared by zero, the subnormal numbers and the least normal ones. -/
def lowestExponent (format : BinaryFormat) : Int :=
  2 - (1 <<< (format.exponentBits - 1) : Nat) - format.mantissaBits

def decode (format : BinaryFormat) (bits : Nat) : BinaryValue :=
  let stored := bits % (1 <<< format.mantissaBits)
  let field := bits >>> format.mantissaBits % (1 <<< format.exponentBits)
  let negative := bits.testBit (format.mantissaBits + format.exponentBits)
  if field = 1 <<< format.exponentBits - 1 then
    if stored = 0 then .infinite negative else .nan
  else if field = 0 then
    .finite negative stored format.lowestExponent
  else
    .finite negative (stored + 1 <<< format.mantissaBits) (format.lowestExponent + field - 1)

end BinaryFormat

/-- Ways to turn a fraction into an integer; `nearestAway` sends a half away from zero. -/
inductive IntRounding
  | floor
  | ceil
  | truncate
  | nearestAway
deriving DecidableEq

/-- The integer that `numerator / denominator` rounds to, for a positive denominator. -/
def IntRounding.quotient (rounding : IntRounding) (numerator : Int) (denominator : Nat) : Int :=
  match rounding with
  | .floor => numerator.fdiv denominator
  | .ceil => -(-numerator).fdiv denominator
  | .truncate => numerator.tdiv denominator
  | .nearestAway =>
    let magnitude := (2 * numerator.natAbs + denominator) / (2 * denominator)
    if numerator < 0 then -(magnitude : Int) else magnitude

def clampInt (low high value : Int) : Int := max low (min high value)

namespace BinaryValue

/-- A finite value as a fraction whose denominator is a power of two. -/
def numerator (negative : Bool) (mantissa : Nat) (exponent : Int) : Int :=
  let magnitude : Int := (mantissa <<< exponent.toNat : Nat)
  if negative then -magnitude else magnitude

/-- Rounds to an integer in `low` to `high`. What lies beyond an end goes to that end, and what is
no number goes to zero. -/
def toIntClamped (rounding : IntRounding) (low high : Int) : BinaryValue → Int
  | .nan => 0
  | .infinite negative => if negative then low else high
  | .finite negative mantissa exponent =>
    clampInt low high
      (rounding.quotient (numerator negative mantissa exponent) (1 <<< (-exponent).toNat))

end BinaryValue

end Overworld
