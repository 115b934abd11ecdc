import Overworld.Number.Binary

set_option autoImplicit false

/-!
Rationals rounded to 53 significant bits, the precision in which means and midpoints of whole
numbers are computed. The values that arise lie far from either end of the exponent range, so a
rounded rational stands for one double-precision number.
-/

namespace Overworld

namespace Significand

/-- The quotient rounded to the nearest integer, a half to the even one. -/
def roundHalfEven (numerator denominator : Nat) : Nat :=
  let quotient := numerator / denominator
  let twice := 2 * (numerator % denominator)
  if twice < denominator then quotient
  else if denominator < twice then quotient + 1
  else quotient + quotient % 2

/-- The exponent of the greatest power of two at or below a positive fraction. -/
def binaryExponent (numerator denominator : Nat) : Int :=
  let guess : Int := (numerator.log2 : Int) - denominator.log2
  if numerator <<< (-guess).toNat < denominator <<< guess.toNat then guess - 1 else guess

/-- The exponent of the last of 53 significant bits. -/
def unitExponent (numerator denominator : Nat) : Int :=
  binaryExponent numerator denominator - 52

/-- The fraction in units of its last significant bit. -/
def unitCount (numerator denominator : Nat) : Nat :=
  let unit := unitExponent numerator denominator
  roundHalfEven (numerator <<< (-unit).toNat) (denominator <<< unit.toNat)

/-- The nearest rational of 53 significant bits, ties to the even one. -/
def round (q : Rat) : Rat :=
  if q.num = 0 then 0
  else
    let unit := unitExponent q.num.natAbs q.den
    let magnitude : Rat :=
      mkRat (unitCount q.num.natAbs q.den <<< unit.toNat : Nat) (1 <<< (-unit).toNat)
    if q.num < 0 then -magnitude else magnitude

/-- The double-precision pattern of a rational that has 53 significant bits. -/
def bits (q : Rat) : UInt64 :=
  if q.num = 0 then 0
  else
    let field := (binaryExponent q.num.natAbs q.den + 1023).toNat
    let stored := unitCount q.num.natAbs q.den - 1 <<< 52
    let sign := if q.num < 0 then 1 <<< 63 else 0
    (sign + field <<< 52 + stored).toUInt64

end Significand

end Overworld
