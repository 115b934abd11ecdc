import Overworld.Number.Binary

set_option autoImplicit false

/-!
Single-precision numbers, kept as their bit patterns so that every pattern of the wire survives.
Each arithmetic operation rounds once, to nearest even. Order is the order of the values: zeros of
both signs are one value, and a comparison with what is no number fails.
-/

namespace Overworld

structure Single where
  bits : UInt32
deriving DecidableEq, Hashable, Inhabited

namespace Single

def ofFloat32 (value : Float32) : Single := ⟨value.toBits⟩
def toFloat32 (value : Single) : Float32 := Float32.ofBits value.bits

instance : Add Single := ⟨fun a b => ofFloat32 (a.toFloat32 + b.toFloat32)⟩
instance : Sub Single := ⟨fun a b => ofFloat32 (a.toFloat32 - b.toFloat32)⟩
instance : Mul Single := ⟨fun a b => ofFloat32 (a.toFloat32 * b.toFloat32)⟩
instance : Div Single := ⟨fun a b => ofFloat32 (a.toFloat32 / b.toFloat32)⟩

/-- Flips the sign, of zero too. -/
instance : Neg Single := ⟨fun a => ⟨a.bits ^^^ 0x80000000⟩⟩

def sqrt (a : Single) : Single := ofFloat32 a.toFloat32.sqrt

def abs (a : Single) : Single := ⟨a.bits &&& 0x7fffffff⟩

def isNaN (a : Single) : Bool := 0x7f800000 < a.abs.bits

def isFinite (a : Single) : Bool := a.abs.bits < 0x7f800000

/-- Orders all patterns but the ones of no number as their values. -/
def rank (a : Single) : Int :=
  if a.bits < 0x80000000 then a.bits.toNat else -(a.abs.bits.toNat : Int)

instance : LT Single := ⟨fun a b => a.isNaN = false ∧ b.isNaN = false ∧ a.rank < b.rank⟩
instance : LE Single := ⟨fun a b => a.isNaN = false ∧ b.isNaN = false ∧ a.rank ≤ b.rank⟩

instance (a b : Single) : Decidable (a < b) :=
  inferInstanceAs (Decidable (a.isNaN = false ∧ b.isNaN = false ∧ a.rank < b.rank))

instance (a b : Single) : Decidable (a ≤ b) :=
  inferInstanceAs (Decidable (a.isNaN = false ∧ b.isNaN = false ∧ a.rank ≤ b.rank))

/-- Equality of values, which the two zeros share and no number has with itself when it is none. -/
def sameValue (a b : Single) : Bool := !a.isNaN && !b.isNaN && a.rank == b.rank

/-- The lesser value; the other one where one is no number. -/
def least (a b : Single) : Single :=
  if a.isNaN then b else if b.isNaN then a else if b < a then b else a

/-- The greater value; the other one where one is no number. -/
def greatest (a b : Single) : Single :=
  if a.isNaN then b else if b.isNaN then a else if a < b then b else a

/-- The nearest value of the interval from `low` to `high`. -/
def clamp (a low high : Single) : Single :=
  let raised := if a < low then low else a
  if high < raised then high else raised

/-- The number nearest to `n`, for `n` below `2 ^ 64`. -/
def ofNat (n : Nat) : Single := ofFloat32 n.toUInt64.toFloat32

/-- The number nearest to `n`, for magnitudes below `2 ^ 64`. -/
def ofInt (n : Int) : Single := if n < 0 then -ofNat n.natAbs else ofNat n.natAbs

/-- The number nearest to `coefficient * 10 ^ exponent`. -/
def ofDecimal (coefficient : Nat) (exponent : Int) : Single :=
  ofFloat32 (Float32.ofScientific coefficient (decide (exponent < 0)) exponent.natAbs)

def value (a : Single) : BinaryValue := BinaryFormat.single.decode a.bits.toNat

/-- Whole units at or below, cut to 32 bits with a sign. -/
def floorInt32 (a : Single) : Int :=
  a.value.toIntClamped .floor (-2147483648) 2147483647

/-- Whole units at or above, cut to 32 bits without a sign. -/
def ceilUInt32 (a : Single) : Nat :=
  (a.value.toIntClamped .ceil 0 4294967295).toNat

/-- Whole units toward zero, cut to 64 bits without a sign. -/
def truncateUInt64 (a : Single) : Nat :=
  (a.value.toIntClamped .truncate 0 18446744073709551615).toNat

def zero : Single := ⟨0⟩
def one : Single := ⟨0x3f800000⟩
def half : Single := ⟨0x3f000000⟩
def infinity : Single := ⟨0x7f800000⟩
def notANumber : Single := ⟨0x7fc00000⟩

/-- The gap between one and the next number. -/
def epsilon : Single := ⟨0x34000000⟩

end Single

end Overworld
