import Mathlib.Algebra.Order.Ring.Nat
import Mathlib.Algebra.Order.Ring.Int
import Mathlib.Tactic.Ring
import Overworld.Proofs.Number.Packing

set_option autoImplicit false

/-!
Rounding to 24 significant bits keeps order. Values are counted in units of the least positive float,
and what is rounded in units of the square of it, so that both are whole numbers.
-/

open Float.Model (Format UnpackedFloat totalExponent)
open Float.Model.UnpackedFloat

namespace Overworld

/-- A mantissa and its residual bits as one number, which orders them. -/
def weight (extended : ExtendedMantissa) : Nat :=
  4 * extended.mantissa + 2 * extended.roundBit.toNat + extended.stickyBit.toNat

theorem weight_shiftRightOne_mono {a b : ExtendedMantissa} (order : weight a ≤ weight b) :
    weight a.shiftRightOne ≤ weight b.shiftRightOne := by
  obtain ⟨first, _ | _, _ | _⟩ := a <;> obtain ⟨second, _ | _, _ | _⟩ := b <;>
    simp only [weight, ExtendedMantissa.shiftRightOne, Bool.toNat_true, Bool.toNat_false,
      Bool.or_self, Bool.or_true, Bool.true_or] at order ⊢ <;>
    rcases Nat.mod_two_eq_zero_or_one first with even | odd <;>
    rcases Nat.mod_two_eq_zero_or_one second with even' | odd' <;>
    simp_all <;> omega

theorem roundedMantissa_mono {a b : ExtendedMantissa} (order : weight a ≤ weight b) :
    a.roundedMantissa ≤ b.roundedMantissa := by
  obtain ⟨first, _ | _, _ | _⟩ := a <;> obtain ⟨second, _ | _, _ | _⟩ := b <;>
    simp [weight, ExtendedMantissa.roundedMantissa, ExtendedMantissa.accuracy,
      Accuracy.roundToNearestEven] at order ⊢ <;> omega

theorem roundedMantissa_bounds (extended : ExtendedMantissa) :
    extended.mantissa ≤ extended.roundedMantissa ∧
      extended.roundedMantissa ≤ extended.mantissa + 1 := by
  obtain ⟨mantissa, _ | _, _ | _⟩ := extended <;>
    simp [ExtendedMantissa.roundedMantissa, ExtendedMantissa.accuracy,
      Accuracy.roundToNearestEven]
  omega

/-- A whole number shifted to the right, with what falls off noted. -/
def shifted (count number : Nat) : ExtendedMantissa :=
  (⟨number, false, false⟩ : ExtendedMantissa) >>> count

theorem shifted_zero (number : Nat) : shifted 0 number = ⟨number, false, false⟩ := rfl

theorem shifted_succ (count number : Nat) :
    shifted (count + 1) number = (shifted count number).shiftRightOne := rfl

theorem weight_shifted_mono (count : Nat) {a b : Nat} (order : a ≤ b) :
    weight (shifted count a) ≤ weight (shifted count b) := by
  induction count with
  | zero => exact Nat.add_le_add_right (Nat.add_le_add_right (Nat.mul_le_mul_left 4 order) _) _
  | succ count ih => exact weight_shiftRightOne_mono ih

theorem mantissa_shifted (count number : Nat) :
    (shifted count number).mantissa = number / 2 ^ count := by
  induction count with
  | zero => exact (Nat.div_one number).symm
  | succ count ih =>
      rw [shifted_succ, pow_succ, ← Nat.div_div_eq_div_mul, ← ih]
      rfl

theorem shifted_self (zeros number : Nat) :
    shifted zeros (number * 2 ^ zeros) = ⟨number, false, false⟩ := by
  induction zeros generalizing number with
  | zero => rw [shifted_zero, pow_zero, Nat.mul_one]
  | succ zeros ih =>
      have doubled : number * 2 ^ (zeros + 1) = 2 * number * 2 ^ zeros := by ring
      rw [doubled, shifted_succ, ih]
      simp [ExtendedMantissa.shiftRightOne]

/-- Zeros at the end fall off first. -/
theorem shifted_mul_two_pow (zeros count number : Nat) :
    shifted (zeros + count) (number * 2 ^ zeros) = shifted count number := by
  induction count with
  | zero => exact shifted_self zeros number
  | succ count ih => exact congrArg ExtendedMantissa.shiftRightOne ih

/-- How many bits fall off a number of units of the square of the least float. -/
def fallingBits (number : Nat) : Nat := max (number.log2 - 23) 149

def significant (number : Nat) : Nat := (shifted (fallingBits number) number).roundedMantissa

/-- A number of units of the square of the least float, rounded to units of that float. -/
def roundUnits (number : Nat) : Nat := significant number * 2 ^ (fallingBits number - 149)

theorem significant_le (number : Nat) : significant number ≤ 16777216 := by
  have below : number / 2 ^ fallingBits number < 16777216 := by
    apply Nat.div_lt_of_lt_mul
    calc number < 2 ^ (number.log2 + 1) := Nat.lt_log2_self
      _ ≤ 2 ^ (fallingBits number + 24) := Nat.pow_le_pow_right (by decide) (by
          unfold fallingBits
          omega)
      _ = 2 ^ fallingBits number * 16777216 := by ring
  rw [← mantissa_shifted] at below
  exact Nat.le_trans (roundedMantissa_bounds _).2 below

theorem le_significant {number : Nat} (large : 149 < fallingBits number) :
    8388608 ≤ significant number := by
  have bits : number.log2 = fallingBits number + 23 := by
    unfold fallingBits at large ⊢
    omega
  have positive : number ≠ 0 := by
    rintro rfl
    simp [fallingBits] at large
  have reaches : 8388608 ≤ number / 2 ^ fallingBits number := by
    rw [Nat.le_div_iff_mul_le (Nat.two_pow_pos _)]
    calc 8388608 * 2 ^ fallingBits number = 2 ^ (fallingBits number + 23) := by ring
      _ ≤ number := bits ▸ Nat.log2_self_le positive
  rw [← mantissa_shifted] at reaches
  exact Nat.le_trans reaches (roundedMantissa_bounds _).1

theorem fallingBits_mono {a b : Nat} (order : a ≤ b) : fallingBits a ≤ fallingBits b := by
  have bits : a.log2 ≤ b.log2 := by
    by_cases empty : a = 0
    · simp [empty]
    · exact (Nat.le_log2 (by omega)).mpr (Nat.le_trans (Nat.log2_self_le empty) order)
  unfold fallingBits
  omega

/-- Where as many bits fall off, the mantissas compare; where fewer do, one mantissa is at most full
and the other, of at least half as much, counts more than twice. -/
theorem roundUnits_mono {a b : Nat} (order : a ≤ b) : roundUnits a ≤ roundUnits b := by
  unfold roundUnits
  obtain fewer | same := Nat.lt_or_eq_of_le (fallingBits_mono order)
  · have least : 149 ≤ fallingBits a := le_max_right _ _
    calc significant a * 2 ^ (fallingBits a - 149)
        ≤ 16777216 * 2 ^ (fallingBits a - 149) := Nat.mul_le_mul_right _ (significant_le a)
      _ = 8388608 * 2 ^ (fallingBits a - 149 + 1) := by ring
      _ ≤ 8388608 * 2 ^ (fallingBits b - 149) :=
          Nat.mul_le_mul_left _ (Nat.pow_le_pow_right (by decide) (by omega))
      _ ≤ significant b * 2 ^ (fallingBits b - 149) :=
          Nat.mul_le_mul_right _ (le_significant (Nat.lt_of_le_of_lt least fewer))
  · rw [same]
    refine Nat.mul_le_mul_right _ (roundedMantissa_mono ?_)
    rw [same]
    exact weight_shifted_mono _ order

/-- What the mantissa after the one of the greatest float would count at its exponent. -/
def unbounded : Nat := 16777216 * 2 ^ 253

/-- The value in units of the least float. What is no number counts nothing. -/
def units : UnpackedFloat → Int
  | .infinity sign => sign.apply unbounded
  | .notANumber => 0
  | .zero _ => 0
  | .finite sign mantissa exponent _ => sign.apply (mantissa * 2 ^ (exponent + 149).toNat)

/-- A number rounded with its sign. -/
def roundInt (value : Int) : Int :=
  if value < 0 then -(roundUnits value.natAbs : Int) else roundUnits value.natAbs

theorem roundUnits_zero : roundUnits 0 = 0 := by
  have empty : shifted (fallingBits 0) 0 = ⟨0, false, false⟩ := by
    rw [← shifted_self (fallingBits 0) 0, Nat.zero_mul]
  rw [roundUnits, significant, empty]
  exact Nat.zero_mul _

theorem roundInt_apply (sign : Sign) (number : Nat) :
    roundInt (sign.apply number) = sign.apply (roundUnits number) := by
  cases sign with
  | positive => rfl
  | negative =>
      change roundInt (-(number : Int)) = -(roundUnits number : Int)
      unfold roundInt
      rw [Int.natAbs_neg, Int.natAbs_natCast]
      split
      · rfl
      · obtain rfl : number = 0 := by omega
        rw [roundUnits_zero]
        rfl

theorem roundInt_mono {a b : Int} (order : a ≤ b) : roundInt a ≤ roundInt b := by
  unfold roundInt
  split
  · split
    · have closer : roundUnits b.natAbs ≤ roundUnits a.natAbs := roundUnits_mono (by omega)
      omega
    · omega
  · rw [if_neg (by omega)]
    have closer : roundUnits a.natAbs ≤ roundUnits b.natAbs := roundUnits_mono (by omega)
    omega

theorem roundInt_nonneg {value : Int} (nonnegative : 0 ≤ value) : 0 ≤ roundInt value := by
  unfold roundInt
  rw [if_neg (Int.not_lt.mpr nonnegative)]
  exact Int.natCast_nonneg _

theorem targetExponent_totalExponent (mantissa : Nat) (exponent : Int) :
    Format.binary32.targetExponent (totalExponent mantissa exponent) =
      max (mantissa.log2 + exponent - 23) (-149) := by
  change max ((mantissa.log2 : Int) + 1 + exponent - (24 : Nat)) (-149) = _
  congr 1
  omega

theorem log2_mul_two_pow {number : Nat} (positive : 0 < number) (count : Nat) :
    (number * 2 ^ count).log2 = number.log2 + count := by
  have nonzero := Nat.pos_iff_ne_zero.mp positive
  rw [Nat.log2_eq_iff (Nat.pos_iff_ne_zero.mp (Nat.mul_pos positive (Nat.two_pow_pos _))), pow_add]
  refine ⟨Nat.mul_le_mul_right _ (Nat.log2_self_le nonzero), ?_⟩
  calc number * 2 ^ count < 2 ^ (number.log2 + 1) * 2 ^ count :=
        Nat.mul_lt_mul_of_pos_right Nat.lt_log2_self (Nat.two_pow_pos _)
    _ = 2 ^ (number.log2 + count + 1) := by ring

/-- The first shift of a rounding drops the bits that are to fall off. -/
theorem shiftToTargetExponent_exact {mantissa : Nat} {exponent : Int} (positive : 0 < mantissa)
    (least : -298 ≤ exponent) (enough : exponent ≤ -149 ∨ 8388608 ≤ mantissa) :
    let number := mantissa * 2 ^ (exponent + 298).toNat
    shiftToTargetExponent Format.binary32 mantissa exponent .exact =
      (shifted (fallingBits number) number, (fallingBits number : Int) - 298) := by
  intro number
  have bits : number.log2 = mantissa.log2 + (exponent + 298).toNat := log2_mul_two_pow positive _
  have full : 8388608 ≤ mantissa → 23 ≤ mantissa.log2 :=
    (Nat.le_log2 (k := 23) (Nat.pos_iff_ne_zero.mp positive)).mpr
  have target := targetExponent_totalExponent mantissa exponent
  have split : fallingBits number = (exponent + 298).toNat +
      (max (mantissa.log2 + exponent - 23) (-149) - exponent).toNat := by
    unfold fallingBits
    omega
  unfold shiftToTargetExponent shiftToExponent
  dsimp only
  rw [target, split, shifted_mul_two_pow]
  refine Prod.ext rfl ?_
  dsimp only
  omega

/-- The second shift of a rounding takes back the bit that rounding up may have added. -/
theorem shiftToTargetExponent_significant {mantissa : Nat} {exponent : Int}
    (most : mantissa ≤ 16777216) (least : -149 ≤ exponent) :
    shiftToTargetExponent Format.binary32 mantissa exponent .exact =
      if mantissa = 16777216 then (⟨8388608, false, false⟩, exponent + 1)
      else (⟨mantissa, false, false⟩, exponent) := by
  unfold shiftToTargetExponent shiftToExponent
  dsimp only
  rw [targetExponent_totalExponent]
  split
  · rename_i full
    subst full
    have bits : Nat.log2 16777216 = 24 := by decide
    have one : (max (((24 : Nat) : Int) + exponent - 23) (-149) - exponent).toNat = 1 := by omega
    rw [bits, one]
    rfl
  · have bits : mantissa.log2 ≤ 23 := by
      by_cases empty : mantissa = 0
      · simp [empty]
      · exact Nat.lt_succ_iff.mp ((Nat.log2_lt empty).mpr (by omega))
    have none : (max ((mantissa.log2 : Int) + exponent - 23) (-149) - exponent).toNat = 0 := by
      omega
    rw [none]
    exact Prod.ext rfl (Int.add_zero _)

/-- What a mantissa and an exponent stand for. -/
def floatOf (sign : Sign) (mantissa : Nat) (exponent : Int) : UnpackedFloat :=
  if empty : mantissa = 0 then .zero sign
  else .finite sign mantissa exponent (Nat.pos_of_ne_zero empty)

theorem units_floatOf (sign : Sign) (mantissa : Nat) (exponent : Int) :
    units (floatOf sign mantissa exponent) =
      sign.apply (mantissa * 2 ^ (exponent + 149).toNat : Nat) := by
  by_cases empty : mantissa = 0
  · rw [floatOf, dif_pos empty, empty, Nat.zero_mul]
    cases sign <;> rfl
  · rw [floatOf, dif_neg empty, Nat.cast_mul, Nat.cast_pow]
    rfl

theorem isCanonical_floatOf (sign : Sign) {mantissa : Nat} {exponent : Int}
    (high : mantissa < 16777216) (least : -149 ≤ exponent)
    (normal : 8388608 ≤ mantissa ∨ exponent = -149) :
    IsCanonical (floatOf sign mantissa exponent) := by
  by_cases empty : mantissa = 0
  · rw [floatOf, dif_pos empty]
    trivial
  · rw [floatOf, dif_neg empty]
    exact ⟨high, least, normal⟩

/-- A product has no more bits than the mantissa of the least exponent, or enough to fill one. -/
theorem roundWithAccuracy_exact (sign : Sign) {mantissa : Nat} {exponent : Int}
    (positive : 0 < mantissa) (least : -298 ≤ exponent)
    (enough : exponent ≤ -149 ∨ 8388608 ≤ mantissa) :
    IsCanonical (roundWithAccuracy Format.binary32 sign mantissa exponent .exact) ∧
      units (roundWithAccuracy Format.binary32 sign mantissa exponent .exact) =
        sign.apply (roundUnits (mantissa * 2 ^ (exponent + 298).toNat)) := by
  have first := shiftToTargetExponent_exact positive least enough
  generalize mantissa * 2 ^ (exponent + 298).toNat = number at first ⊢
  have lowest : 149 ≤ fallingBits number := le_max_right _ _
  have most := significant_le number
  have lowestExponent : -149 ≤ (fallingBits number : Int) - 298 := by omega
  have second := shiftToTargetExponent_significant most lowestExponent
  have rounded : roundWithAccuracy Format.binary32 sign mantissa exponent .exact =
      if significant number = 16777216 then floatOf sign 8388608 (fallingBits number - 298 + 1)
      else floatOf sign (significant number) (fallingBits number - 298) := by
    have outcome : roundWithAccuracy Format.binary32 sign mantissa exponent .exact =
        floatOf sign (shiftToTargetExponent Format.binary32 (significant number)
          (fallingBits number - 298) .exact).1.mantissa
          (shiftToTargetExponent Format.binary32 (significant number)
            (fallingBits number - 298) .exact).2 := by
      unfold roundWithAccuracy
      rw [first]
      rfl
    rw [outcome, second]
    split <;> rfl
  have normal : 8388608 ≤ significant number ∨ (fallingBits number : Int) - 298 = -149 := by
    obtain more | equal := Nat.lt_or_eq_of_le lowest
    · exact Or.inl (le_significant more)
    · exact Or.inr (by omega)
  unfold roundUnits
  rw [rounded]
  split
  · rename_i full
    refine ⟨isCanonical_floatOf sign (by decide) (by omega) (Or.inl (by decide)), ?_⟩
    have power : ((fallingBits number : Int) - 298 + 1 + 149).toNat =
        fallingBits number - 149 + 1 := by
      omega
    rw [units_floatOf, power, full, pow_succ, ← Nat.mul_assoc, Nat.mul_right_comm]
  · refine ⟨isCanonical_floatOf sign (by omega) (by omega) normal, ?_⟩
    have power : ((fallingBits number : Int) - 298 + 149).toNat = fallingBits number - 149 := by
      omega
    rw [units_floatOf, power]

end Overworld
