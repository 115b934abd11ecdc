import Mathlib.Algebra.Order.Field.Basic
import Mathlib.Algebra.Order.Ring.Rat
import Mathlib.Algebra.Order.Group.Abs
import Mathlib.Tactic.FieldSimp
import Mathlib.Tactic.Linarith
import Mathlib.Tactic.Ring
import Overworld.Proofs.Number.Dyadic

set_option autoImplicit false

/-!
How far rounding goes: at most half a unit in the last of 53 bits. So it keeps signs, and a whole number
compares with smaller fractions after rounding as it did before.
-/

namespace Overworld

namespace Significand

/-- The nearest integer is within half a denominator of the numerator. -/
theorem roundHalfEven_near (numerator : Nat) {denominator : Nat} (positive : 0 < denominator) :
    2 * (roundHalfEven numerator denominator * denominator) ≤ 2 * numerator + denominator ∧
      2 * numerator ≤ 2 * (roundHalfEven numerator denominator * denominator) + denominator := by
  have split := Nat.div_add_mod numerator denominator
  have below := Nat.mod_lt numerator positive
  rw [Nat.mul_comm] at split
  unfold roundHalfEven
  dsimp only
  generalize numerator / denominator = quotient at *
  generalize numerator % denominator = rest at *
  split_ifs with under above
  · omega
  · rw [Nat.add_mul]
    omega
  · rcases Nat.mod_two_eq_zero_or_one quotient with even | odd
    · rw [even, Nat.add_zero]
      omega
    · rw [odd, Nat.add_mul]
      omega

/-- A power of two with a sign in its exponent, as two shifts. -/
theorem two_pow_toNat (exponent : Int) :
    (2 : Rat) ^ exponent.toNat = 2 ^ exponent * 2 ^ (-exponent).toNat := by
  rw [← zpow_natCast, ← zpow_natCast, ← zpow_add₀ two_ne_zero]
  congr 1
  omega

/-- A comparison of two shifted numbers is one of a fraction with a power of two. -/
theorem mul_two_zpow_le_of_shiftLeft {numerator denominator : Nat} {exponent : Int}
    (under : denominator <<< exponent.toNat ≤ numerator <<< (-exponent).toNat) :
    (denominator : Rat) * 2 ^ exponent ≤ numerator := by
  rw [Nat.shiftLeft_eq, Nat.shiftLeft_eq] at under
  have scaled : (denominator : Rat) * 2 ^ exponent.toNat ≤ numerator * 2 ^ (-exponent).toNat := by
    exact_mod_cast under
  rw [two_pow_toNat exponent, ← mul_assoc] at scaled
  exact le_of_mul_le_mul_right scaled (pow_pos two_pos _)

/-- The power of two is at or below the fraction. -/
theorem mul_two_zpow_binaryExponent_le {numerator : Nat} (positive : 0 < numerator)
    (denominator : Nat) :
    (denominator : Rat) * 2 ^ binaryExponent numerator denominator ≤ numerator := by
  unfold binaryExponent
  dsimp only
  split_ifs with high
  · -- the guess is one too high, and the leading bits alone make up for that
    have least : (2 : Rat) ^ numerator.log2 ≤ numerator := by
      exact_mod_cast Nat.log2_self_le (Nat.pos_iff_ne_zero.mp positive)
    have most : (denominator : Rat) ≤ 2 ^ (denominator.log2 + 1) := by
      exact_mod_cast Nat.le_of_lt (Nat.lt_log2_self (n := denominator))
    calc (denominator : Rat) * 2 ^ ((numerator.log2 : Int) - denominator.log2 - 1)
        ≤ 2 ^ (denominator.log2 + 1) * 2 ^ ((numerator.log2 : Int) - denominator.log2 - 1) :=
          mul_le_mul_of_nonneg_right most (zpow_nonneg zero_le_two _)
      _ = 2 ^ numerator.log2 := by
          rw [← zpow_natCast, ← zpow_natCast, ← zpow_add₀ two_ne_zero]
          congr 1
          push_cast
          ring
      _ ≤ numerator := least
  · exact mul_two_zpow_le_of_shiftLeft (Nat.not_lt.mp high)

/-- In units of the last bit, a fraction is rounded by at most half a unit. -/
theorem abs_unitCount_sub_le {numerator denominator : Nat} (positive : 0 < numerator)
    (strict : 0 < denominator) :
    |(unitCount numerator denominator : Rat) * 2 ^ unitExponent numerator denominator -
        numerator / denominator| ≤ numerator / denominator / 2 ^ 53 := by
  have leading := mul_two_zpow_binaryExponent_le positive denominator
  have below : (0 : Rat) < denominator := by exact_mod_cast strict
  have unit : (2 : Rat) ^ binaryExponent numerator denominator =
      2 ^ unitExponent numerator denominator * 2 ^ 52 := by
    unfold unitExponent
    rw [← zpow_natCast, ← zpow_add₀ two_ne_zero]
    congr 1
    push_cast
    ring
  have near := roundHalfEven_near
    (numerator <<< (-unitExponent numerator denominator).toNat)
    (show 0 < denominator <<< (unitExponent numerator denominator).toNat by
      rw [Nat.shiftLeft_eq]
      positivity)
  unfold unitCount
  dsimp only
  rw [unit] at leading
  generalize unitExponent numerator denominator = exponent at *
  generalize roundHalfEven _ _ = count at *
  obtain ⟨high, low⟩ := near
  rw [Nat.shiftLeft_eq, Nat.shiftLeft_eq] at high low
  have scale : (0 : Rat) < 2 ^ (-exponent).toNat := by positivity
  have above : 2 * (count * (denominator * 2 ^ exponent)) ≤
      2 * (numerator : Rat) + denominator * 2 ^ exponent := by
    have cast : 2 * ((count : Rat) * (denominator * 2 ^ exponent.toNat)) ≤
        2 * (numerator * 2 ^ (-exponent).toNat) + denominator * 2 ^ exponent.toNat := by
      exact_mod_cast high
    rw [two_pow_toNat exponent] at cast
    refine le_of_mul_le_mul_right ?_ scale
    linarith
  have beneath : 2 * (numerator : Rat) ≤
      2 * (count * (denominator * 2 ^ exponent)) + denominator * 2 ^ exponent := by
    have cast : 2 * ((numerator : Rat) * 2 ^ (-exponent).toNat) ≤
        2 * (count * (denominator * 2 ^ exponent.toNat)) + denominator * 2 ^ exponent.toNat := by
      exact_mod_cast low
    rw [two_pow_toNat exponent] at cast
    refine le_of_mul_le_mul_right ?_ scale
    linarith
  rw [abs_le, div_div, ← neg_div, div_le_iff₀ (by positivity), le_div_iff₀ (by positivity)]
  constructor <;> field_simp <;> linarith

/-- Two shifts by the parts of an exponent make one power of two. -/
theorem mkRat_shiftLeft (count : Nat) (exponent : Int) :
    mkRat (count <<< exponent.toNat : Nat) (1 <<< (-exponent).toNat) = count * 2 ^ exponent := by
  rw [Rat.mkRat_eq_div, Nat.shiftLeft_eq, Nat.shiftLeft_eq, div_eq_iff (by positivity)]
  push_cast
  rw [two_pow_toNat exponent]
  ring

theorem abs_round_sub_le (q : Rat) : |round q - q| ≤ |q| / 2 ^ 53 := by
  by_cases zero : q.num = 0
  · rw [Rat.zero_of_num_zero zero]
    simp [round]
  have near := abs_unitCount_sub_le (Int.natAbs_pos.mpr zero) q.den_pos
  have size : (q.num.natAbs : Rat) / q.den = |q| := by
    rw [Rat.abs_def, Rat.divInt_eq_div, Int.cast_natCast, Int.cast_natCast]
  unfold round
  dsimp only
  rw [if_neg zero, mkRat_shiftLeft]
  rw [size] at near
  split_ifs with negative
  · rw [abs_of_neg (Rat.num_neg.mp negative)] at near ⊢
    rw [← abs_neg]
    convert near using 2
    ring
  · rw [abs_of_nonneg (Rat.num_nonneg.mp (Int.not_lt.mp negative))] at near ⊢
    exact near

theorem round_pos {q : Rat} (positive : 0 < q) : 0 < round q := by
  have near := abs_le.mp (abs_round_sub_le q)
  rw [abs_of_pos positive] at near
  linarith

theorem round_neg {q : Rat} (negative : q < 0) : round q < 0 := by
  have near := abs_le.mp (abs_round_sub_le q)
  rw [abs_of_neg negative] at near
  linarith

/-- A whole number of more than 53 bits stays great. -/
theorem lt_round_intCast {value : Int} (great : 2 ^ 53 ≤ value) : 2 ^ 52 < round value := by
  have near := abs_le.mp (abs_round_sub_le value)
  have cast : (2 ^ 53 : Rat) ≤ value := by exact_mod_cast great
  rw [abs_of_nonneg (by linarith)] at near
  linarith

theorem lt_round_intCast_iff {value : Int} (nonneg : 0 ≤ value) {q : Rat} (small : q ≤ 2 ^ 52) :
    q < round value ↔ q < value := by
  rcases lt_or_ge value (2 ^ 53) with fits | great
  · rw [round_intCast (by omega)]
  · have cast : (2 ^ 53 : Rat) ≤ value := by exact_mod_cast great
    exact iff_of_true (lt_of_le_of_lt small (lt_round_intCast great)) (by linarith)

theorem round_intCast_lt_iff {value : Int} (nonneg : 0 ≤ value) {q : Rat} (small : q ≤ 2 ^ 52) :
    round value < q ↔ value < q := by
  rcases lt_or_ge value (2 ^ 53) with fits | great
  · rw [round_intCast (by omega)]
  · have cast : (2 ^ 53 : Rat) ≤ value := by exact_mod_cast great
    have above := lt_round_intCast great
    exact iff_of_false (by linarith) (by linarith)

end Significand

namespace IntRounding

/-- The nearest integer is within a half of the fraction. -/
theorem abs_quotient_nearestAway_sub_le (q : Rat) :
    |(nearestAway.quotient q.num q.den : Rat) - q| ≤ 1 / 2 := by
  have positive := q.den_pos
  have split := Nat.div_add_mod (2 * q.num.natAbs + q.den) (2 * q.den)
  have below := Nat.mod_lt (2 * q.num.natAbs + q.den) (show 0 < 2 * q.den by omega)
  have near : 2 * (nearestAway.quotient q.num q.den * q.den) ≤ 2 * q.num + q.den ∧
      2 * q.num ≤ 2 * (nearestAway.quotient q.num q.den * q.den) + q.den := by
    unfold quotient
    dsimp only
    generalize (2 * q.num.natAbs + q.den) / (2 * q.den) = magnitude at *
    have product : 2 * q.den * magnitude = 2 * (magnitude * q.den) := by ring
    rw [product] at split
    split_ifs with negative
    · rw [Int.neg_mul]
      norm_cast
      omega
    · norm_cast
      omega
  have strict : (0 : Rat) < q.den := by exact_mod_cast positive
  have value := Rat.mul_den_eq_num q
  have above : 2 * ((nearestAway.quotient q.num q.den : Rat) * q.den) ≤ 2 * q.num + q.den := by
    exact_mod_cast near.1
  have beneath : 2 * (q.num : Rat) ≤ 2 * (nearestAway.quotient q.num q.den * q.den) + q.den := by
    exact_mod_cast near.2
  rw [← value] at above beneath
  rw [abs_le]
  constructor
  · refine le_of_mul_le_mul_right ?_ strict
    linarith
  · refine le_of_mul_le_mul_right ?_ strict
    linarith

theorem quotient_nearestAway_nonneg {numerator : Int} (nonneg : 0 ≤ numerator) (denominator : Nat) :
    0 ≤ nearestAway.quotient numerator denominator := by
  unfold quotient
  dsimp only
  rw [if_neg (Int.not_lt.mpr nonneg)]
  exact Int.natCast_nonneg _

theorem quotient_nearestAway_nonpos {numerator : Int} (negative : numerator < 0)
    (denominator : Nat) : nearestAway.quotient numerator denominator ≤ 0 := by
  unfold quotient
  dsimp only
  rw [if_pos negative]
  exact Int.neg_nonpos_of_nonneg (Int.natCast_nonneg _)

end IntRounding

end Overworld
