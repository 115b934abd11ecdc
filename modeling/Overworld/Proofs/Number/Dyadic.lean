import Mathlib.Data.Rat.Lemmas
import Mathlib.Data.Nat.Prime.Basic
import Overworld.Number.Significand

set_option autoImplicit false

/-!
Fractions whose denominator is a power of two. Those of at most 53 significant bits are not rounded,
so that means and midpoints of small whole numbers are exact.
-/

namespace Overworld

namespace Significand

theorem roundHalfEven_mul (quotient : Nat) {denominator : Nat} (positive : 0 < denominator) :
    roundHalfEven (quotient * denominator) denominator = quotient := by
  unfold roundHalfEven
  rw [Nat.mul_mod_left, Nat.mul_div_cancel _ positive]
  exact if_pos positive

theorem binaryExponent_two_pow {numerator : Nat} (positive : 0 < numerator) (power : Nat) :
    binaryExponent numerator (2 ^ power) = numerator.log2 - power := by
  have nonzero := Nat.pos_iff_ne_zero.mp positive
  unfold binaryExponent
  rw [Nat.log2_two_pow]
  refine if_neg (Nat.not_lt.mpr ?_)
  rw [Nat.shiftLeft_eq, Nat.shiftLeft_eq, ← Nat.pow_add]
  -- one of the two shifts is by nothing
  calc 2 ^ (power + ((numerator.log2 : Int) - power).toNat)
      = 2 ^ numerator.log2 * 2 ^ (-((numerator.log2 : Int) - power)).toNat := by
        rw [← Nat.pow_add]
        congr 1
        omega
    _ ≤ numerator * 2 ^ (-((numerator.log2 : Int) - power)).toNat :=
        Nat.mul_le_mul_right _ (Nat.log2_self_le nonzero)

/-- In units of the last of 53 bits such a fraction is a whole number. -/
theorem unitCount_two_pow {numerator : Nat} (positive : 0 < numerator) (fits : numerator < 2 ^ 53)
    (power : Nat) :
    unitExponent numerator (2 ^ power) = numerator.log2 - power - 52 ∧
      unitCount numerator (2 ^ power) = numerator * 2 ^ (52 - numerator.log2) := by
  have short : numerator.log2 < 53 := (Nat.log2_lt (Nat.pos_iff_ne_zero.mp positive)).mpr fits
  have unit : unitExponent numerator (2 ^ power) = numerator.log2 - power - 52 := by
    unfold unitExponent
    rw [binaryExponent_two_pow positive]
  refine ⟨unit, ?_⟩
  have up : ((numerator.log2 : Int) - power - 52).toNat = 0 := by omega
  have down : (-((numerator.log2 : Int) - power - 52)).toNat = 52 - numerator.log2 + power := by
    omega
  unfold unitCount
  dsimp only
  rw [unit, up, down, Nat.shiftLeft_zero, Nat.shiftLeft_eq, Nat.pow_add, ← Nat.mul_assoc]
  exact roundHalfEven_mul _ (Nat.two_pow_pos power)

theorem round_of_dyadic {q : Rat} {power : Nat} (dyadic : q.den = 2 ^ power)
    (fits : q.num.natAbs < 2 ^ 53) : round q = q := by
  unfold round
  split
  · rename_i zero
    exact (Rat.zero_of_num_zero zero).symm
  · rename_i nonzero
    have positive := Int.natAbs_pos.mpr nonzero
    have short := (Nat.log2_lt (Nat.pos_iff_ne_zero.mp positive)).mpr fits
    obtain ⟨unit, count⟩ := unitCount_two_pow positive fits power
    have up : ((q.num.natAbs.log2 : Int) - power - 52).toNat = 0 := by omega
    have down : (-((q.num.natAbs.log2 : Int) - power - 52)).toNat =
        power + (52 - q.num.natAbs.log2) := by omega
    have magnitude : mkRat ((unitCount q.num.natAbs q.den <<<
        (unitExponent q.num.natAbs q.den).toNat : Nat) : Int)
        (1 <<< (-unitExponent q.num.natAbs q.den).toNat) = mkRat q.num.natAbs q.den := by
      rw [dyadic, unit, count, up, down, Nat.shiftLeft_zero, Nat.shiftLeft_eq, one_mul, Nat.pow_add,
        Int.natCast_mul]
      exact Rat.mkRat_mul_right (Nat.pos_iff_ne_zero.mp (Nat.two_pow_pos _))
    dsimp only
    rw [magnitude]
    split
    · rename_i negative
      rw [Rat.neg_mkRat, Int.ofNat_natAbs_of_nonpos (Int.le_of_lt negative), Int.neg_neg,
        Rat.mkRat_self]
    · rename_i nonnegative
      rw [Int.natAbs_of_nonneg (Int.not_lt.mp nonnegative), Rat.mkRat_self]

theorem round_div_two_pow {numerator : Int} (fits : numerator.natAbs < 2 ^ 53) (power : Nat) :
    round (numerator / 2 ^ power) = numerator / 2 ^ power := by
  have isFraction : (numerator / 2 ^ power : Rat) = Rat.divInt numerator (2 ^ power) := by
    rw [Rat.divInt_eq_div]
    push_cast
    rfl
  rw [isFraction]
  obtain ⟨lower, -, dyadic⟩ : ∃ lower ≤ power, (Rat.divInt numerator (2 ^ power)).den = 2 ^ lower := by
    refine (Nat.dvd_prime_pow Nat.prime_two).mp ?_
    exact Int.natCast_dvd_natCast.mp (by simpa using Rat.den_dvd numerator (2 ^ power))
  refine round_of_dyadic dyadic (Nat.lt_of_le_of_lt ?_ fits)
  rcases eq_or_ne numerator 0 with zero | nonzero
  · rw [zero, Rat.zero_divInt]
    exact Nat.le_refl 0
  · exact Nat.le_of_dvd (Int.natAbs_pos.mpr nonzero) (Int.natAbs_dvd_natAbs.mpr
      (Rat.num_dvd numerator (pow_ne_zero power two_ne_zero)))

theorem round_intCast {value : Int} (fits : value.natAbs < 2 ^ 53) : round value = value := by
  simpa using round_div_two_pow fits 0

end Significand

end Overworld
