import Mathlib.Algebra.Order.Ring.Int
import Overworld.Number.Binary

set_option autoImplicit false

/-!
Fractions rounded to integers, in each of the directions that there are.
-/

namespace Overworld

namespace IntRounding

theorem quotient_mul_mul (rounding : IntRounding) (numerator : Int) (denominator : Nat)
    {factor : Nat} (some : 0 < factor) :
    rounding.quotient (numerator * factor) (denominator * factor : Nat) =
      rounding.quotient numerator denominator := by
  have positive : (0 : Int) < factor := Int.natCast_pos.mpr some
  unfold quotient
  cases rounding with
  | floor =>
      simp only [Nat.cast_mul]
      exact Int.mul_fdiv_mul_of_pos_left numerator denominator positive
  | ceil =>
      simp only [Nat.cast_mul, ← Int.neg_mul]
      exact congrArg Neg.neg (Int.mul_fdiv_mul_of_pos_left (-numerator) denominator positive)
  | truncate =>
      simp only [Nat.cast_mul]
      exact Int.mul_tdiv_mul_of_pos_left numerator denominator positive
  | nearestAway =>
      have sign : numerator * factor < 0 ↔ numerator < 0 :=
        ⟨fun negative => Int.neg_of_mul_neg_left negative positive,
          fun negative => Int.mul_neg_of_neg_of_pos negative positive⟩
      have size : (2 * (numerator * factor).natAbs + denominator * factor) /
          (2 * (denominator * factor)) = (2 * numerator.natAbs + denominator) / (2 * denominator) := by
        rw [Int.natAbs_mul, Int.natAbs_natCast, ← Nat.mul_assoc, ← Nat.mul_assoc, ← Nat.add_mul]
        exact Nat.mul_div_mul_right _ _ some
      simp only [sign, size]

/-- What a fraction rounds to depends on its value alone. -/
theorem quotient_congr (rounding : IntRounding) {first second : Int} {below beneath : Nat}
    (positive : 0 < below) (strict : 0 < beneath) (same : first * beneath = second * below) :
    rounding.quotient first below = rounding.quotient second beneath :=
  calc rounding.quotient first below
      = rounding.quotient (first * beneath) (below * beneath : Nat) :=
        (rounding.quotient_mul_mul first below strict).symm
    _ = rounding.quotient (second * below) (beneath * below : Nat) := by
        rw [same, Nat.mul_comm below]
    _ = rounding.quotient second beneath := rounding.quotient_mul_mul second beneath positive

theorem quotient_zero (rounding : IntRounding) (denominator : Nat) :
    rounding.quotient 0 denominator = 0 := by
  cases rounding with
  | nearestAway =>
      have none : denominator / (2 * denominator) = 0 := by
        rw [Nat.div_eq_zero_iff]
        omega
      simp [quotient, none]
  | _ => simp [quotient]

end IntRounding

end Overworld
