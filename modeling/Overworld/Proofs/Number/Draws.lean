import Overworld.Number.Draw
import Overworld.Proofs.Number.Whole

set_option autoImplicit false

/-!
Draws from a range around zero whose ends are powers of two: nothing is lost to a rounding, and what
is drawn is a finite number.
-/

namespace Overworld

namespace Generator

/-- The high bits of a word as a fraction. -/
theorem counts_fraction (word : UInt32) :
    (fraction word).Counts ((word.toNat / 512 : Nat) * 2 ^ 126) := by
  have small : word.toNat / 512 < 2 ^ 23 := by
    have := word.toNat_lt
    omega
  have bits : (word >>> 9 ||| 0x3f800000).toNat = 1065353216 + word.toNat / 512 := by
    rw [UInt32.or_comm, UInt32.toNat_or, UInt32.toNat_shiftRight, Nat.shiftRight_eq_div_pow]
    exact (Nat.shiftLeft_add_eq_or_of_lt small 127).symm
  have number : (⟨word >>> 9 ||| 0x3f800000⟩ : Single).Counts
      ((8388608 + (word.toNat / 512 : Nat)) * 2 ^ 126) := by
    have finite : (⟨word >>> 9 ||| 0x3f800000⟩ : Single).isFinite = true := by
      rw [Single.isFinite_eq_true, bits]
      omega
    refine ⟨finite, ?_⟩
    rw [Single.counted_eq (Single.isNaN_of_isFinite finite), bits, if_pos (by omega), height,
      if_neg (by omega)]
    have field : (1065353216 + word.toNat / 512) / 8388608 - 1 = 126 := by omega
    have stored : (1065353216 + word.toNat / 512) % 8388608 = word.toNat / 512 := by omega
    rw [field, stored]
    rfl
  have unit : Single.one.Counts (8388608 * 2 ^ 126) := ⟨by decide, by decide⟩
  have difference := number.sub_whole unit (by omega) (by decide)
  rw [add_sub_cancel_left] at difference
  exact difference

theorem isFinite_between {spread : Single} {scale : Nat} (low : 23 ≤ scale) (high : scale ≤ 253)
    (counts : spread.Counts (2 ^ scale)) (generator : Generator) (tries : Nat) :
    ((generator.between (-spread) spread tries).1).isFinite = true := by
  have units : (2 : Int) ^ scale = 8388608 * 2 ^ (scale - 23) := by
    rw [show (8388608 : Int) = 2 ^ 23 from rfl, ← pow_add]
    congr 1
    omega
  have lower : (-spread).Counts (-8388608 * 2 ^ (scale - 23)) := by
    rw [Int.neg_mul, ← units]
    exact counts.neg
  have width : (spread - -spread).Counts (2 * 2 ^ scale) := by
    have upper : spread.Counts (1 * 2 ^ scale) := (Int.one_mul _).symm ▸ counts
    have whole : (-spread).Counts (-1 * 2 ^ scale) := by
      rw [Int.neg_one_mul]
      exact counts.neg
    exact upper.sub_whole whole (by decide) high
  induction tries generalizing generator with
  | zero => exact lower.finite
  | succ tries ih =>
      unfold between
      dsimp only
      split
      · have inside := generator.word.1.toNat_lt
        have scaled := (counts_fraction generator.word.1).mul_whole width (by omega) (by omega)
          (by omega)
        rw [show 126 + scale - 149 = scale - 23 by omega] at scaled
        exact (scaled.add_whole lower (by omega) (by omega)).finite
      · exact ih _

end Generator

end Overworld
