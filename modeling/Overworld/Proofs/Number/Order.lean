import Overworld.Proofs.Number.Fractions
import Overworld.Proofs.Number.Products

set_option autoImplicit false

/-!
The order of single-precision numbers is the order of what they count, and so is the order of the
whole units below them.
-/

open Float.Model (Format UnpackedFloat)
open Float.Model.UnpackedFloat

namespace Overworld

/-- What a word without its sign counts: its bits while it is subnormal, and from there on twice as
much a step with every exponent. -/
def height (magnitude : Nat) : Nat :=
  if magnitude < 8388608 then magnitude
  else (8388608 + magnitude % 8388608) * 2 ^ (magnitude / 8388608 - 1)

theorem height_lt_height_succ (magnitude : Nat) : height magnitude < height (magnitude + 1) := by
  unfold height
  by_cases low : magnitude < 8388608
  · rw [if_pos low]
    split
    · exact Nat.lt_succ_self _
    · obtain rfl : magnitude = 8388607 := by omega
      decide
  · have power := Nat.two_pow_pos (magnitude / 8388608 - 1)
    rw [if_neg low, if_neg (by omega)]
    by_cases last : magnitude % 8388608 = 8388607
    · have field : (magnitude + 1) / 8388608 - 1 = magnitude / 8388608 - 1 + 1 := by omega
      have stored : (magnitude + 1) % 8388608 = 0 := by omega
      rw [field, stored, last, pow_succ, ← Nat.mul_assoc, Nat.mul_right_comm]
      exact Nat.mul_lt_mul_of_pos_right (by decide) power
    · have field : (magnitude + 1) / 8388608 = magnitude / 8388608 := by omega
      have stored : (magnitude + 1) % 8388608 = magnitude % 8388608 + 1 := by omega
      rw [field, stored]
      exact Nat.mul_lt_mul_of_pos_right (by omega) power

theorem height_strictMono : StrictMono height := strictMono_nat_of_lt_succ height_lt_height_succ

/-- What a rank counts. -/
def signedHeight (rank : Int) : Int :=
  if rank < 0 then -(height rank.natAbs : Int) else height rank.natAbs

theorem signedHeight_lt {a b : Int} (order : a < b) : signedHeight a < signedHeight b := by
  unfold signedHeight
  split
  · split
    · have heights := height_strictMono (by omega : b.natAbs < a.natAbs)
      omega
    · have heights := height_strictMono (by omega : 0 < a.natAbs)
      omega
  · have heights := height_strictMono (by omega : a.natAbs < b.natAbs)
    rw [if_neg (by omega)]
    omega

theorem signedHeight_le_iff {a b : Int} : signedHeight a ≤ signedHeight b ↔ a ≤ b := by
  constructor
  · intro heights
    exact Int.not_lt.mp fun above => Int.not_lt.mpr heights (signedHeight_lt above)
  · intro order
    rcases Int.lt_or_eq_of_le order with below | rfl
    · exact Int.le_of_lt (signedHeight_lt below)
    · exact Int.le_refl _

theorem units_floatOfParts (sign : Sign) {magnitude : Nat} (number : magnitude ≤ 2139095040) :
    units (floatOfParts sign (magnitude / 8388608) (magnitude % 8388608)) =
      sign.apply (height magnitude) := by
  rw [floatOfParts, height]
  by_cases greatest : magnitude / 8388608 = 255
  · obtain rfl : magnitude = 2139095040 := by omega
    have most : unbounded = (8388608 + 2139095040 % 8388608) * 2 ^ (2139095040 / 8388608 - 1) := by
      decide
    rw [if_pos greatest, if_pos (by decide), if_neg (by decide), ← most]
    rfl
  · rw [if_neg greatest]
    by_cases bottom : magnitude / 8388608 = 0
    · have stored : magnitude % 8388608 = magnitude := by omega
      rw [if_pos bottom, if_pos (by omega : magnitude < 8388608)]
      by_cases empty : magnitude % 8388608 = 0
      · obtain rfl : magnitude = 0 := by omega
        cases sign <;> rfl
      · rw [dif_neg empty, units_finite, stored]
        exact congrArg (fun count : Nat => sign.apply count) (Nat.mul_one _)
    · have bits : ((magnitude / 8388608 : Nat) - 150 + 149 : Int).toNat =
          magnitude / 8388608 - 1 := by
        omega
      rw [if_neg bottom, if_neg (by omega), units_finite, bits]

namespace Single

/-- What a number counts in units of the least one. -/
def counted (a : Single) : Int := units (unpack Format.binary32 a.bits.toBitVec)

theorem toNat_abs (a : Single) : a.abs.bits.toNat = a.bits.toNat % 2147483648 := by
  change (a.bits &&& 0x7fffffff).toNat = _
  rw [UInt32.toNat_and]
  exact Nat.and_two_pow_sub_one_eq_mod _ 31

theorem isNaN_eq_false {a : Single} :
    a.isNaN = false ↔ a.bits.toNat % 2147483648 ≤ 2139095040 := by
  rw [← toNat_abs]
  simp [isNaN, UInt32.le_iff_toNat_le]

theorem isFinite_eq_true {a : Single} :
    a.isFinite = true ↔ a.bits.toNat % 2147483648 < 2139095040 := by
  rw [← toNat_abs]
  simp [isFinite, UInt32.lt_iff_toNat_lt]

theorem le_of_not_lt {a b : Single} (first : a.isNaN = false) (second : b.isNaN = false)
    (notBelow : ¬ a < b) : b ≤ a :=
  ⟨second, first, Int.not_lt.mp fun ranks => notBelow ⟨first, second, ranks⟩⟩

theorem rank_eq (a : Single) :
    a.rank = if a.bits.toNat < 2147483648 then (a.bits.toNat : Int)
      else -((a.bits.toNat % 2147483648 : Nat) : Int) := by
  rw [← toNat_abs]
  rfl

theorem counted_eq {a : Single} (number : a.isNaN = false) :
    a.counted = if a.bits.toNat < 2147483648 then (height a.bits.toNat : Int)
      else -(height (a.bits.toNat % 2147483648) : Int) := by
  have bounded := isNaN_eq_false.mp number
  have word := a.bits.toNat_lt
  have parts := unpack_eq a.bits.toBitVec
  rw [UInt32.toNat_toBitVec] at parts
  have field : a.bits.toNat / 8388608 % 256 = a.bits.toNat % 2147483648 / 8388608 := by omega
  have stored : a.bits.toNat % 8388608 = a.bits.toNat % 2147483648 % 8388608 := by omega
  rw [counted, parts, field, stored, units_floatOfParts _ bounded]
  split
  · rw [Nat.mod_eq_of_lt (by assumption)]
    rfl
  · rfl

theorem counted_eq_signedHeight {a : Single} (number : a.isNaN = false) :
    a.counted = signedHeight a.rank := by
  have nothing : height 0 = 0 := rfl
  rw [counted_eq number, rank_eq, signedHeight]
  split
  · rw [if_neg (by omega), Int.natAbs_natCast]
  · rw [Int.natAbs_neg, Int.natAbs_natCast]
    split
    · rfl
    · have zero : a.bits.toNat % 2147483648 = 0 := by omega
      rw [zero, nothing]
      rfl

theorem le_iff_counted_le {a b : Single} (first : a.isNaN = false) (second : b.isNaN = false) :
    a ≤ b ↔ a.counted ≤ b.counted := by
  have numbers : a ≤ b ↔ a.rank ≤ b.rank :=
    ⟨fun order => order.2.2, fun ranks => ⟨first, second, ranks⟩⟩
  rw [numbers, counted_eq_signedHeight first, counted_eq_signedHeight second, signedHeight_le_iff]

theorem counted_mono {a b : Single} (order : a ≤ b) : a.counted ≤ b.counted :=
  (le_iff_counted_le order.1 order.2.1).mp order

/-- A mantissa with an exponent, in units of the least number on either side. -/
theorem quotient_units (rounding : IntRounding) (sign : Sign) (mantissa : Nat) {exponent : Int}
    (least : -149 ≤ exponent) :
    rounding.quotient (sign.apply (mantissa * 2 ^ (exponent + 149).toNat : Nat)) (2 ^ 149 : Nat) =
      rounding.quotient (BinaryValue.numerator (sign == .negative) mantissa exponent)
        (1 <<< (-exponent).toNat : Nat) := by
  have up : (exponent + 149).toNat = exponent.toNat + (149 - (-exponent).toNat) := by omega
  have down : 149 = (-exponent).toNat + (149 - (-exponent).toNat) := by omega
  have shift : (1 <<< (-exponent).toNat : Nat) = 2 ^ (-exponent).toNat := by
    rw [Nat.shiftLeft_eq, Nat.one_mul]
  have numerator : BinaryValue.numerator (sign == .negative) mantissa exponent =
      sign.apply (mantissa * 2 ^ exponent.toNat : Nat) := by
    rw [BinaryValue.numerator, Nat.shiftLeft_eq]
    cases sign <;> rfl
  rw [numerator, shift, up, pow_add, ← Nat.mul_assoc, Nat.cast_mul (_ * _), ← apply_mul]
  nth_rewrite 2 [down]
  rw [pow_add]
  exact rounding.quotient_mul_mul _ _ (Nat.two_pow_pos _)

/-- A single-precision pattern by its parts. -/
theorem decode_single (bits : Nat) :
    BinaryFormat.single.decode bits =
      let negative := bits.testBit 31
      let field := bits / 8388608 % 256
      let stored := bits % 8388608
      if field = 255 then if stored = 0 then .infinite negative else .nan
      else if field = 0 then .finite negative stored (-149)
      else .finite negative (8388608 + stored) (field - 150) := by
  have high : bits >>> 23 = bits / 8388608 := Nat.shiftRight_eq_div_pow bits 23
  unfold BinaryFormat.decode
  dsimp only [BinaryFormat.single]
  rw [high]
  change (if bits / 8388608 % 256 = 255 then
    if bits % 8388608 = 0 then BinaryValue.infinite _ else BinaryValue.nan
    else if bits / 8388608 % 256 = 0 then BinaryValue.finite _ (bits % 8388608) (-149)
    else BinaryValue.finite _ (bits % 8388608 + 8388608)
      (-149 + (bits / 8388608 % 256 : Nat) - 1)) = _
  have mantissa := Nat.add_comm (bits % 8388608) 8388608
  have exponent : (-149 + (bits / 8388608 % 256 : Nat) - 1 : Int) =
      (bits / 8388608 % 256 : Nat) - 150 := by
    omega
  rw [mantissa, exponent]

/-- Whole units of what a number counts, cut to ends that infinity reaches. -/
theorem toIntClamped_eq (a : Single) (rounding : IntRounding) {low high : Int} (below : low ≤ 0)
    (above : 0 ≤ high) (lowest : rounding.quotient (-unbounded) (2 ^ 149 : Nat) ≤ low)
    (highest : high ≤ rounding.quotient unbounded (2 ^ 149 : Nat)) :
    a.value.toIntClamped rounding low high =
      clampInt low high (rounding.quotient a.counted (2 ^ 149 : Nat)) := by
  have parts := unpack_eq a.bits.toBitVec
  rw [UInt32.toNat_toBitVec] at parts
  have bounded := a.bits.toNat_lt
  have negative : a.bits.toNat.testBit 31 =
      ((if a.bits.toNat < 2147483648 then Sign.positive else Sign.negative) == .negative) := by
    rw [Nat.testBit_eq_decide_div_mod_eq]
    split
    · exact decide_eq_false (by omega)
    · exact decide_eq_true (by omega)
  have nothing : 0 = clampInt low high (rounding.quotient 0 (2 ^ 149 : Nat)) := by
    rw [rounding.quotient_zero]
    unfold clampInt
    omega
  rw [value, decode_single, counted, parts, negative]
  generalize (if a.bits.toNat < 2147483648 then Sign.positive else Sign.negative) = sign
  rw [floatOfParts]
  dsimp only
  by_cases top : a.bits.toNat / 8388608 % 256 = 255
  · rw [if_pos top, if_pos top]
    by_cases empty : a.bits.toNat % 8388608 = 0
    · rw [if_pos empty, if_pos empty]
      cases sign with
      | negative =>
          change low = clampInt low high (rounding.quotient (-unbounded) _)
          unfold clampInt
          omega
      | positive =>
          change high = clampInt low high (rounding.quotient unbounded _)
          unfold clampInt
          omega
    · rw [if_neg empty, if_neg empty]
      exact nothing
  · rw [if_neg top, if_neg top]
    by_cases bottom : a.bits.toNat / 8388608 % 256 = 0
    · rw [if_pos bottom, if_pos bottom]
      by_cases empty : a.bits.toNat % 8388608 = 0
      · have none : BinaryValue.numerator (sign == .negative) 0 (-149) = 0 := by cases sign <;> rfl
        rw [dif_pos empty, empty, BinaryValue.toIntClamped, none, rounding.quotient_zero,
          ← rounding.quotient_zero (2 ^ 149 : Nat)]
        rfl
      · rw [dif_neg empty, units_finite, quotient_units _ _ _ (by decide)]
        rfl
    · rw [if_neg bottom, if_neg bottom, units_finite, quotient_units _ _ _ (by omega)]
      rfl

theorem floorInt32_eq (a : Single) :
    a.floorInt32 = clampInt (-2147483648) 2147483647 (a.counted.fdiv (2 ^ 149 : Nat)) :=
  a.toIntClamped_eq .floor (by decide) (by decide) (by decide) (by decide)

theorem ceilUInt32_eq (a : Single) :
    a.ceilUInt32 = (clampInt 0 4294967295 (-(-a.counted).fdiv (2 ^ 149 : Nat))).toNat :=
  congrArg Int.toNat (a.toIntClamped_eq .ceil (by decide) (by decide) (by decide) (by decide))

theorem truncateUInt64_eq (a : Single) :
    a.truncateUInt64 =
      (clampInt 0 18446744073709551615 (a.counted.tdiv (2 ^ 149 : Nat))).toNat :=
  congrArg Int.toNat (a.toIntClamped_eq .truncate (by decide) (by decide) (by decide) (by decide))

theorem unpack_mul (a b : Single) :
    unpack Format.binary32 (a * b).bits.toBitVec =
      unpack Format.binary32 (pack Format.binary32 (mul Format.binary32
        (unpack Format.binary32 a.bits.toBitVec) (unpack Format.binary32 b.bits.toBitVec))) := by
  change unpack _ (pack _
    (mul _ (unpack _ (pack _ (unpack _ _))) (unpack _ (pack _ (unpack _ _))))) = _
  rw [unpack_pack (isStored_unpack _), unpack_pack (isStored_unpack _)]

theorem unpack_div (a b : Single) :
    unpack Format.binary32 (a / b).bits.toBitVec =
      unpack Format.binary32 (pack Format.binary32 (div Format.binary32
        (unpack Format.binary32 a.bits.toBitVec) (unpack Format.binary32 b.bits.toBitVec))) := by
  change unpack _ (pack _
    (div _ (unpack _ (pack _ (unpack _ _))) (unpack _ (pack _ (unpack _ _))))) = _
  rw [unpack_pack (isStored_unpack _), unpack_pack (isStored_unpack _)]

theorem isNonnegative_floatOf (mantissa : Nat) (exponent : Int) :
    IsNonnegative (floatOf .positive mantissa exponent) := by
  by_cases empty : mantissa = 0
  · rw [floatOf, dif_pos empty]
    trivial
  · rw [floatOf, dif_neg empty]
    rfl

/-- The inverse of a positive finite number is not negative. -/
theorem isNonnegative_one_div {a : Single} (finite : a.isFinite = true) (positive : zero < a) :
    IsNonnegative (unpack Format.binary32 (one / a).bits.toBitVec) := by
  have below := isFinite_eq_true.mp finite
  have above : a.bits.toNat < 2147483648 ∧ 0 < a.bits.toNat := by
    obtain ⟨-, -, ranks⟩ := positive
    rw [rank_eq a] at ranks
    change (0 : Int) < _ at ranks
    split at ranks <;> omega
  have parts := unpack_eq a.bits.toBitVec
  rw [UInt32.toNat_toBitVec, if_pos above.1] at parts
  have unit : unpack Format.binary32 one.bits.toBitVec =
      .finite .positive 8388608 (-23) (by decide) := by
    rw [unpack_eq]
    rfl
  have rounded : ∀ mantissa exponent accuracy,
      IsNonnegative (roundWithAccuracy Format.binary32 .positive mantissa exponent accuracy) :=
    fun _ _ _ => isNonnegative_floatOf _ _
  rw [unpack_div, unit, parts]
  apply IsNonnegative.unpack_pack
  rw [floatOfParts, if_neg (by omega)]
  by_cases bottom : a.bits.toNat / 8388608 % 256 = 0
  · rw [if_pos bottom, dif_neg (by omega)]
    exact rounded _ _ _
  · rw [if_neg bottom]
    exact rounded _ _ _

/-- To scale by a factor that is not negative keeps the order of the whole units below. -/
theorem floorInt32_mul_mono {a b factor : Single} (order : a ≤ b)
    (nonnegative : IsNonnegative (unpack Format.binary32 factor.bits.toBitVec)) :
    (a * factor).floorInt32 ≤ (b * factor).floorInt32 := by
  have products : (a * factor).counted ≤ (b * factor).counted := by
    unfold counted
    rw [unpack_mul, unpack_mul]
    exact units_mul_mono (isStored_unpack _) (isStored_unpack _) (isStored_unpack _) nonnegative
      (counted_mono order)
  rw [floorInt32_eq, floorInt32_eq]
  have whole : (a * factor).counted.fdiv (2 ^ 149 : Nat) ≤
      (b * factor).counted.fdiv (2 ^ 149 : Nat) := by
    rw [Int.fdiv_eq_ediv_of_nonneg _ (Int.natCast_nonneg _),
      Int.fdiv_eq_ediv_of_nonneg _ (Int.natCast_nonneg _)]
    exact Int.ediv_le_ediv (Int.natCast_pos.mpr (Nat.two_pow_pos _)) products
  unfold clampInt
  omega

end Single

end Overworld
