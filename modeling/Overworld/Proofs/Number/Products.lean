import Overworld.Proofs.Number.Rounding

set_option autoImplicit false

/-!
What products of floats count. A product with a factor that is not negative keeps order.
-/

open Float.Model (Format UnpackedFloat)
open Float.Model.UnpackedFloat

namespace Overworld

theorem units_lt {sign : Sign} {mantissa : Nat} {exponent : Int} {positive : 0 < mantissa}
    (stored : IsStored (.finite sign mantissa exponent positive)) :
    mantissa * 2 ^ (exponent + 149).toNat < unbounded := by
  obtain ⟨⟨high, least, -⟩, most⟩ := stored
  exact Nat.mul_lt_mul_of_lt_of_le high (Nat.pow_le_pow_right (by decide) (by omega))
    (Nat.two_pow_pos _)

theorem units_ge {sign : Sign} {mantissa : Nat} {exponent : Int} {positive : 0 < mantissa}
    (canonical : IsCanonical (.finite sign mantissa exponent positive)) (large : 104 < exponent) :
    unbounded ≤ mantissa * 2 ^ (exponent + 149).toNat := by
  obtain ⟨-, -, normal⟩ := canonical
  calc unbounded = 8388608 * 2 ^ 254 := by decide
    _ ≤ mantissa * 2 ^ (exponent + 149).toNat :=
        Nat.mul_le_mul (by omega) (Nat.pow_le_pow_right (by decide) (by omega))

theorem units_finite (sign : Sign) (mantissa : Nat) (exponent : Int) (positive : 0 < mantissa) :
    units (.finite sign mantissa exponent positive) =
      sign.apply (mantissa * 2 ^ (exponent + 149).toNat : Nat) := by
  rw [Nat.cast_mul, Nat.cast_pow]
  rfl

/-- Packing cuts what is beyond the greatest float to infinity. -/
theorem units_unpack_pack {u : UnpackedFloat} (canonical : IsCanonical u) :
    units (unpack Format.binary32 (pack Format.binary32 u)) =
      clampInt (-unbounded) unbounded (units u) := by
  have inside : ∀ sign : Sign, ∀ count : Nat, count ≤ unbounded →
      sign.apply count = clampInt (-unbounded) unbounded (sign.apply count) := by
    intro sign count bounded
    cases sign <;> simp only [Sign.apply, clampInt] <;> omega
  by_cases stored : IsStored u
  · rw [unpack_pack stored]
    cases u with
    | infinity sign => exact inside sign unbounded (Nat.le_refl _)
    | notANumber => exact inside .positive 0 (Nat.zero_le _)
    | zero sign => exact inside .positive 0 (Nat.zero_le _)
    | finite sign mantissa exponent positive =>
        rw [units_finite]
        exact inside sign _ (Nat.le_of_lt (units_lt stored))
  · cases u with
    | finite sign mantissa exponent positive =>
        have large : 104 < exponent := Int.not_le.mp fun most => stored ⟨canonical, most⟩
        have beyond := units_ge canonical large
        rw [unpack_pack_of_large sign positive large, units_finite]
        change sign.apply unbounded = _
        cases sign <;> simp only [Sign.apply, clampInt] <;> omega
    | _ => exact absurd trivial stored

theorem enough_of_product {sign other : Sign} {m₁ m₂ : Nat} {e₁ e₂ : Int} {positive : 0 < m₁}
    {alsoPositive : 0 < m₂} (first : IsCanonical (.finite sign m₁ e₁ positive))
    (second : IsCanonical (.finite other m₂ e₂ alsoPositive)) :
    -298 ≤ e₁ + e₂ ∧ (e₁ + e₂ ≤ -149 ∨ 8388608 ≤ m₁ * m₂) := by
  obtain ⟨-, least₁, normal₁⟩ := first
  obtain ⟨-, least₂, normal₂⟩ := second
  refine ⟨by omega, ?_⟩
  by_cases low : e₁ + e₂ ≤ -149
  · exact Or.inl low
  · right
    obtain full | lowest := normal₁
    · exact Nat.le_trans full (Nat.le_mul_of_pos_right _ alsoPositive)
    · have full : 8388608 ≤ m₂ := by omega
      exact Nat.le_trans full (Nat.le_mul_of_pos_left _ positive)

/-- What a product with a finite positive factor counts. -/
def scaled (factor value : Int) : Int :=
  if value ≤ -unbounded then -unbounded
  else if unbounded ≤ value then unbounded
  else clampInt (-unbounded) unbounded (roundInt (value * factor))

theorem unbounded_pos : (0 : Int) < unbounded := by decide

theorem scaled_mono {factor : Int} (nonnegative : 0 ≤ factor) {a b : Int} (order : a ≤ b) :
    scaled factor a ≤ scaled factor b := by
  have rounded := roundInt_mono (Int.mul_le_mul_of_nonneg_right order nonnegative)
  unfold scaled clampInt
  split <;> split <;> (try split) <;> (try split) <;> omega

theorem scaled_unbounded (factor : Int) (sign : Sign) :
    scaled factor (sign.apply unbounded) = sign.apply unbounded := by
  have some := unbounded_pos
  unfold scaled
  cases sign with
  | negative => exact if_pos (Int.le_refl _)
  | positive =>
      change (if (unbounded : Int) ≤ -unbounded then _
        else if (unbounded : Int) ≤ unbounded then _ else _) = _
      rw [if_neg (by omega), if_pos (Int.le_refl _)]
      rfl

theorem scaled_of_lt (factor : Int) (sign : Sign) {count : Nat} (finite : count < unbounded) :
    scaled factor (sign.apply count) =
      clampInt (-unbounded) unbounded (roundInt (sign.apply count * factor)) := by
  unfold scaled
  rw [if_neg (by cases sign <;> simp only [Sign.apply] <;> omega),
    if_neg (by cases sign <;> simp only [Sign.apply] <;> omega)]

theorem scaled_zero (factor : Int) : scaled factor 0 = 0 := by
  have some := unbounded_pos
  have below : 0 < unbounded := by omega
  have nothing := scaled_of_lt factor .positive below
  have rounded := roundInt_apply .positive 0
  change scaled factor 0 = clampInt _ _ (roundInt (0 * factor)) at nothing
  change roundInt 0 = roundUnits 0 at rounded
  rw [nothing, Int.zero_mul, rounded, roundUnits_zero, clampInt]
  omega

theorem apply_mul (sign : Sign) (a b : Int) : sign.apply a * b = sign.apply (a * b) := by
  cases sign
  · exact Int.neg_mul a b
  · rfl

theorem units_mul_finite {u : UnpackedFloat} (stored : IsStored u) {mantissa : Nat} {exponent : Int}
    {positive : 0 < mantissa} (factor : IsStored (.finite .positive mantissa exponent positive)) :
    units (unpack Format.binary32 (pack Format.binary32
        (mul Format.binary32 u (.finite .positive mantissa exponent positive)))) =
      scaled (mantissa * 2 ^ (exponent + 149).toNat : Nat) (units u) := by
  have times : ∀ sign : Sign, sign * .positive = sign := by
    intro sign
    cases sign <;> rfl
  cases u with
  | infinity sign =>
      change units (unpack _ (pack _ (.infinity (sign * .positive)))) = _
      rw [times, unpack_pack (by trivial)]
      exact (scaled_unbounded _ sign).symm
  | notANumber =>
      change units (unpack _ (pack _ .notANumber)) = _
      rw [unpack_pack (by trivial)]
      exact (scaled_zero _).symm
  | zero sign =>
      change units (unpack _ (pack _ (.zero (sign * .positive)))) = _
      rw [unpack_pack (by trivial)]
      exact (scaled_zero _).symm
  | finite sign m e pos =>
      obtain ⟨least, enough⟩ := enough_of_product stored.1 factor.1
      obtain ⟨canonical, counted⟩ :=
        roundWithAccuracy_exact sign (Nat.mul_pos pos positive) least enough
      have bits : (e + exponent + 298).toNat = (e + 149).toNat + (exponent + 149).toNat := by
        obtain ⟨⟨-, lowest, -⟩, -⟩ := stored
        obtain ⟨⟨-, factorLowest, -⟩, -⟩ := factor
        omega
      have product : m * mantissa * 2 ^ (e + exponent + 298).toNat =
          m * 2 ^ (e + 149).toNat * (mantissa * 2 ^ (exponent + 149).toNat) := by
        rw [bits]
        ring
      change units (unpack _ (pack _
        (roundWithAccuracy _ (sign * .positive) (m * mantissa) (e + exponent) _))) = _
      rw [times, units_unpack_pack canonical, counted, product, units_finite,
        scaled_of_lt _ sign (units_lt stored), apply_mul, ← Nat.cast_mul, roundInt_apply]

/-- What a product with infinity counts; what is no number, as nothing. -/
theorem units_mul_infinity (u : UnpackedFloat) :
    units (unpack Format.binary32
        (pack Format.binary32 (mul Format.binary32 u (.infinity .positive)))) =
      if units u < 0 then -(unbounded : Int) else if 0 < units u then unbounded else 0 := by
  have some : (0 : Int) < unbounded := by decide
  have kept : IsStored (mul Format.binary32 u (.infinity .positive)) := by
    cases u <;> trivial
  rw [unpack_pack kept]
  have signed : ∀ sign : Sign, ∀ count : Nat, 0 < count →
      units (.infinity (sign * .positive)) =
        if sign.apply count < 0 then -(unbounded : Int)
        else if 0 < sign.apply count then unbounded else 0 := by
    intro sign count positive
    cases sign with
    | negative => exact (if_pos (by simp only [Sign.apply]; omega)).symm
    | positive =>
        rw [if_neg (by simp only [Sign.apply]; omega), if_pos (by simp only [Sign.apply]; omega)]
        rfl
  cases u with
  | infinity sign => exact signed sign unbounded (by omega)
  | notANumber => rfl
  | zero sign => rfl
  | finite sign m e pos =>
      rw [units_finite]
      exact signed sign _ (Nat.mul_pos pos (Nat.two_pow_pos _))

theorem units_mul_zero (u : UnpackedFloat) (sign : Sign) :
    units (unpack Format.binary32
      (pack Format.binary32 (mul Format.binary32 u (.zero sign)))) = 0 := by
  have kept : IsStored (mul Format.binary32 u (.zero sign)) := by
    cases u <;> trivial
  rw [unpack_pack kept]
  cases u <;> rfl

/-- A product with a factor that is not negative keeps order. -/
theorem units_mul_mono {u v w : UnpackedFloat} (first : IsStored u) (second : IsStored v)
    (factor : IsStored w) (nonnegative : IsNonnegative w) (order : units u ≤ units v) :
    units (unpack Format.binary32 (pack Format.binary32 (mul Format.binary32 u w))) ≤
      units (unpack Format.binary32 (pack Format.binary32 (mul Format.binary32 v w))) := by
  have some : (0 : Int) < unbounded := by decide
  cases w with
  | notANumber => exact nonnegative.elim
  | zero sign => rw [units_mul_zero, units_mul_zero]
  | infinity sign =>
      cases nonnegative
      rw [units_mul_infinity, units_mul_infinity]
      split <;> (try split) <;> (try split) <;> (try split) <;> omega
  | finite sign mantissa exponent positive =>
      cases nonnegative
      rw [units_mul_finite first factor, units_mul_finite second factor]
      exact scaled_mono (Int.natCast_nonneg _) order

end Overworld
