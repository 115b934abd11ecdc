import Overworld.Plane.Vec3
import Overworld.Proofs.Number.Whole

set_option autoImplicit false

/-!
Lengths in the plane. Between finite points a distance is a number, if not always a finite one: what
it is the root of is a sum of squares, and so never negative.
-/

open Float.Model (Format UnpackedFloat)
open Float.Model.UnpackedFloat

namespace Overworld

/-- Anything but what is no number. -/
def IsNumber : UnpackedFloat → Prop
  | .notANumber => False
  | _ => True

theorem IsNonnegative.isNumber {u : UnpackedFloat} (nonnegative : IsNonnegative u) : IsNumber u := by
  cases u with
  | notANumber => exact nonnegative.elim
  | _ => trivial

theorem isNumber_unpack_pack {u : UnpackedFloat} (canonical : IsCanonical u) (finite : IsFinite u) :
    IsNumber (unpack Format.binary32 (pack Format.binary32 u)) := by
  cases u with
  | infinity => exact finite.elim
  | notANumber => exact finite.elim
  | zero sign =>
      rw [unpack_pack (by trivial)]
      trivial
  | finite sign mantissa exponent positive =>
      by_cases fits : exponent ≤ 104
      · rw [unpack_pack_finite sign positive canonical fits]
        trivial
      · rw [unpack_pack_of_large sign positive (Int.not_le.mp fits)]
        trivial

theorem isNonnegative_normalize {value : Int} (nonnegative : 0 ≤ value) (exponent : Int) :
    IsNonnegative (normalize Format.binary32 value exponent .positive) := by
  unfold UnpackedFloat.normalize
  obtain rfl | positive := (Int.le_iff_eq_or_lt.mp nonnegative)
  · trivial
  · rw [Int.compare_eq_gt.mpr positive]
    exact Single.isNonnegative_floatOf _ _

theorem isNonnegative_mul_self {u : UnpackedFloat} (number : IsNumber u) :
    IsNonnegative (mul Format.binary32 u u) := by
  cases u with
  | notANumber => exact number.elim
  | infinity sign => cases sign <;> rfl
  | zero => trivial
  | finite sign mantissa exponent positive => cases sign <;> exact Single.isNonnegative_floatOf _ _

theorem IsNonnegative.add {u v : UnpackedFloat} (first : IsNonnegative u)
    (second : IsNonnegative v) : IsNonnegative (add Format.binary32 u v) := by
  cases u with
  | notANumber => exact first.elim
  | infinity sign =>
      cases first
      cases v with
      | notANumber => exact second.elim
      | infinity other =>
          cases second
          rfl
      | _ => rfl
  | zero sign =>
      cases v with
      | notANumber => exact second.elim
      | infinity other => exact second
      | zero other => cases sign <;> cases other <;> trivial
      | finite => exact second
  | finite sign mantissa exponent positive =>
      cases first
      cases v with
      | notANumber => exact second.elim
      | infinity other =>
          cases second
          rfl
      | zero other => rfl
      | finite other m e pos =>
          cases second
          exact isNonnegative_normalize (Int.add_nonneg (Int.natCast_nonneg _)
            (Int.natCast_nonneg _)) _

theorem sub_self_of_isFinite {u : UnpackedFloat} (finite : IsFinite u) :
    sub Format.binary32 u u = .zero .positive := by
  cases u with
  | infinity => exact finite.elim
  | notANumber => exact finite.elim
  | zero sign => cases sign <;> rfl
  | finite sign mantissa exponent positive =>
      change normalize _ (_ - _) _ _ = _
      rw [Int.sub_self]
      rfl

theorem IsNonnegative.sqrt {u : UnpackedFloat} (nonnegative : IsNonnegative u) :
    IsNonnegative (sqrt Format.binary32 u) := by
  cases u with
  | notANumber => exact nonnegative.elim
  | infinity sign =>
      cases nonnegative
      rfl
  | zero => trivial
  | finite sign mantissa exponent positive =>
      cases nonnegative
      exact Single.isNonnegative_floatOf _ _

namespace Single

variable {a b : Single}

theorem isNaN_of_isNumber (number : IsNumber (unpack Format.binary32 a.bits.toBitVec)) :
    a.isNaN = false := by
  have parts := unpack_eq a.bits.toBitVec
  rw [UInt32.toNat_toBitVec] at parts
  rw [isNaN_eq_false]
  refine Nat.not_lt.mp fun beyond => ?_
  rw [parts, floatOfParts, if_pos (by omega), if_neg (by omega)] at number
  exact number

theorem isNumber_sub (first : a.isFinite = true) (second : b.isFinite = true) :
    IsNumber (unpack Format.binary32 (a - b).bits.toBitVec) := by
  have rounds := Rounds.sub (isStored_unpack _) (isStored_unpack _) (isFinite_iff.mp first)
    (isFinite_iff.mp second)
  rw [unpack_sub]
  exact isNumber_unpack_pack rounds.canonical rounds.finite

theorem sub_self (finite : a.isFinite = true) : a - a = zero := by
  have stored := unpack_pack (isStored_unpack a.bits.toBitVec)
  have difference : (a - a).bits.toBitVec = pack Format.binary32 (sub Format.binary32
      (unpack Format.binary32 (pack Format.binary32 (unpack Format.binary32 a.bits.toBitVec)))
      (unpack Format.binary32 (pack Format.binary32 (unpack Format.binary32 a.bits.toBitVec)))) :=
    rfl
  rw [stored, sub_self_of_isFinite (isFinite_iff.mp finite)] at difference
  exact congrArg Single.mk (UInt32.toBitVec_inj.mp difference)

theorem unpack_sqrt (a : Single) :
    unpack Format.binary32 a.sqrt.bits.toBitVec =
      unpack Format.binary32 (pack Format.binary32 (UnpackedFloat.sqrt Format.binary32
        (unpack Format.binary32 a.bits.toBitVec))) := by
  change unpack _ (pack _ (UnpackedFloat.sqrt _ (unpack _ (pack _ (unpack _ _))))) = _
  rw [unpack_pack (isStored_unpack _)]

end Single

namespace Vec3

variable {a b : Vec3}

theorem isFinite_coordinates (finite : a.isFinite = true) :
    a.x.isFinite = true ∧ a.y.isFinite = true :=
  Bool.and_eq_true_iff.mp (Bool.and_eq_true_iff.mp finite).1

/-- The distance of two finite points is a number. -/
theorem isNaN_planarDistance (first : a.isFinite = true) (second : b.isFinite = true) :
    (a.planarDistance b).isNaN = false := by
  obtain ⟨x₁, y₁⟩ := isFinite_coordinates first
  obtain ⟨x₂, y₂⟩ := isFinite_coordinates second
  have square : ∀ {s : Single}, IsNumber (unpack Format.binary32 s.bits.toBitVec) →
      IsNonnegative (unpack Format.binary32 (s * s).bits.toBitVec) := by
    intro s number
    rw [Single.unpack_mul]
    exact (isNonnegative_mul_self number).unpack_pack
  have sum : IsNonnegative (unpack Format.binary32
      ((a - b).planarLengthSquared).bits.toBitVec) := by
    unfold Vec3.planarLengthSquared
    rw [Single.unpack_add]
    exact ((square (Single.isNumber_sub x₁ x₂)).add (square (Single.isNumber_sub y₁ y₂))).unpack_pack
  apply Single.isNaN_of_isNumber
  unfold Vec3.planarDistance Vec3.planarLength
  rw [Single.unpack_sqrt]
  exact sum.sqrt.unpack_pack.isNumber

theorem planarDistance_self (finite : a.isFinite = true) : a.planarDistance a = .zero := by
  obtain ⟨x, y⟩ := isFinite_coordinates finite
  have differences : (a - a).x = .zero ∧ (a - a).y = .zero :=
    ⟨Single.sub_self x, Single.sub_self y⟩
  unfold planarDistance planarLength planarLengthSquared
  rw [differences.1, differences.2]
  decide

end Vec3

end Overworld
