import Mathlib.Algebra.Order.Ring.Nat
import Mathlib.Algebra.Order.Ring.Int
import Overworld.Number.Single

set_option autoImplicit false

/-!
Words of 32 bits as floats: what a word stands for by its parts, and that a float in the shape that
words give it survives being packed into one.
-/

open Float.Model (Format UnpackedFloat)
open Float.Model.UnpackedFloat

namespace Overworld

theorem finite_congr (sign : Sign) {mantissa other : Nat} {exponent another : Int}
    (positive : 0 < mantissa) (alsoPositive : 0 < other) (sameMantissa : mantissa = other)
    (sameExponent : exponent = another) :
    UnpackedFloat.finite sign mantissa exponent positive =
      .finite sign other another alsoPositive := by
  subst sameMantissa sameExponent
  rfl

/-- The float with an exponent field and stored bits of its mantissa. -/
def floatOfParts (sign : Sign) (field stored : Nat) : UnpackedFloat :=
  if field = 255 then if stored = 0 then .infinity sign else .notANumber
  else if field = 0 then
    if empty : stored = 0 then .zero sign
    else .finite sign stored (-149) (Nat.pos_of_ne_zero empty)
  else .finite sign (8388608 + stored) (field - 150) (by omega)

theorem unpack_eq_floatOfParts (word : BitVec 32) :
    unpack Format.binary32 word =
      floatOfParts (Sign.ofBitVec (@unpackSign Format.binary32 word))
        (@unpackExponent Format.binary32 word).toNat
        (@unpackMantissa Format.binary32 word).toNat := by
  have allOnes (field : BitVec 8) : field = -1#8 ↔ field.toNat = 255 := by
    rw [← BitVec.toNat_inj]
    exact Iff.rfl
  have noBits (field : BitVec 8) : field = 0#8 ↔ field.toNat = 0 := by
    rw [← BitVec.toNat_inj]
    exact Iff.rfl
  have noStored (stored : BitVec 23) : stored = 0#23 ↔ stored.toNat = 0 := by
    rw [← BitVec.toNat_inj]
    exact Iff.rfl
  have normal (stored : BitVec 23) : (1#1 ++ stored).toNat = 8388608 + stored.toNat := by
    rw [BitVec.toNat_append, ← Nat.shiftLeft_add_eq_or_of_lt stored.isLt]
    rfl
  unfold unpack floatOfParts
  dsimp only
  by_cases top : @unpackExponent Format.binary32 word = -1#8
  · rw [if_pos top, if_pos ((allOnes _).mp top)]
    by_cases empty : @unpackMantissa Format.binary32 word = 0#23
    · rw [if_pos empty, if_pos ((noStored _).mp empty)]
    · rw [if_neg empty, if_neg (mt (noStored _).mpr empty)]
  · rw [if_neg top, if_neg (mt (allOnes _).mpr top)]
    by_cases bottom : @unpackExponent Format.binary32 word = 0#8
    · rw [if_pos bottom, if_pos ((noBits _).mp bottom)]
      by_cases empty : @unpackMantissa Format.binary32 word = 0#23
      · rw [dif_pos empty, dif_pos ((noStored _).mp empty)]
      · rw [dif_neg empty, dif_neg (mt (noStored _).mpr empty)]
        refine finite_congr _ _ _ rfl ?_
        rw [bottom]
        rfl
    · rw [if_neg bottom, if_neg (mt (noBits _).mpr bottom)]
      exact finite_congr _ _ _ (normal _) rfl

/-- The parts of a word as numbers. -/
theorem unpack_eq (word : BitVec 32) :
    unpack Format.binary32 word =
      floatOfParts (if word.toNat < 2147483648 then .positive else .negative)
        (word.toNat / 8388608 % 256) (word.toNat % 8388608) := by
  have mantissa : (@unpackMantissa Format.binary32 word).toNat = word.toNat % 8388608 := by
    simp [unpackMantissa]
  have field : (@unpackExponent Format.binary32 word).toNat =
      word.toNat / 8388608 % 256 := by
    simp [unpackExponent, Nat.shiftRight_eq_div_pow]
  have sign : Sign.ofBitVec (@unpackSign Format.binary32 word) =
      if word.toNat < 2147483648 then .positive else .negative := by
    have bit : (@unpackSign Format.binary32 word).toNat = word.toNat / 2147483648 := by
      have bounded := word.isLt
      change (word.extractLsb 31 31).toNat = _
      simp [Nat.shiftRight_eq_div_pow]
      omega
    unfold Sign.ofBitVec
    simp only [← BitVec.toNat_inj, bit]
    congr 1
    simp
  rw [unpack_eq_floatOfParts, mantissa, field, sign]

theorem unpackSign_packComponents (format : Format) (sign : Sign)
    (field : BitVec format.exponentBits) (stored : BitVec format.mantissaBitsWithoutImplicit) :
    Sign.ofBitVec (unpackSign (packComponents format sign field stored)) = sign := by
  have same : unpackSign (packComponents format sign field stored) = sign.toBitVec := by
    apply BitVec.eq_of_getLsbD_eq
    intro i inside
    obtain rfl : i = 0 := by omega
    change (BitVec.cast _ (BitVec.extractLsb _ _ _)).getLsbD 0 = _
    simp [packComponents, BitVec.getLsbD_append, BitVec.getElem_append]
  rw [same]
  cases sign <;> rfl

theorem unpack_packComponents (sign : Sign) (field : BitVec 8) (stored : BitVec 23) :
    unpack Format.binary32 (packComponents Format.binary32 sign field stored) =
      floatOfParts sign field.toNat stored.toNat := by
  rw [unpack_eq_floatOfParts, unpackSign_packComponents, unpackExponent_packComponents,
    unpackMantissa_packComponents]

/-- The shape that words give to a float: a full mantissa, or the least exponent. -/
def IsCanonical : UnpackedFloat → Prop
  | .finite _ mantissa exponent _ =>
    mantissa < 16777216 ∧ -149 ≤ exponent ∧ (8388608 ≤ mantissa ∨ exponent = -149)
  | _ => True

/-- What words hold: a float in that shape, with no exponent beyond the greatest. -/
def IsStored : UnpackedFloat → Prop
  | .finite sign mantissa exponent positive =>
    IsCanonical (.finite sign mantissa exponent positive) ∧ exponent ≤ 104
  | _ => True

theorem isStored_unpack (word : BitVec 32) : IsStored (unpack Format.binary32 word) := by
  have field := (@unpackExponent Format.binary32 word).isLt
  have stored := (@unpackMantissa Format.binary32 word).isLt
  rw [unpack_eq_floatOfParts]
  generalize Sign.ofBitVec _ = sign
  generalize (@unpackExponent Format.binary32 word).toNat = exponent at field ⊢
  generalize (@unpackMantissa Format.binary32 word).toNat = mantissa at stored ⊢
  change exponent < 256 at field
  change mantissa < 8388608 at stored
  unfold floatOfParts
  by_cases top : exponent = 255
  · rw [if_pos top]
    split <;> trivial
  · rw [if_neg top]
    by_cases bottom : exponent = 0
    · rw [if_pos bottom]
      by_cases empty : mantissa = 0
      · rw [dif_pos empty]
        trivial
      · rw [dif_neg empty]
        exact ⟨⟨by omega, by decide, Or.inr rfl⟩, by decide⟩
    · rw [if_neg bottom]
      exact ⟨⟨by omega, by omega, Or.inl (by omega)⟩, by omega⟩

/-- A float with an exponent beyond the greatest is packed as infinite. -/
theorem unpack_pack_of_large (sign : Sign) {mantissa : Nat} {exponent : Int}
    (positive : 0 < mantissa) (large : 104 < exponent) :
    unpack Format.binary32 (pack Format.binary32 (.finite sign mantissa exponent positive)) =
      .infinity sign := by
  have beyond : 2 ^ Format.binary32.exponentBits ≤
      (exponent + Format.binary32.exponentBias +
        Format.binary32.mantissaBitsWithoutImplicit).toNat + 1 := by
    change 256 ≤ (exponent + (127 : Nat) + (23 : Nat)).toNat + 1
    omega
  unfold pack
  dsimp only
  rw [if_pos beyond]
  cases sign <;> rfl

theorem unpack_pack_finite (sign : Sign) {mantissa : Nat} {exponent : Int} (positive : 0 < mantissa)
    (canonical : IsCanonical (.finite sign mantissa exponent positive)) (most : exponent ≤ 104) :
    unpack Format.binary32 (pack Format.binary32 (.finite sign mantissa exponent positive)) =
      .finite sign mantissa exponent positive := by
  obtain ⟨high, least, normal⟩ := canonical
  have fits : ¬ 2 ^ Format.binary32.exponentBits ≤
      (exponent + Format.binary32.exponentBias +
        Format.binary32.mantissaBitsWithoutImplicit).toNat + 1 := by
    change ¬ 256 ≤ (exponent + (127 : Nat) + (23 : Nat)).toNat + 1
    omega
  have bits : mantissa.log2 + 1 = Format.binary32.mantissaBits ↔ 8388608 ≤ mantissa := by
    have range := Nat.log2_eq_iff (k := 23) (Nat.pos_iff_ne_zero.mp positive)
    change mantissa.log2 = 23 ↔ 8388608 ≤ mantissa ∧ mantissa < 16777216 at range
    change mantissa.log2 + 1 = 24 ↔ _
    omega
  refine (congrArg (unpack Format.binary32) (if_neg fits)).trans ?_
  by_cases full : 8388608 ≤ mantissa
  · have field : (BitVec.ofNat 8 (exponent + (127 : Nat) + (23 : Nat)).toNat).toNat =
        (exponent + 150).toNat := by
      rw [BitVec.toNat_ofNat]
      change (exponent + 127 + 23).toNat % 256 = _
      omega
    have stored : (BitVec.ofNat 23 mantissa).toNat = mantissa - 8388608 := by
      rw [BitVec.toNat_ofNat]
      change mantissa % 8388608 = _
      omega
    rw [if_pos (bits.mpr full), unpack_packComponents]
    refine (congrArg₂ (floatOfParts sign) field stored).trans ?_
    rw [floatOfParts, if_neg (by omega), if_neg (by omega)]
    exact finite_congr sign _ _ (by omega) (by omega)
  · have stored : (BitVec.ofNat 23 mantissa).toNat = mantissa := by
      rw [BitVec.toNat_ofNat]
      change mantissa % 8388608 = _
      omega
    rw [if_neg (mt bits.mp full), unpack_packComponents]
    refine (congrArg (floatOfParts sign 0) stored).trans ?_
    rw [floatOfParts, if_neg (by decide), if_pos rfl, dif_neg (by omega)]
    exact finite_congr sign _ _ rfl (by omega)

theorem unpack_pack {u : UnpackedFloat} (stored : IsStored u) :
    unpack Format.binary32 (pack Format.binary32 u) = u := by
  cases u with
  | infinity sign => cases sign <;> rfl
  | notANumber => rfl
  | zero sign => cases sign <;> rfl
  | finite sign mantissa exponent positive =>
      exact unpack_pack_finite sign positive stored.1 stored.2

/-- Packing keeps the sign of a float that is not negative, and makes no other of it. -/
def IsNonnegative : UnpackedFloat → Prop
  | .infinity sign => sign = .positive
  | .notANumber => False
  | .zero _ => True
  | .finite sign .. => sign = .positive

theorem IsNonnegative.unpack_pack {u : UnpackedFloat} (nonnegative : IsNonnegative u) :
    IsNonnegative (unpack Format.binary32 (pack Format.binary32 u)) := by
  have ofParts : ∀ field stored, field < 255 →
      IsNonnegative (floatOfParts .positive field stored) := by
    intro field stored small
    unfold floatOfParts
    rw [if_neg (by omega)]
    by_cases bottom : field = 0
    · rw [if_pos bottom]
      by_cases empty : stored = 0
      · rw [dif_pos empty]
        trivial
      · rw [dif_neg empty]
        rfl
    · rw [if_neg bottom]
      rfl
  cases u with
  | infinity sign =>
    cases nonnegative
    rfl
  | notANumber => exact nonnegative.elim
  | zero sign => cases sign <;> trivial
  | finite sign mantissa exponent positive =>
    cases nonnegative
    unfold pack
    dsimp only
    split
    · rfl
    · rename_i fits
      split
      · rw [unpack_packComponents]
        apply ofParts
        rw [BitVec.toNat_ofNat]
        change ¬ 256 ≤ _ at fits
        exact Nat.lt_of_le_of_lt (Nat.mod_le _ _) (by omega)
      · rw [unpack_packComponents]
        exact ofParts _ _ (by decide)

end Overworld
