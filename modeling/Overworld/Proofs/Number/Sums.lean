import Overworld.Proofs.Number.Products

set_option autoImplicit false

/-!
What sums and products of finite floats count, and which of them come out exact: those of few
significant bits are not rounded.
-/

open Float.Model (Format UnpackedFloat totalExponent)
open Float.Model.UnpackedFloat

namespace Overworld

theorem fallingBits_le {mantissa : Nat} (short : mantissa < 16777216) {zeros : Nat}
    (enough : 149 ≤ zeros) : fallingBits (mantissa * 2 ^ zeros) ≤ zeros := by
  by_cases empty : mantissa = 0
  · rw [empty, Nat.zero_mul]
    exact Nat.max_le.mpr ⟨by simp, enough⟩
  · have bits : mantissa.log2 < 24 := (Nat.log2_lt empty).mpr short
    unfold fallingBits
    rw [log2_mul_two_pow (Nat.pos_of_ne_zero empty)]
    omega

/-- A number of at most 24 significant bits stays as it is. -/
theorem roundUnits_of_short {mantissa : Nat} (short : mantissa < 16777216) {zeros : Nat}
    (enough : 149 ≤ zeros) : roundUnits (mantissa * 2 ^ zeros) = mantissa * 2 ^ (zeros - 149) := by
  have fewer := fallingBits_le short enough
  have least : 149 ≤ fallingBits (mantissa * 2 ^ zeros) := le_max_right _ _
  unfold roundUnits significant
  generalize fallingBits (mantissa * 2 ^ zeros) = falling at fewer least ⊢
  have split : mantissa * 2 ^ zeros = mantissa * 2 ^ (zeros - falling) * 2 ^ falling := by
    rw [Nat.mul_assoc, ← pow_add, Nat.sub_add_cancel fewer]
  have whole : ∀ number, (⟨number, false, false⟩ : ExtendedMantissa).roundedMantissa = number :=
    fun _ => rfl
  have bits : zeros - falling + (falling - 149) = zeros - 149 := by omega
  rw [split, shifted_self, whole, Nat.mul_assoc, ← pow_add, bits]

theorem natAbs_mul_two_pow (value : Int) (zeros : Nat) :
    (value * 2 ^ zeros).natAbs = value.natAbs * 2 ^ zeros := by
  rw [Int.natAbs_mul, Int.natAbs_pow]
  rfl

theorem roundInt_of_short {value : Int} (short : value.natAbs < 16777216) {zeros : Nat}
    (enough : 149 ≤ zeros) : roundInt (value * 2 ^ zeros) = value * 2 ^ (zeros - 149) := by
  have power : (0 : Int) < 2 ^ zeros := Int.pow_pos (by decide)
  have exact := roundUnits_of_short short enough
  unfold roundInt
  rw [natAbs_mul_two_pow, exact, Nat.cast_mul, Nat.cast_pow]
  by_cases negative : value < 0
  · have magnitude : -(value.natAbs : Int) = value := by omega
    rw [if_pos (Int.mul_neg_of_neg_of_pos negative power), ← Int.neg_mul, magnitude]
    rfl
  · have magnitude : (value.natAbs : Int) = value := by omega
    rw [if_neg (Int.not_lt.mpr (Int.mul_nonneg (Int.not_lt.mp negative) (Int.le_of_lt power))),
      magnitude]
    rfl

/-- What is no greater stays so, whatever the signs. -/
theorem natAbs_roundInt_le {value bound : Int} (order : value.natAbs ≤ bound.natAbs) :
    (roundInt value).natAbs ≤ (roundInt bound).natAbs := by
  have magnitude : ∀ number : Int, (roundInt number).natAbs = roundUnits number.natAbs := by
    intro number
    unfold roundInt
    split <;> omega
  rw [magnitude, magnitude]
  exact roundUnits_mono order

theorem mul_two_pow_le_iff (m n : Int) (scale : Nat) : m * 2 ^ scale ≤ n * 2 ^ scale ↔ m ≤ n :=
  Int.mul_le_mul_iff_of_pos_right (Int.pow_pos (by decide))

theorem natAbs_mul_self_le {value bound : Int} (order : value.natAbs ≤ bound.natAbs) :
    (value * value).natAbs ≤ (bound * bound).natAbs := by
  rw [Int.natAbs_mul, Int.natAbs_mul]
  exact Nat.mul_le_mul order order

section Multiples

variable {value multiple : Int} {scale : Nat}

theorem natAbs_lt_unbounded (short : multiple.natAbs < 16777216) (room : scale ≤ 253) :
    (multiple * 2 ^ scale).natAbs < unbounded := by
  rw [natAbs_mul_two_pow]
  exact Nat.mul_lt_mul_of_lt_of_le short (Nat.pow_le_pow_right (by decide) room)
    (Nat.two_pow_pos _)

/-- No rounding goes beyond a whole multiple. -/
theorem roundInt_whole (short : multiple.natAbs < 16777216) (scale : Nat) :
    roundInt (multiple * 2 ^ scale * 2 ^ 149) = multiple * 2 ^ scale := by
  rw [Int.mul_assoc, ← pow_add, roundInt_of_short short (Nat.le_add_left _ _), Nat.add_sub_cancel]

theorem roundInt_le_whole (order : value ≤ multiple * 2 ^ scale)
    (short : multiple.natAbs < 16777216) : roundInt (value * 2 ^ 149) ≤ multiple * 2 ^ scale := by
  rw [← roundInt_whole short scale]
  exact roundInt_mono (Int.mul_le_mul_of_nonneg_right order (by decide))

theorem whole_le_roundInt (order : multiple * 2 ^ scale ≤ value)
    (short : multiple.natAbs < 16777216) : multiple * 2 ^ scale ≤ roundInt (value * 2 ^ 149) := by
  rw [← roundInt_whole short scale]
  exact roundInt_mono (Int.mul_le_mul_of_nonneg_right order (by decide))

theorem natAbs_roundInt_le_whole (order : value.natAbs ≤ (multiple * 2 ^ scale).natAbs)
    (short : multiple.natAbs < 16777216) :
    (roundInt (value * 2 ^ 149)).natAbs ≤ (multiple * 2 ^ scale).natAbs := by
  rw [← roundInt_whole short scale]
  apply natAbs_roundInt_le
  rw [natAbs_mul_two_pow, natAbs_mul_two_pow (multiple * 2 ^ scale)]
  exact Nat.mul_le_mul_right _ order

end Multiples

/-- Zero, or a number with a mantissa. -/
def IsFinite : UnpackedFloat → Prop
  | .zero _ => True
  | .finite .. => True
  | _ => False

theorem unpack_pack_of_lt {u : UnpackedFloat} (canonical : IsCanonical u) (finite : IsFinite u)
    (bounded : (units u).natAbs < unbounded) :
    unpack Format.binary32 (pack Format.binary32 u) = u := by
  cases u with
  | infinity => exact finite.elim
  | notANumber => exact finite.elim
  | zero => exact unpack_pack (by trivial)
  | finite sign mantissa exponent positive =>
      refine unpack_pack_finite sign positive canonical (Int.not_lt.mp fun large => ?_)
      have beyond := units_ge canonical large
      rw [units_finite] at bounded
      cases sign <;> simp only [Sign.apply] at bounded <;> omega

theorem isFinite_floatOf (sign : Sign) (mantissa : Nat) (exponent : Int) :
    IsFinite (floatOf sign mantissa exponent) := by
  by_cases empty : mantissa = 0
  · rw [floatOf, dif_pos empty]
    trivial
  · rw [floatOf, dif_neg empty]
    trivial

/-- A float that counts a rounded number. -/
structure Rounds (u : UnpackedFloat) (value : Int) : Prop where
  finite : IsFinite u
  canonical : IsCanonical u
  counts : units u = roundInt value

theorem Rounds.of_exact (sign : Sign) {mantissa : Nat} {exponent : Int} (positive : 0 < mantissa)
    (least : -298 ≤ exponent) (enough : exponent ≤ -149 ∨ 8388608 ≤ mantissa) :
    Rounds (roundWithAccuracy Format.binary32 sign mantissa exponent .exact)
      (sign.apply (mantissa * 2 ^ (exponent + 298).toNat : Nat)) := by
  obtain ⟨canonical, counted⟩ := roundWithAccuracy_exact sign positive least enough
  exact ⟨isFinite_floatOf .., canonical, counted.trans (roundInt_apply ..).symm⟩

theorem Rounds.of_round (sign : Sign) {mantissa : Nat} {exponent : Int} (positive : 0 < mantissa)
    (least : -298 ≤ exponent) :
    Rounds (round Format.binary32 sign mantissa exponent)
      (sign.apply (mantissa * 2 ^ (exponent + 298).toNat : Nat)) := by
  have target := targetExponent_totalExponent mantissa exponent
  unfold UnpackedFloat.round decreaseExponent
  dsimp only
  rw [target, Nat.shiftLeft_eq]
  generalize isDrop : (exponent - max (mantissa.log2 + exponent - 23) (-149)).toNat = drop
  have padded : 0 < mantissa * 2 ^ drop := Nat.mul_pos positive (Nat.two_pow_pos _)
  have enough : exponent - drop ≤ -149 ∨ 8388608 ≤ mantissa * 2 ^ drop := by
    rw [← Nat.le_log2 (k := 23) (Nat.pos_iff_ne_zero.mp padded), log2_mul_two_pow positive]
    omega
  have rounds := Rounds.of_exact sign padded (by omega) enough
  have bits : drop + (exponent - drop + 298).toNat = (exponent + 298).toNat := by omega
  rw [Nat.mul_assoc, ← pow_add, bits] at rounds
  exact rounds

theorem Rounds.of_normalize (value : Int) {exponent : Int} (least : -298 ≤ exponent) :
    Rounds (normalize Format.binary32 value exponent .positive)
      (value * 2 ^ (exponent + 298).toNat) := by
  unfold UnpackedFloat.normalize
  rcases Int.lt_trichotomy value 0 with negative | rfl | positive
  · have magnitude : Sign.negative.apply ((-value).toNat : Nat) = value := by
      simp only [Sign.apply]
      omega
    have some : 0 < (-value).toNat := by omega
    have rounds := Rounds.of_round .negative some least
    rw [Nat.cast_mul, Nat.cast_pow, ← apply_mul, magnitude] at rounds
    rw [Int.compare_eq_lt.mpr negative]
    exact rounds
  · refine ⟨trivial, trivial, ?_⟩
    have nothing := roundInt_apply .positive 0
    rw [Int.zero_mul]
    exact (nothing.trans (congrArg (fun count : Nat => (count : Int)) roundUnits_zero)).symm
  · have magnitude : Sign.positive.apply (value.toNat : Nat) = value := by
      simp only [Sign.apply]
      omega
    have some : 0 < value.toNat := by omega
    have rounds := Rounds.of_round .positive some least
    rw [Nat.cast_mul, Nat.cast_pow, ← apply_mul, magnitude] at rounds
    rw [Int.compare_eq_gt.mpr positive]
    exact rounds

/-- What a word holds is not rounded. -/
theorem Rounds.of_stored {u : UnpackedFloat} (stored : IsStored u) (finite : IsFinite u) :
    Rounds u (units u * 2 ^ 149) := by
  cases u with
  | infinity => exact finite.elim
  | notANumber => exact finite.elim
  | zero sign =>
      have nothing : roundInt (0 * 2 ^ 149) = 0 * 2 ^ (149 - 149) :=
        roundInt_of_short (by decide) (Nat.le_refl 149)
      exact ⟨trivial, trivial, nothing.symm⟩
  | finite sign mantissa exponent positive =>
      obtain ⟨canonical, -⟩ := stored
      refine ⟨trivial, canonical, ?_⟩
      have bits : (exponent + 149).toNat + 149 - 149 = (exponent + 149).toNat := by omega
      have short : (sign.apply mantissa).natAbs < 16777216 := by
        have high := canonical.1
        cases sign <;> simp only [Sign.apply] <;> omega
      have exact := roundInt_of_short short (Nat.le_add_left 149 (exponent + 149).toNat)
      rw [bits] at exact
      rw [units_finite, Nat.cast_mul, Nat.cast_pow, ← apply_mul, Int.mul_assoc]
      change _ = roundInt (_ * ((2 : Int) ^ (exponent + 149).toNat * 2 ^ 149))
      rw [← pow_add, exact]
      rfl

/-- A mantissa brought to a lower exponent. -/
theorem apply_shiftLeft (sign : Sign) {mantissa : Nat} {exponent low : Int} (positive : 0 < mantissa)
    (least : -149 ≤ low) (order : low ≤ exponent) :
    sign.apply (mantissa <<< (exponent - low).toNat : Nat) * 2 ^ (low + 298).toNat =
      units (.finite sign mantissa exponent positive) * 2 ^ 149 := by
  have bits : (exponent - low).toNat + (low + 298).toNat = (exponent + 149).toNat + 149 := by omega
  rw [units_finite, Nat.shiftLeft_eq, Nat.cast_mul, Nat.cast_mul, Nat.cast_pow, Nat.cast_pow,
    ← apply_mul, ← apply_mul, Int.mul_assoc, Int.mul_assoc]
  change _ * ((2 : Int) ^ _ * 2 ^ _) = _ * ((2 : Int) ^ _ * 2 ^ _)
  rw [← pow_add, ← pow_add, bits]

theorem Rounds.add {u v : UnpackedFloat} (first : IsStored u) (second : IsStored v)
    (finite : IsFinite u) (alsoFinite : IsFinite v) :
    Rounds (add Format.binary32 u v) ((units u + units v) * 2 ^ 149) := by
  cases u with
  | infinity => exact finite.elim
  | notANumber => exact finite.elim
  | zero sign =>
      have sum : units (.zero sign) + units v = units v := Int.zero_add _
      rw [sum]
      cases v with
      | infinity => exact alsoFinite.elim
      | notANumber => exact alsoFinite.elim
      | zero other => cases sign <;> cases other <;> exact Rounds.of_stored trivial trivial
      | finite other mantissa exponent positive => exact Rounds.of_stored second trivial
  | finite sign mantissa exponent positive =>
      cases v with
      | infinity => exact alsoFinite.elim
      | notANumber => exact alsoFinite.elim
      | zero other =>
          have sum : ∀ u, units u + units (.zero other) = units u :=
            fun _ => Int.add_zero _
          rw [sum]
          exact Rounds.of_stored first trivial
      | finite other m e pos =>
          have least : -149 ≤ min exponent e := Int.le_min.mpr ⟨first.1.2.1, second.1.2.1⟩
          have rounds := Rounds.of_normalize
            (sign.apply (mantissa <<< (exponent - min exponent e).toNat : Nat) +
              other.apply (m <<< (e - min exponent e).toNat : Nat))
            (Int.le_trans (by decide) least)
          rw [Int.add_mul, apply_shiftLeft sign positive least (Int.min_le_left _ _),
            apply_shiftLeft other pos least (Int.min_le_right _ _), ← Int.add_mul] at rounds
          exact rounds

theorem neg_apply (sign : Sign) (count : Int) : (-sign).apply count = -sign.apply count := by
  cases sign
  · exact (Int.neg_neg count).symm
  · rfl

theorem units_neg (u : UnpackedFloat) : units (neg u) = -units u := by
  cases u with
  | infinity sign => exact neg_apply sign unbounded
  | notANumber => rfl
  | zero sign => rfl
  | finite sign mantissa exponent positive => exact neg_apply sign _

theorem sub_eq_add_neg (u v : UnpackedFloat) :
    sub Format.binary32 u v = add Format.binary32 u (neg v) := by
  cases u <;> cases v <;> try rfl
  rename_i sign mantissa exponent positive other m e pos
  change normalize _ (_ - _) _ _ = normalize _ (_ + _) _ _
  rw [neg_apply, Int.sub_eq_add_neg]

theorem Rounds.sub {u v : UnpackedFloat} (first : IsStored u) (second : IsStored v)
    (finite : IsFinite u) (alsoFinite : IsFinite v) :
    Rounds (sub Format.binary32 u v) ((units u - units v) * 2 ^ 149) := by
  have opposite : IsStored (neg v) ∧ IsFinite (neg v) := by
    cases v with
    | infinity => exact alsoFinite.elim
    | notANumber => exact alsoFinite.elim
    | zero => exact ⟨trivial, trivial⟩
    | finite => exact ⟨second, trivial⟩
  have rounds := Rounds.add first opposite.1 finite opposite.2
  rw [units_neg, ← Int.sub_eq_add_neg] at rounds
  rw [sub_eq_add_neg]
  exact rounds

theorem apply_mul_apply (sign other : Sign) (a b : Nat) :
    sign.apply a * other.apply b = (sign * other).apply (a * b : Nat) := by
  rw [Nat.cast_mul]
  cases sign <;> cases other
  · exact Int.neg_mul_neg _ _
  · exact Int.neg_mul _ _
  · exact Int.mul_neg _ _
  · rfl

theorem Rounds.mul {u v : UnpackedFloat} (first : IsStored u) (second : IsStored v)
    (finite : IsFinite u) (alsoFinite : IsFinite v) :
    Rounds (mul Format.binary32 u v) (units u * units v) := by
  have nothing : ∀ sign, Rounds (.zero sign) 0 := fun _ => Rounds.of_stored trivial trivial
  cases u with
  | infinity => exact finite.elim
  | notANumber => exact finite.elim
  | zero sign =>
      have product : units (.zero sign) * units v = 0 := Int.zero_mul _
      rw [product]
      cases v with
      | infinity => exact alsoFinite.elim
      | notANumber => exact alsoFinite.elim
      | zero other => exact nothing _
      | finite => exact nothing _
  | finite sign mantissa exponent positive =>
      cases v with
      | infinity => exact alsoFinite.elim
      | notANumber => exact alsoFinite.elim
      | zero other =>
          have product : ∀ u, units u * units (.zero other) = 0 :=
            fun _ => Int.mul_zero _
          rw [product]
          exact nothing _
      | finite other m e pos =>
          obtain ⟨least, enough⟩ := enough_of_product first.1 second.1
          have rounds := Rounds.of_exact (sign * other) (Nat.mul_pos positive pos) least enough
          have bits : (exponent + e + 298).toNat = (exponent + 149).toNat + (e + 149).toNat := by
            obtain ⟨⟨-, lowest, -⟩, -⟩ := first
            obtain ⟨⟨-, otherLowest, -⟩, -⟩ := second
            omega
          have product : mantissa * m * 2 ^ (exponent + e + 298).toNat =
              mantissa * 2 ^ (exponent + 149).toNat * (m * 2 ^ (e + 149).toNat) := by
            rw [bits]
            ring
          rw [units_finite, units_finite, apply_mul_apply, ← product]
          exact rounds

end Overworld
