import Mathlib.Data.Int.Order.Lemmas
import Overworld.Proofs.Number.Order
import Overworld.Proofs.Number.Sums

set_option autoImplicit false

/-!
Arithmetic of single-precision numbers by what they count. Numbers that are whole multiples of one
unit, and few of it, are added, multiplied and compared without a rounding.
-/

open Float.Model (Format UnpackedFloat totalExponent)
open Float.Model.UnpackedFloat

namespace Overworld

namespace Single

/-- A finite number and what it counts. -/
structure Counts (a : Single) (count : Int) : Prop where
  finite : a.isFinite = true
  counted : a.counted = count

variable {a b : Single} {m n : Int}

theorem isFinite_iff : a.isFinite = true ↔ IsFinite (unpack Format.binary32 a.bits.toBitVec) := by
  have parts := unpack_eq a.bits.toBitVec
  rw [UInt32.toNat_toBitVec] at parts
  rw [isFinite_eq_true, parts, floatOfParts]
  by_cases top : a.bits.toNat / 8388608 % 256 = 255
  · have beyond : ¬ a.bits.toNat % 2147483648 < 2139095040 := by omega
    rw [if_pos top]
    refine ⟨fun finite => absurd finite beyond, fun finite => ?_⟩
    split at finite <;> exact finite.elim
  · have within : a.bits.toNat % 2147483648 < 2139095040 := by omega
    rw [if_neg top]
    refine ⟨fun _ => ?_, fun _ => within⟩
    by_cases bottom : a.bits.toNat / 8388608 % 256 = 0
    · rw [if_pos bottom]
      by_cases empty : a.bits.toNat % 8388608 = 0
      · rw [dif_pos empty]
        trivial
      · rw [dif_neg empty]
        trivial
    · rw [if_neg bottom]
      trivial

theorem isNaN_of_isFinite (finite : a.isFinite = true) : a.isNaN = false :=
  isNaN_eq_false.mpr (Nat.le_of_lt (isFinite_eq_true.mp finite))

theorem Counts.of_rounds {u : UnpackedFloat} {value : Int} (rounds : Rounds u value)
    (packed : unpack Format.binary32 a.bits.toBitVec =
      unpack Format.binary32 (pack Format.binary32 u))
    (bounded : (roundInt value).natAbs < unbounded) : a.Counts (roundInt value) := by
  rw [← rounds.counts] at bounded
  rw [unpack_pack_of_lt rounds.canonical rounds.finite bounded] at packed
  constructor
  · rw [isFinite_iff, packed]
    exact rounds.finite
  · rw [Single.counted, packed, rounds.counts]

theorem Counts.le_iff (first : a.Counts m) (second : b.Counts n) : a ≤ b ↔ m ≤ n := by
  rw [le_iff_counted_le (isNaN_of_isFinite first.finite) (isNaN_of_isFinite second.finite),
    first.counted, second.counted]

theorem Counts.lt_iff (first : a.Counts m) (second : b.Counts n) : a < b ↔ m < n := by
  have numbers := isNaN_of_isFinite first.finite
  have alsoNumbers := isNaN_of_isFinite second.finite
  have opposite : a < b ↔ ¬ b ≤ a :=
    ⟨fun below above => Int.not_le.mpr below.2.2 above.2.2, fun notAbove =>
      not_not.mp fun notBelow => notAbove (le_of_not_lt numbers alsoNumbers notBelow)⟩
  rw [opposite, second.le_iff first, Int.not_le]

theorem Counts.least (first : a.Counts m) (second : b.Counts n) :
    (a.least b).Counts (min m n) := by
  unfold Single.least
  rw [isNaN_of_isFinite first.finite, isNaN_of_isFinite second.finite,
    if_neg Bool.false_ne_true, if_neg Bool.false_ne_true]
  by_cases below : b < a
  · rw [if_pos below, Int.min_eq_right (Int.le_of_lt ((second.lt_iff first).mp below))]
    exact second
  · rw [if_neg below, Int.min_eq_left (Int.not_lt.mp (mt (second.lt_iff first).mpr below))]
    exact first

theorem Counts.greatest (first : a.Counts m) (second : b.Counts n) :
    (a.greatest b).Counts (max m n) := by
  unfold Single.greatest
  rw [isNaN_of_isFinite first.finite, isNaN_of_isFinite second.finite,
    if_neg Bool.false_ne_true, if_neg Bool.false_ne_true]
  by_cases below : a < b
  · rw [if_pos below, Int.max_eq_right (Int.le_of_lt ((first.lt_iff second).mp below))]
    exact second
  · rw [if_neg below, Int.max_eq_left (Int.not_lt.mp (mt (first.lt_iff second).mpr below))]
    exact first

theorem Counts.clamp {low high : Single} {l h : Int} (first : a.Counts m) (lower : low.Counts l)
    (upper : high.Counts h) : (a.clamp low high).Counts (min (max m l) h) := by
  have raised : (if a < low then low else a).Counts (max m l) := by
    by_cases below : a < low
    · rw [if_pos below, Int.max_eq_right (Int.le_of_lt ((first.lt_iff lower).mp below))]
      exact lower
    · rw [if_neg below, Int.max_eq_left (Int.not_lt.mp (mt (first.lt_iff lower).mpr below))]
      exact first
  unfold Single.clamp
  dsimp only
  by_cases above : high < if a < low then low else a
  · rw [if_pos above, Int.min_eq_right (Int.le_of_lt ((upper.lt_iff raised).mp above))]
    exact upper
  · rw [if_neg above, Int.min_eq_left (Int.not_lt.mp (mt (upper.lt_iff raised).mpr above))]
    exact raised

theorem unpack_add (a b : Single) :
    unpack Format.binary32 (a + b).bits.toBitVec =
      unpack Format.binary32 (pack Format.binary32 (add Format.binary32
        (unpack Format.binary32 a.bits.toBitVec) (unpack Format.binary32 b.bits.toBitVec))) := by
  change unpack _ (pack _
    (add _ (unpack _ (pack _ (unpack _ _))) (unpack _ (pack _ (unpack _ _))))) = _
  rw [unpack_pack (isStored_unpack _), unpack_pack (isStored_unpack _)]

theorem unpack_sub (a b : Single) :
    unpack Format.binary32 (a - b).bits.toBitVec =
      unpack Format.binary32 (pack Format.binary32 (sub Format.binary32
        (unpack Format.binary32 a.bits.toBitVec) (unpack Format.binary32 b.bits.toBitVec))) := by
  change unpack _ (pack _
    (sub _ (unpack _ (pack _ (unpack _ _))) (unpack _ (pack _ (unpack _ _))))) = _
  rw [unpack_pack (isStored_unpack _), unpack_pack (isStored_unpack _)]

theorem Counts.add (first : a.Counts m) (second : b.Counts n)
    (bounded : (roundInt ((m + n) * 2 ^ 149)).natAbs < unbounded) :
    (a + b).Counts (roundInt ((m + n) * 2 ^ 149)) := by
  have rounds := Rounds.add (isStored_unpack _) (isStored_unpack _)
    (isFinite_iff.mp first.finite) (isFinite_iff.mp second.finite)
  change Rounds _ ((a.counted + b.counted) * _) at rounds
  rw [first.counted, second.counted] at rounds
  exact .of_rounds rounds (unpack_add a b) bounded

theorem Counts.sub (first : a.Counts m) (second : b.Counts n)
    (bounded : (roundInt ((m - n) * 2 ^ 149)).natAbs < unbounded) :
    (a - b).Counts (roundInt ((m - n) * 2 ^ 149)) := by
  have rounds := Rounds.sub (isStored_unpack _) (isStored_unpack _)
    (isFinite_iff.mp first.finite) (isFinite_iff.mp second.finite)
  change Rounds _ ((a.counted - b.counted) * _) at rounds
  rw [first.counted, second.counted] at rounds
  exact .of_rounds rounds (unpack_sub a b) bounded

theorem Counts.mul (first : a.Counts m) (second : b.Counts n)
    (bounded : (roundInt (m * n)).natAbs < unbounded) : (a * b).Counts (roundInt (m * n)) := by
  have rounds := Rounds.mul (isStored_unpack _) (isStored_unpack _)
    (isFinite_iff.mp first.finite) (isFinite_iff.mp second.finite)
  change Rounds _ (a.counted * b.counted) at rounds
  rw [first.counted, second.counted] at rounds
  exact .of_rounds rounds (unpack_mul a b) bounded

variable {scale : Nat}

theorem Counts.add_whole (first : a.Counts (m * 2 ^ scale)) (second : b.Counts (n * 2 ^ scale))
    (short : (m + n).natAbs < 16777216) (room : scale ≤ 253) :
    (a + b).Counts ((m + n) * 2 ^ scale) := by
  have exact : roundInt ((m * 2 ^ scale + n * 2 ^ scale) * 2 ^ 149) = (m + n) * 2 ^ scale := by
    rw [← Int.add_mul, Int.mul_assoc]
    rw [← pow_add, roundInt_of_short short (Nat.le_add_left _ _), Nat.add_sub_cancel]
  have sum := first.add second (exact ▸ natAbs_lt_unbounded short room)
  rw [exact] at sum
  exact sum

theorem Counts.sub_whole (first : a.Counts (m * 2 ^ scale)) (second : b.Counts (n * 2 ^ scale))
    (short : (m - n).natAbs < 16777216) (room : scale ≤ 253) :
    (a - b).Counts ((m - n) * 2 ^ scale) := by
  have exact : roundInt ((m * 2 ^ scale - n * 2 ^ scale) * 2 ^ 149) = (m - n) * 2 ^ scale := by
    rw [← Int.sub_mul, Int.mul_assoc]
    rw [← pow_add, roundInt_of_short short (Nat.le_add_left _ _), Nat.add_sub_cancel]
  have difference := first.sub second (exact ▸ natAbs_lt_unbounded short room)
  rw [exact] at difference
  exact difference

theorem Counts.mul_whole {other : Nat} (first : a.Counts (m * 2 ^ scale))
    (second : b.Counts (n * 2 ^ other)) (short : (m * n).natAbs < 16777216)
    (enough : 149 ≤ scale + other) (room : scale + other ≤ 402) :
    (a * b).Counts (m * n * 2 ^ (scale + other - 149)) := by
  have exact : roundInt (m * 2 ^ scale * (n * 2 ^ other)) = m * n * 2 ^ (scale + other - 149) := by
    rw [mul_mul_mul_comm, ← pow_add, roundInt_of_short short enough]
  have product := first.mul second (exact ▸ natAbs_lt_unbounded short (by omega))
  rw [exact] at product
  exact product

theorem Counts.le_whole_iff (first : a.Counts (m * 2 ^ scale)) (second : b.Counts (n * 2 ^ scale)) :
    a ≤ b ↔ m ≤ n := by
  rw [first.le_iff second, mul_two_pow_le_iff]

theorem Counts.clamp_whole {low high : Single} {l h : Int} (first : a.Counts (m * 2 ^ scale))
    (lower : low.Counts (l * 2 ^ scale)) (upper : high.Counts (h * 2 ^ scale)) :
    (a.clamp low high).Counts (min (max m l) h * 2 ^ scale) := by
  have power : (0 : Int) ≤ 2 ^ scale := Int.le_of_lt (Int.pow_pos (by decide))
  have clamped := first.clamp lower upper
  rw [← max_mul_of_nonneg _ _ power, ← min_mul_of_nonneg _ _ power] at clamped
  exact clamped

theorem Counts.add_le {p q : Int} (first : a.Counts p) (second : b.Counts q)
    (order : (p + q).natAbs ≤ (m * 2 ^ scale).natAbs) (short : m.natAbs < 16777216)
    (room : scale ≤ 253) :
    ∃ sum : Int, (a + b).Counts sum ∧ sum.natAbs ≤ (m * 2 ^ scale).natAbs := by
  have bounded := natAbs_roundInt_le_whole order short
  exact ⟨_, first.add second (Nat.lt_of_le_of_lt bounded (natAbs_lt_unbounded short room)), bounded⟩

theorem Counts.sub_le {p q : Int} (first : a.Counts p) (second : b.Counts q)
    (order : (p - q).natAbs ≤ (m * 2 ^ scale).natAbs) (short : m.natAbs < 16777216)
    (room : scale ≤ 253) :
    ∃ difference : Int, (a - b).Counts difference ∧
      difference.natAbs ≤ (m * 2 ^ scale).natAbs := by
  have bounded := natAbs_roundInt_le_whole order short
  exact ⟨_, first.sub second (Nat.lt_of_le_of_lt bounded (natAbs_lt_unbounded short room)), bounded⟩

/-- The square of a small whole multiple. -/
theorem Counts.mul_self_whole (counts : a.Counts (m * 2 ^ scale)) (small : m.natAbs ≤ 2048)
    (least : 75 ≤ scale) (most : scale ≤ 200) :
    (a * a).Counts (m * m * 2 ^ (scale + scale - 149)) := by
  have bounded : (m * m).natAbs ≤ ((2048 : Int) * 2048).natAbs := natAbs_mul_self_le small
  exact counts.mul_whole counts (Nat.lt_of_le_of_lt bounded (by decide)) (by omega) (by omega)

/-- Sums of squares of small whole multiples compare as those of the multiples. -/
theorem Counts.squares_le_iff {dx dy r : Single} {i j k : Int} (first : dx.Counts (i * 2 ^ scale))
    (second : dy.Counts (j * 2 ^ scale)) (radius : r.Counts (k * 2 ^ scale))
    (across : i.natAbs ≤ 2048) (down : j.natAbs ≤ 2048) (small : k.natAbs ≤ 2048)
    (least : 75 ≤ scale) (most : scale ≤ 200) :
    dx * dx + dy * dy ≤ r * r ↔ i * i + j * j ≤ k * k := by
  have wide : (i * i).natAbs ≤ ((2048 : Int) * 2048).natAbs := natAbs_mul_self_le across
  have high : (j * j).natAbs ≤ ((2048 : Int) * 2048).natAbs := natAbs_mul_self_le down
  have short : (i * i + j * j).natAbs < 16777216 :=
    Nat.lt_of_le_of_lt (Int.natAbs_add_le _ _)
      (Nat.lt_of_le_of_lt (Nat.add_le_add wide high) (by decide))
  have sum := (first.mul_self_whole across least most).add_whole
    (second.mul_self_whole down least most) short (by omega)
  exact sum.le_whole_iff (radius.mul_self_whole small least most)

/-- A square of what counts no more than a small whole multiple. -/
theorem Counts.mul_self_le (counts : a.Counts n) (order : n.natAbs ≤ (m * 2 ^ scale).natAbs)
    (small : m.natAbs ≤ 2048) (least : 75 ≤ scale) (most : scale ≤ 200) :
    ∃ square : Int, (a * a).Counts square ∧
      square.natAbs ≤ (m * m * 2 ^ (scale + scale - 149)).natAbs := by
  have bounded : (m * m).natAbs ≤ ((2048 : Int) * 2048).natAbs := natAbs_mul_self_le small
  have short : (m * m).natAbs < 16777216 := Nat.lt_of_le_of_lt bounded (by decide)
  have bound : roundInt (m * 2 ^ scale * (m * 2 ^ scale)) = m * m * 2 ^ (scale + scale - 149) := by
    rw [mul_mul_mul_comm, ← pow_add, roundInt_of_short short (by omega)]
  have rounded := natAbs_roundInt_le (natAbs_mul_self_le order)
  rw [bound] at rounded
  exact ⟨_, counts.mul counts (Nat.lt_of_le_of_lt rounded (natAbs_lt_unbounded short (by omega))),
    rounded⟩

/-- What counts no more than small whole multiples passes where they pass, in spite of roundings. -/
theorem Counts.squares_le {dx dy r : Single} {p q i j k : Int} (first : dx.Counts p)
    (second : dy.Counts q) (radius : r.Counts (k * 2 ^ scale))
    (across : p.natAbs ≤ (i * 2 ^ scale).natAbs) (down : q.natAbs ≤ (j * 2 ^ scale).natAbs)
    (small : k.natAbs ≤ 2048) (least : 75 ≤ scale) (most : scale ≤ 200)
    (within : i * i + j * j ≤ k * k) : dx * dx + dy * dy ≤ r * r := by
  have wide : i.natAbs ≤ k.natAbs := by
    have some := mul_self_nonneg j
    exact Int.natAbs_le_iff_mul_self_le.mpr (by omega)
  have high : j.natAbs ≤ k.natAbs := by
    have some := mul_self_nonneg i
    exact Int.natAbs_le_iff_mul_self_le.mpr (by omega)
  obtain ⟨x, square, xBound⟩ := first.mul_self_le across (by omega) least most
  obtain ⟨y, other, yBound⟩ := second.mul_self_le down (by omega) least most
  have reach := radius.mul_self_whole small least most
  have bounded : (k * k).natAbs ≤ ((2048 : Int) * 2048).natAbs := natAbs_mul_self_le small
  have short : (k * k).natAbs < 16777216 := Nat.lt_of_le_of_lt bounded (by decide)
  have room : scale + scale - 149 ≤ 253 := by omega
  generalize scale + scale - 149 = power at xBound yBound reach room
  have positive : (0 : Int) < 2 ^ power := Int.pow_pos (by decide)
  have together : (x + y).natAbs ≤ (k * k * 2 ^ power).natAbs := by
    have sum : (i * i + j * j) * 2 ^ power ≤ k * k * 2 ^ power := (mul_two_pow_le_iff ..).mpr within
    have some : 0 ≤ i * i * 2 ^ power := Int.mul_nonneg (mul_self_nonneg i) (Int.le_of_lt positive)
    have more : 0 ≤ j * j * 2 ^ power := Int.mul_nonneg (mul_self_nonneg j) (Int.le_of_lt positive)
    rw [Int.add_mul] at sum
    omega
  obtain ⟨total, sum, bounded⟩ := square.add_le other together short room
  refine (sum.le_iff reach).mpr ?_
  have some : 0 ≤ k * k * 2 ^ power := Int.mul_nonneg (mul_self_nonneg k) (Int.le_of_lt positive)
  omega

theorem toNat_neg (a : Single) :
    (-a).bits.toNat =
      if a.bits.toNat < 2147483648 then a.bits.toNat + 2147483648
      else a.bits.toNat - 2147483648 := by
  have word := a.bits.toNat_lt
  have flipped : (-a).bits.toNat = a.bits.toNat ^^^ 2 ^ 31 := UInt32.toNat_xor ..
  have high := Nat.xor_div_two_pow (a := a.bits.toNat) (b := 2 ^ 31) (n := 31)
  have low := Nat.xor_mod_two_pow (a := a.bits.toNat) (b := 2 ^ 31) (n := 31)
  rw [← flipped] at high low
  rw [Nat.mod_self, Nat.xor_zero] at low
  split
  · have top : a.bits.toNat / 2 ^ 31 = 0 := by omega
    rw [top] at high
    change _ = 1 at high
    omega
  · have top : a.bits.toNat / 2 ^ 31 = 1 := by omega
    rw [top] at high
    change _ = 0 at high
    omega

theorem Counts.neg (counts : a.Counts m) : (-a).Counts (-m) := by
  have flipped := toNat_neg a
  have word := a.bits.toNat_lt
  have magnitude : (-a).bits.toNat % 2147483648 = a.bits.toNat % 2147483648 := by
    split at flipped <;> omega
  have finite : (-a).isFinite = true := by
    have same : (-a).abs.bits = a.abs.bits := by
      rw [← UInt32.toNat_inj, toNat_abs, toNat_abs, magnitude]
    have finite := counts.finite
    unfold isFinite at finite ⊢
    rw [same]
    exact finite
  refine ⟨finite, ?_⟩
  have value := counts.counted
  rw [counted_eq (isNaN_of_isFinite counts.finite)] at value
  rw [counted_eq (isNaN_of_isFinite finite), magnitude, ← value]
  by_cases positive : a.bits.toNat < 2147483648
  · rw [if_pos positive] at flipped ⊢
    rw [if_neg (by omega), Nat.mod_eq_of_lt positive]
  · rw [if_neg positive] at flipped ⊢
    have same : (-a).bits.toNat = a.bits.toNat % 2147483648 := by omega
    rw [if_pos (by omega), Int.neg_neg, same]

theorem unpack_ofNat (number : Nat) :
    unpack Format.binary32 (ofNat number).bits.toBitVec =
      unpack Format.binary32 (pack Format.binary32
        (normalize Format.binary32 number.toUInt64.toNat 0 .positive)) := rfl

theorem counts_ofNat {number : Nat} (short : number < 16777216) :
    (ofNat number).Counts (number * 2 ^ 149) := by
  have whole : number.toUInt64.toNat = number := by
    rw [Nat.toUInt64, UInt64.toNat_ofNat']
    omega
  have packed := unpack_ofNat number
  rw [whole] at packed
  have least : (-298 : Int) ≤ 0 := by decide
  have rounds := Rounds.of_normalize (number : Int) least
  have bits : ((0 : Int) + 298).toNat = 149 + 149 := rfl
  have small : (number : Int).natAbs < 16777216 := short
  have exact : roundInt ((number : Int) * 2 ^ (149 + 149)) = number * 2 ^ 149 := by
    rw [roundInt_of_short small (Nat.le_add_left _ _), Nat.add_sub_cancel]
  rw [bits] at rounds
  have counts := Counts.of_rounds rounds packed (by
    rw [exact]
    exact natAbs_lt_unbounded small (by decide))
  rw [exact] at counts
  exact counts

theorem counts_ofInt {number : Int} (short : number.natAbs < 16777216) :
    (ofInt number).Counts (number * 2 ^ 149) := by
  have magnitude := counts_ofNat short
  unfold ofInt
  split
  · have opposite := magnitude.neg
    rw [← Int.neg_mul] at opposite
    have same : -(number.natAbs : Int) = number := by omega
    rw [same] at opposite
    exact opposite
  · have same : (number.natAbs : Int) = number := by omega
    rw [same] at magnitude
    exact magnitude

theorem counts_one : one.Counts (1 * 2 ^ 149) := ⟨by decide, by decide⟩

/-- A normal power of two by its parts. -/
theorem unpack_of_power {power : Nat} (normal : 23 ≤ power) (counts : a.Counts (2 ^ power)) :
    unpack Format.binary32 a.bits.toBitVec =
      .finite .positive 8388608 (power - 172) (by decide) := by
  have stored := isStored_unpack a.bits.toBitVec
  have finite := isFinite_iff.mp counts.finite
  have value := counts.counted
  unfold counted at value
  generalize unpack Format.binary32 a.bits.toBitVec = u at stored finite value ⊢
  have positivePower : (0 : Int) < 2 ^ power := Int.pow_pos (by decide)
  cases u with
  | infinity => exact finite.elim
  | notANumber => exact finite.elim
  | zero => exact absurd value (by change ¬ (0 : Int) = 2 ^ power; omega)
  | finite sign mantissa exponent positive =>
      obtain ⟨⟨high, least, normalized⟩, -⟩ := stored
      rw [units_finite] at value
      obtain rfl : sign = .positive := by
        cases sign with
        | positive => rfl
        | negative =>
            simp only [Sign.apply] at value
            omega
      have equal : mantissa * 2 ^ (exponent + 149).toNat = 2 ^ power := by
        change ((mantissa * 2 ^ (exponent + 149).toNat : Nat) : Int) = 2 ^ power at value
        exact_mod_cast value
      have bits : mantissa.log2 + (exponent + 149).toNat = power := by
        rw [← log2_mul_two_pow positive, equal, Nat.log2_two_pow]
      have most : mantissa.log2 < 24 := (Nat.log2_lt (Nat.pos_iff_ne_zero.mp positive)).mpr high
      have full : 8388608 ≤ mantissa → 23 ≤ mantissa.log2 :=
        (Nat.le_log2 (k := 23) (Nat.pos_iff_ne_zero.mp positive)).mpr
      have split : power = 23 + (exponent + 149).toNat := by omega
      rw [split, pow_add] at equal
      exact finite_congr _ _ _ (Nat.eq_of_mul_eq_mul_right (Nat.two_pow_pos _) equal) (by omega)

/-- The division of one by a normal power of two leaves no remainder. -/
theorem divCore_of_power {power : Nat} (room : power ≤ 274) :
    divCore Format.binary32 8388608 (-23) 8388608 (power - 172) =
      (16777216, 125 - (power : Int), Accuracy.exact) := by
  have bits : Nat.log2 8388608 = 23 := by decide
  have difference : totalExponent 8388608 (-23) - totalExponent 8388608 (power - 172) =
      149 - (power : Int) := by
    unfold totalExponent
    omega
  have target : min (-23 - ((power : Int) - 172))
      (Format.binary32.targetExponent (149 - (power : Int))) = 125 - power := by
    change min (-23 - ((power : Int) - 172)) (max (149 - (power : Int) - (24 : Nat)) (-149)) = _
    omega
  have shift : (-23 - ((power : Int) - 172) - (125 - power)).toNat = 24 := by omega
  unfold divCore
  dsimp only
  rw [difference, target, shift]
  rfl

theorem Counts.one_div {power : Nat} (least : 45 ≤ power) (most : power ≤ 274)
    (counts : a.Counts (2 ^ power)) : (one / a).Counts (2 ^ (298 - power)) := by
  have unit : unpack Format.binary32 one.bits.toBitVec =
      .finite .positive 8388608 (-23) (by decide) := by
    rw [unpack_eq]
    rfl
  have divided := unpack_div one a
  have quotient : div Format.binary32 (.finite .positive 8388608 (-23) (by decide))
      (.finite .positive 8388608 (power - 172) (by decide)) =
      roundWithAccuracy Format.binary32 .positive 16777216 (125 - power) .exact := by
    unfold UnpackedFloat.div
    dsimp only
    rw [divCore_of_power most]
    rfl
  rw [unit, unpack_of_power (by omega) counts, quotient] at divided
  have lowest : (-298 : Int) ≤ 125 - power := by omega
  have enough : (125 : Int) - power ≤ -149 ∨ 8388608 ≤ 16777216 := Or.inr (by decide)
  have positive : 0 < 16777216 := by decide
  have rounds := Rounds.of_exact .positive positive lowest enough
  have bits : (125 - (power : Int) + 298).toNat = 423 - power := by omega
  have value : 16777216 * 2 ^ (423 - power) = 1 * 2 ^ (24 + (423 - power)) := by
    rw [pow_add, Nat.one_mul]
    rfl
  rw [bits, value] at rounds
  have left : 24 + (423 - power) - 149 = 298 - power := by omega
  have exact : roundInt (1 * 2 ^ (24 + (423 - power))) = 1 * 2 ^ (298 - power) := by
    rw [roundInt_of_short (by decide) (by omega), left]
  have unitRounds : Rounds
      (roundWithAccuracy Format.binary32 .positive 16777216 (125 - power) .exact)
      (1 * 2 ^ (24 + (423 - power))) := by
    rw [Nat.cast_mul, Nat.cast_pow] at rounds
    exact rounds
  have inverse := Counts.of_rounds unitRounds divided (by
    rw [exact]
    exact natAbs_lt_unbounded (by decide) (by omega))
  rw [exact, Int.one_mul] at inverse
  exact inverse

end Single

end Overworld
