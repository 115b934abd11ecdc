import Mathlib.Tactic.Linarith
import Overworld.Proofs.Grid.Overlap
import Overworld.Proofs.Number.Whole

set_option autoImplicit false

/-!
Circles and cells in exact arithmetic. Where coordinates are small whole multiples of a unit and the
sides of a cell are powers of two of them, a circle that touches something reaches a cell that they
share.
-/

namespace Overworld

/-- At most 1024 units of `2 ^ scale` least numbers. -/
def Single.IsWhole (scale : Nat) (a : Single) : Prop :=
  ∃ multiple : Int, multiple.natAbs ≤ 1024 ∧ a.Counts (multiple * 2 ^ scale)

def Shape.IsWhole (scale : Nat) : Shape → Prop
  | .rect r => r.IsUpright ∧ r.minX.IsWhole scale ∧ r.minY.IsWhole scale ∧
      r.maxX.IsWhole scale ∧ r.maxY.IsWhole scale
  | .circle x y radius => x.IsWhole scale ∧ y.IsWhole scale ∧ radius.IsWhole scale ∧
      .zero ≤ radius

/-- Cells whose sides are powers of two units, the unit being neither so small that a square of it
vanishes nor so great that squares of its multiples are infinite. -/
def CellSize.IsWhole (scale : Nat) (size : CellSize) : Prop :=
  75 ≤ scale ∧ scale ≤ 200 ∧ ∃ across down : Nat, across ≤ 48 ∧ down ≤ 48 ∧
    size.width.Counts (2 ^ (scale + across)) ∧ size.height.Counts (2 ^ (scale + down))

section Axis

variable {side x : Single} {scale across : Nat} {m : Int}

theorem floorInt32_of_whole (sides : side.Counts (2 ^ (scale + across)))
    (point : x.Counts (m * 2 ^ scale)) (small : m.natAbs ≤ 2048) (least : 75 ≤ scale)
    (most : scale ≤ 200) (few : across ≤ 48) :
    (x * (.one / side)).floorInt32 = m / 2 ^ across := by
  have inverse := sides.one_div (by omega) (by omega)
  rw [← Int.one_mul (2 ^ _)] at inverse
  have product := point.mul_whole inverse (by omega) (by omega) (by omega)
  have left : scale + (298 - (scale + across)) - 149 = 149 - across := by omega
  have split : ((2 ^ 149 : Nat) : Int) = 2 ^ across * 2 ^ (149 - across) := by
    rw [← pow_add, Nat.add_sub_cancel' (by omega), Nat.cast_pow]
    rfl
  have positive : (0 : Int) < 2 ^ (149 - across) := Int.pow_pos (by decide)
  have quotient := Int.natAbs_ediv_le_natAbs m (2 ^ across)
  rw [left, Int.mul_one] at product
  rw [Single.floorInt32_eq, product.counted, Int.fdiv_eq_ediv_of_nonneg _ (Int.natCast_nonneg _),
    split, Int.mul_ediv_mul_of_pos_left _ _ positive, clampInt]
  omega

theorem counts_slack : CellSize.slack.Counts (13743895 * 2 ^ 112) := ⟨by decide, by decide⟩

/-- The widened edges of a cell lie no farther in than its own. -/
theorem exists_widened {power : Nat} {k : Int} (sides : side.Counts (2 ^ power))
    (index : k.natAbs ≤ 2048) (least : 37 ≤ power) (most : power ≤ 253) :
    ∃ l h : Int, (.ofInt k * side - side * CellSize.slack).Counts l ∧
      ((.ofInt k + .one) * side + side * CellSize.slack).Counts h ∧
      l ≤ k * 2 ^ power ∧ (k + 1) * 2 ^ power ≤ h := by
  rw [← Int.one_mul (2 ^ _)] at sides
  have number : (Single.ofInt k).Counts (k * 2 ^ 149) := Single.counts_ofInt (by omega)
  have near := number.mul_whole sides (by omega) (by omega) (by omega)
  have far := (number.add_whole Single.counts_one (by omega) (by decide)).mul_whole sides (by omega)
    (by omega) (by omega)
  have widening := sides.mul_whole counts_slack (by decide) (by omega) (by omega)
  rw [Nat.add_sub_cancel_left, Int.mul_one] at near far
  rw [Int.one_mul] at widening
  have narrow : (2 : Int) ^ power = 2 ^ (power + 112 - 149) * 137438953472 := by
    have split : power = power + 112 - 149 + 37 := by omega
    nth_rewrite 1 [split]
    rw [pow_add]
    rfl
  have some : (0 : Int) < 2 ^ (power + 112 - 149) := Int.pow_pos (by decide)
  have lowest := (mul_two_pow_le_iff (-2048) k power).mpr (by omega)
  have highest := (mul_two_pow_le_iff k 2048 power).mpr (by omega)
  have next : (k + 1) * 2 ^ power = k * 2 ^ power + 2 ^ power := by
    rw [Int.add_mul, Int.one_mul]
  generalize (2 : Int) ^ (power + 112 - 149) = slack at widening narrow some
  have lowBound : (k * 2 ^ power - 13743895 * slack).natAbs ≤ (2050 * 2 ^ power : Int).natAbs := by
    omega
  have highBound : ((k + 1) * 2 ^ power + 13743895 * slack).natAbs ≤
      (2050 * 2 ^ power : Int).natAbs := by
    omega
  have bounded := natAbs_lt_unbounded (by decide : (2050 : Int).natAbs < 16777216) most
  have lower := near.sub widening (Nat.lt_of_le_of_lt
    (natAbs_roundInt_le_whole lowBound (by decide)) bounded)
  have upper := far.add widening (Nat.lt_of_le_of_lt
    (natAbs_roundInt_le_whole highBound (by decide)) bounded)
  exact ⟨_, _, lower, upper, roundInt_le_whole (by omega) (by omega),
    whole_le_roundInt (by omega) (by omega)⟩

/-- The point lies between the edges of its cell. -/
theorem exists_edges (sides : side.Counts (2 ^ (scale + across)))
    (point : x.Counts (m * 2 ^ scale)) (small : m.natAbs ≤ 2048) (least : 75 ≤ scale)
    (most : scale ≤ 200) (few : across ≤ 48) {low high : Single}
    (isLow : low = .ofInt (x * (.one / side)).floorInt32 * side - side * CellSize.slack)
    (isHigh : high =
      (.ofInt (x * (.one / side)).floorInt32 + .one) * side + side * CellSize.slack) :
    ∃ l h : Int, low.Counts l ∧ high.Counts h ∧ l ≤ m * 2 ^ scale ∧ m * 2 ^ scale ≤ h := by
  rw [floorInt32_of_whole sides point small least most few] at isLow isHigh
  have positive : (0 : Int) < 2 ^ across := Int.pow_pos (by decide)
  have below := Int.ediv_mul_le m (Int.ne_of_gt positive)
  have above := Int.lt_ediv_add_one_mul_self m positive
  have index := Int.natAbs_ediv_le_natAbs m (2 ^ across)
  generalize m / 2 ^ across = k at isLow isHigh below above index
  have units : ∀ n : Int, n * 2 ^ (scale + across) = n * 2 ^ across * 2 ^ scale := by
    intro n
    rw [Int.mul_assoc, ← pow_add, Nat.add_comm]
  have before : k * 2 ^ (scale + across) ≤ m * 2 ^ scale := by
    rw [units]
    exact (mul_two_pow_le_iff ..).mpr below
  have behind : m * 2 ^ scale ≤ (k + 1) * 2 ^ (scale + across) := by
    rw [units]
    exact (mul_two_pow_le_iff ..).mpr (Int.le_of_lt above)
  obtain ⟨l, h, lower, upper, left, right⟩ :=
    exists_widened sides (k := k) (by omega) (by omega) (by omega)
  rw [isLow, isHigh]
  exact ⟨l, h, lower, upper, Int.le_trans left before, Int.le_trans behind right⟩

/-- The nearest point between two edges is no farther than a given one between them. -/
theorem exists_gap {center low high : Single} {n l h : Int}
    (isCenter : center.Counts (n * 2 ^ scale)) (lower : low.Counts l) (upper : high.Counts h)
    (left : l ≤ m * 2 ^ scale) (right : m * 2 ^ scale ≤ h) (short : (n - m).natAbs < 16777216)
    (most : scale ≤ 200) :
    ∃ d : Int, (center - center.clamp low high).Counts d ∧
      d.natAbs ≤ ((n - m) * 2 ^ scale).natAbs := by
  refine isCenter.sub_le (isCenter.clamp lower upper) ?_ short (by omega)
  rw [Int.sub_mul]
  omega

end Axis

/-- The corners of a rectangle as whole multiples up to a bound. -/
structure Rect.Spans (r : Rect) (scale bound : Nat) (x₀ y₀ x₁ y₁ : Int) : Prop where
  minX : r.minX.Counts (x₀ * 2 ^ scale)
  minY : r.minY.Counts (y₀ * 2 ^ scale)
  maxX : r.maxX.Counts (x₁ * 2 ^ scale)
  maxY : r.maxY.Counts (y₁ * 2 ^ scale)
  across : x₀ ≤ x₁
  down : y₀ ≤ y₁
  columns : x₀.natAbs ≤ bound ∧ x₁.natAbs ≤ bound
  rows : y₀.natAbs ≤ bound ∧ y₁.natAbs ≤ bound

/-- The center and the radius of a circle as small whole multiples. -/
structure IsDisk (scale : Nat) (x y radius : Single) (n o k : Int) : Prop where
  x : x.Counts (n * 2 ^ scale)
  y : y.Counts (o * 2 ^ scale)
  radius : radius.Counts (k * 2 ^ scale)
  smallX : n.natAbs ≤ 1024
  smallY : o.natAbs ≤ 1024
  small : k.natAbs ≤ 1024
  nonneg : 0 ≤ k

variable {size : CellSize} {scale bound : Nat} {r : Rect} {x₀ y₀ x₁ y₁ : Int}
  {x y radius : Single} {n o k : Int}

theorem Shape.IsWhole.spans (whole : (Shape.rect r).IsWhole scale) :
    ∃ x₀ y₀ x₁ y₁ : Int, r.Spans scale 1024 x₀ y₀ x₁ y₁ := by
  obtain ⟨upright, ⟨x₀, smallX₀, minX⟩, ⟨y₀, smallY₀, minY⟩, ⟨x₁, smallX₁, maxX⟩,
    ⟨y₁, smallY₁, maxY⟩⟩ := whole
  have across := upright.across (Single.isNaN_of_isFinite minX.finite)
  have down := upright.down (Single.isNaN_of_isFinite minY.finite)
  exact ⟨x₀, y₀, x₁, y₁, minX, minY, maxX, maxY, (minX.le_whole_iff maxX).mp across,
    (minY.le_whole_iff maxY).mp down, ⟨smallX₀, smallX₁⟩, smallY₀, smallY₁⟩

theorem Shape.IsWhole.isDisk (whole : (Shape.circle x y radius).IsWhole scale) :
    ∃ n o k : Int, IsDisk scale x y radius n o k := by
  obtain ⟨⟨n, smallX, isX⟩, ⟨o, smallY, isY⟩, ⟨k, small, isRadius⟩, notNegative⟩ := whole
  have zero : Single.zero.Counts (0 * 2 ^ scale) := by
    rw [Int.zero_mul]
    exact ⟨by decide, by decide⟩
  exact ⟨n, o, k, isX, isY, isRadius, smallX, smallY, small,
    (zero.le_whole_iff isRadius).mp notNegative⟩

theorem Rect.Spans.contains (spans : r.Spans scale bound x₀ y₀ x₁ y₁)
    (valid : size.isValid = true) {px py : Single} {u v : Int} (column : px.Counts (u * 2 ^ scale))
    (row : py.Counts (v * 2 ^ scale)) (across : x₀ ≤ u ∧ u ≤ x₁) (down : y₀ ≤ v ∧ v ≤ y₁) :
    (size.extent r).contains ⟨size.column px, size.row py⟩ = true :=
  decide_eq_true
    ⟨size.column_mono valid ((spans.minX.le_whole_iff column).mpr across.1),
      size.column_mono valid ((column.le_whole_iff spans.maxX).mpr across.2),
      size.row_mono valid ((spans.minY.le_whole_iff row).mpr down.1),
      size.row_mono valid ((row.le_whole_iff spans.maxY).mpr down.2)⟩

/-- The square around a circle. -/
theorem IsDisk.spans (disk : IsDisk scale x y radius n o k) (most : scale ≤ 200) :
    (Shape.circle x y radius).bounds.Spans scale 2048 (n - k) (o - k) (n + k) (o + k) := by
  have smallX := disk.smallX
  have smallY := disk.smallY
  have small := disk.small
  have nonneg := disk.nonneg
  exact ⟨disk.x.sub_whole disk.radius (by omega) (by omega),
    disk.y.sub_whole disk.radius (by omega) (by omega),
    disk.x.add_whole disk.radius (by omega) (by omega),
    disk.y.add_whole disk.radius (by omega) (by omega), by omega, by omega, by omega, by omega⟩

/-- A circle reaches the cell of each point in it. -/
theorem IsDisk.reaches (disk : IsDisk scale x y radius n o k) (whole : size.IsWhole scale)
    {px py : Single} {u v : Int} (column : px.Counts (u * 2 ^ scale))
    (row : py.Counts (v * 2 ^ scale)) (smallU : u.natAbs ≤ 2048) (smallV : v.natAbs ≤ 2048)
    (near : (n - u) * (n - u) + (o - v) * (o - v) ≤ k * k) :
    size.reaches (.circle x y radius) ⟨size.column px, size.row py⟩ = true := by
  obtain ⟨least, most, across, down, fewAcross, fewDown, width, height⟩ := whole
  have smallX := disk.smallX
  have smallY := disk.smallY
  have small := disk.small
  obtain ⟨l, h, low, high, left, right⟩ :=
    exists_edges width column smallU least most fewAcross rfl rfl
  obtain ⟨b, t, bottom, top, below, above⟩ :=
    exists_edges height row smallV least most fewDown rfl rfl
  obtain ⟨dx, first, wide⟩ := exists_gap disk.x (low.least high) (low.greatest high)
    (Int.le_trans (Int.min_le_left _ _) left) (Int.le_trans right (Int.le_max_right _ _))
    (by omega) most
  obtain ⟨dy, second, tall⟩ := exists_gap disk.y (bottom.least top) (bottom.greatest top)
    (Int.le_trans (Int.min_le_left _ _) below) (Int.le_trans above (Int.le_max_right _ _))
    (by omega) most
  exact decide_eq_true
    (first.squares_le second disk.radius wide tall (by omega) least most near)

/-- From the nearest number between two others to a number. -/
def gap (n low high : Int) : Int := n - min (max n low) high

theorem natAbs_gap_le {low high : Int} (small : n.natAbs ≤ 1024)
    (ends : low.natAbs ≤ 1024 ∧ high.natAbs ≤ 1024) : (gap n low high).natAbs ≤ 2048 := by
  unfold gap
  omega

theorem Rect.Spans.meetsCircle_iff (spans : r.Spans scale 1024 x₀ y₀ x₁ y₁)
    (disk : IsDisk scale x y radius n o k) (least : 75 ≤ scale) (most : scale ≤ 200) :
    r.meetsCircle x y radius = true ↔
      gap n x₀ x₁ * gap n x₀ x₁ + gap o y₀ y₁ * gap o y₀ y₁ ≤ k * k := by
  have wide := natAbs_gap_le disk.smallX spans.columns
  have tall := natAbs_gap_le disk.smallY spans.rows
  have dx := disk.x.sub_whole (disk.x.clamp_whole spans.minX spans.maxX)
    (Nat.lt_of_le_of_lt wide (by decide)) (by omega)
  have dy := disk.y.sub_whole (disk.y.clamp_whole spans.minY spans.maxY)
    (Nat.lt_of_le_of_lt tall (by decide)) (by omega)
  have small := disk.small
  rw [Rect.meetsCircle, decide_eq_true_iff]
  exact dx.squares_le_iff dy disk.radius wide tall (by omega) least most

/-- A circle that the nearest point of a rectangle lies in shares with it a cell that it reaches. -/
theorem Rect.Spans.exists_reached (spans : r.Spans scale bound x₀ y₀ x₁ y₁) (few : bound ≤ 2048)
    (disk : IsDisk scale x y radius n o k) (valid : size.isValid = true)
    (whole : size.IsWhole scale)
    (near : gap n x₀ x₁ * gap n x₀ x₁ + gap o y₀ y₁ * gap o y₀ y₁ ≤ k * k) :
    ∃ cell, (size.extent r).contains cell = true ∧
      (size.extent (Shape.circle x y radius).bounds).contains cell = true ∧
      size.reaches (.circle x y radius) cell = true := by
  have column := disk.x.clamp_whole spans.minX spans.maxX
  have row := disk.y.clamp_whole spans.minY spans.maxY
  have nonneg := disk.nonneg
  have columns := spans.columns
  have rows := spans.rows
  have across := spans.across
  have down := spans.down
  have within : (gap n x₀ x₁).natAbs ≤ k.natAbs := by
    have some := mul_self_nonneg (gap o y₀ y₁)
    exact Int.natAbs_le_iff_mul_self_le.mpr (by omega)
  have alsoWithin : (gap o y₀ y₁).natAbs ≤ k.natAbs := by
    have some := mul_self_nonneg (gap n x₀ x₁)
    exact Int.natAbs_le_iff_mul_self_le.mpr (by omega)
  unfold gap at within alsoWithin near
  exact ⟨_, spans.contains valid column row (by omega) (by omega),
    (disk.spans whole.2.1).contains valid column row (by omega) (by omega),
    disk.reaches whole column row (by omega) (by omega) near⟩

/-- What is outside the numbers that are no farther than `k` from `n` is farther by `k` from `n`
itself than from those. -/
theorem exists_beyond {n p k : Int} (positive : 0 ≤ k) :
    ∃ d : Int, 0 ≤ d ∧ gap p (n - k) (n + k) * gap p (n - k) (n + k) = d * d ∧
      (d = 0 ∨ (n - p) * (n - p) = (d + k) * (d + k)) := by
  unfold gap
  by_cases left : p < n - k
  · refine ⟨n - k - p, by omega, ?_, Or.inr ?_⟩
    · rw [show p - min (max p (n - k)) (n + k) = -(n - k - p) by omega, Int.neg_mul_neg]
    · rw [show n - k - p + k = n - p by omega]
  · by_cases right : n + k < p
    · refine ⟨p - (n + k), by omega, ?_, Or.inr ?_⟩
      · rw [show p - min (max p (n - k)) (n + k) = p - (n + k) by omega]
      · rw [show n - p = -(p - (n + k) + k) by omega, Int.neg_mul_neg]
    · refine ⟨0, Int.le_refl 0, ?_, Or.inl rfl⟩
      rw [show p - min (max p (n - k)) (n + k) = 0 by omega]

/-- What touches a circle of radius `k₁` is within `k₂` of the square around it. -/
theorem near_square {n₁ o₁ k₁ n₂ o₂ k₂ : Int} (first : 0 ≤ k₁) (second : 0 ≤ k₂)
    (touches : (n₁ - n₂) * (n₁ - n₂) + (o₁ - o₂) * (o₁ - o₂) ≤ (k₁ + k₂) * (k₁ + k₂)) :
    gap n₂ (n₁ - k₁) (n₁ + k₁) * gap n₂ (n₁ - k₁) (n₁ + k₁) +
      gap o₂ (o₁ - k₁) (o₁ + k₁) * gap o₂ (o₁ - k₁) (o₁ + k₁) ≤ k₂ * k₂ := by
  obtain ⟨d, atLeft, across, beyondX⟩ := exists_beyond (n := n₁) (p := n₂) first
  obtain ⟨e, atTop, down, beyondY⟩ := exists_beyond (n := o₁) (p := o₂) first
  have within : ∀ {f : Int}, 0 ≤ f → (f + k₁) * (f + k₁) ≤ (k₁ + k₂) * (k₁ + k₂) →
      f * f ≤ k₂ * k₂ := by
    intro f notNegative square
    have sum := (mul_self_le_mul_self_iff (by omega) (by omega)).mpr square
    exact mul_self_le_mul_self notNegative (by omega)
  rw [across, down]
  rcases beyondX with rfl | isX
  · rcases beyondY with rfl | isY
    · simpa using mul_self_nonneg k₂
    · have wide := mul_self_nonneg (n₁ - n₂)
      have tall := within atTop (by omega)
      omega
  · rcases beyondY with rfl | isY
    · have tall := mul_self_nonneg (o₁ - o₂)
      have wide := within atLeft (by omega)
      omega
    · -- beyond a corner, the two distances together exceed the straight one
      by_contra far
      have corner : k₂ < d + e := by nlinarith
      nlinarith

theorem IsDisk.meets_iff {x' y' radius' : Single} {n' o' k' : Int}
    (disk : IsDisk scale x y radius n o k) (other : IsDisk scale x' y' radius' n' o' k')
    (least : 75 ≤ scale) (most : scale ≤ 200) :
    (Shape.circle x y radius).intersects (.circle x' y' radius') = true ↔
      (n - n') * (n - n') + (o - o') * (o - o') ≤ (k + k') * (k + k') := by
  obtain ⟨isX, isY, isRadius, smallX, smallY, small, -⟩ := disk
  obtain ⟨isX', isY', isRadius', smallX', smallY', small', -⟩ := other
  have dx := isX.sub_whole isX' (by omega) (by omega)
  have dy := isY.sub_whole isY' (by omega) (by omega)
  have reach := isRadius.add_whole isRadius' (by omega) (by omega)
  rw [Shape.intersects, decide_eq_true_iff]
  exact dx.squares_le_iff dy reach (by omega) (by omega) (by omega) least most

/-- Whole shapes that intersect lie over a common cell that the second reaches. -/
theorem CellSize.exists_common_reached {area shape : Shape} (valid : size.isValid = true)
    (whole : size.IsWhole scale) (first : area.IsWhole scale) (second : shape.IsWhole scale)
    (touch : area.intersects shape = true) :
    ∃ cell, (size.extent area.bounds).contains cell = true ∧
      (size.extent shape.bounds).contains cell = true ∧ size.reaches shape cell = true := by
  have least := whole.1
  have most := whole.2.1
  cases area with
  | rect a =>
      cases shape with
      | rect b =>
          obtain ⟨cell, inside, covered⟩ := size.exists_common_cell valid first.1 second.1 touch
          exact ⟨cell, inside, covered, rfl⟩
      | circle x y radius =>
          obtain ⟨x₀, y₀, x₁, y₁, spans⟩ := first.spans
          obtain ⟨n, o, k, disk⟩ := second.isDisk
          have near := (spans.meetsCircle_iff disk least most).mp touch
          exact spans.exists_reached (by decide) disk valid whole near
  | circle x y radius =>
      obtain ⟨n, o, k, disk⟩ := first.isDisk
      cases shape with
      | rect b =>
          obtain ⟨x₀, y₀, x₁, y₁, spans⟩ := second.spans
          have near := (spans.meetsCircle_iff disk least most).mp touch
          obtain ⟨cell, covered, inside, -⟩ :=
            spans.exists_reached (by decide) disk valid whole near
          exact ⟨cell, inside, covered, rfl⟩
      | circle x' y' radius' =>
          obtain ⟨n', o', k', other⟩ := second.isDisk
          have close := (disk.meets_iff other least most).mp touch
          have near := near_square disk.nonneg other.nonneg close
          exact (disk.spans most).exists_reached (Nat.le_refl _) other valid whole near

end Overworld
