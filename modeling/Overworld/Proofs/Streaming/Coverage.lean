import Mathlib.Algebra.Order.Field.Basic
import Mathlib.Data.Rat.Floor
import Mathlib.Tactic.Linarith
import Overworld.Proofs.Number.Order
import Overworld.Proofs.Terrain.Squares
import Overworld.Server.Interest
import Overworld.Server.Streamer

set_option autoImplicit false

/-!
The radius of a stream against the view. What the radius, chunks and views are computed with is left
open: in single precision they are those of the program, and in rational arithmetic, where nothing is
rounded, every point of a view lies within the radius less the margin.
-/

namespace Overworld

/-- What radii, chunks and views are computed with. -/
class Arithmetic (α : Type) where
  ofNat : Nat → α
  add : α → α → α
  sub : α → α → α
  mul : α → α → α
  div : α → α → α
  zero : α
  half : α
  epsilon : α
  least : α → α → α
  greatest : α → α → α
  /-- Whole units at or below, cut to 32 bits with a sign. -/
  floorInt32 : α → Int
  /-- Whole units at or above, cut to 32 bits without a sign. -/
  ceilUInt32 : α → Nat

namespace Arithmetic

instance : Arithmetic Single where
  ofNat := Single.ofNat
  add a b := a + b
  sub a b := a - b
  mul a b := a * b
  div a b := a / b
  zero := Single.zero
  half := Single.half
  epsilon := Single.epsilon
  least := Single.least
  greatest := Single.greatest
  floorInt32 := Single.floorInt32
  ceilUInt32 := Single.ceilUInt32

instance : Arithmetic Rat where
  ofNat number := number
  add a b := a + b
  sub a b := a - b
  mul a b := a * b
  div a b := a / b
  zero := 0
  half := 1 / 2
  epsilon := 1 / 8388608
  least := min
  greatest := max
  floorInt32 value := clampInt (-2147483648) 2147483647 ⌊value⌋
  ceilUInt32 value := (clampInt 0 4294967295 ⌈value⌉).toNat

/-- A rectangle along the axes, closed. -/
structure Box (α : Type) where
  minX : α
  minY : α
  maxX : α
  maxY : α

section

variable {α : Type} [Arithmetic α]

/-- The radius for a view of the given size, with the margin. -/
def viewRadius (viewWidth viewHeight tileSize : α) (chunkTiles : UInt32) : UInt32 :=
  let side := greatest (mul tileSize (ofNat (max chunkTiles.toNat 1))) epsilon
  let extent := mul (greatest (greatest viewWidth viewHeight) zero) half
  (ceilUInt32 (div extent side)).toUInt32 + StreamRules.margin

/-- The chunk that holds a point. -/
def chunkAt (x y tileSize : α) (chunkTiles : UInt32) : ChunkPosition :=
  let side := mul tileSize (ofNat chunkTiles.toNat)
  ⟨.ofInt (floorInt32 (div x side)), .ofInt (floorInt32 (div y side))⟩

/-- The view around an owner. -/
def viewAround (viewWidth viewHeight x y : α) : Box α :=
  let left := sub x (mul viewWidth half)
  let top := sub y (mul viewHeight half)
  let right := add left viewWidth
  let bottom := add top viewHeight
  ⟨least left right, least top bottom, greatest left right, greatest top bottom⟩

end

theorem viewRadius_single (viewWidth viewHeight tileSize : Single) (chunkTiles : UInt32) :
    viewRadius viewWidth viewHeight tileSize chunkTiles =
      (StreamRules.forView viewWidth viewHeight tileSize chunkTiles).viewRadius := rfl

theorem chunkAt_single (position : Vec3) (tileSize : Single) (chunkTiles : UInt32) :
    chunkAt position.x position.y tileSize chunkTiles =
      ChunkPosition.containing position tileSize chunkTiles := rfl

theorem viewAround_single (viewWidth viewHeight : Single) (position : Vec3) :
    let box := viewAround viewWidth viewHeight position.x position.y
    (⟨box.minX, box.minY, box.maxX, box.maxY⟩ : Rect) =
      (InterestRules.areaFor ⟨viewWidth, viewHeight, .centered⟩ position).rect := rfl

/-- Numbers in single precision are cut to words like the fractions that they stand for. -/
theorem floorInt32_single (value : Single) :
    floorInt32 value = floorInt32 (value.counted / (2 ^ 149 : Nat) : Rat) := by
  change value.floorInt32 = clampInt _ _ ⌊(value.counted / (2 ^ 149 : Nat) : Rat)⌋
  rw [Single.floorInt32_eq, Rat.floor_intCast_div_natCast,
    Int.fdiv_eq_ediv_of_nonneg _ (Int.natCast_nonneg _)]

theorem ceilUInt32_single (value : Single) :
    ceilUInt32 value = ceilUInt32 (value.counted / (2 ^ 149 : Nat) : Rat) := by
  change value.ceilUInt32 = (clampInt _ _ ⌈(value.counted / (2 ^ 149 : Nat) : Rat)⌉).toNat
  rw [Single.ceilUInt32_eq, Rat.ceil_intCast_div_natCast,
    Int.fdiv_eq_ediv_of_nonneg _ (Int.natCast_nonneg _)]

/-- What is rounded down may be further apart than it was, but no further than that rounded up. -/
theorem floor_div_sub_floor_div_le {side a b extent : Rat} (positive : 0 < side)
    (close : a - b ≤ extent) : ⌊a / side⌋ - ⌊b / side⌋ ≤ ⌈extent / side⌉ := by
  have scaled : a / side - b / side ≤ extent / side := by
    rw [← sub_div]
    exact div_le_div_of_nonneg_right close positive.le
  have below : ⌊a / side⌋ - ⌈extent / side⌉ ≤ ⌊b / side⌋ := by
    apply Int.le_floor.mpr
    push_cast
    linarith [Int.floor_le (a / side), Int.le_ceil (extent / side)]
  omega

theorem natAbs_clampInt_sub_le (low high a b : Int) :
    (clampInt low high a - clampInt low high b).natAbs ≤ (a - b).natAbs := by
  unfold clampInt
  omega

theorem toInt_ofInt_floorInt32 (value : Rat) :
    (Int32.ofInt (floorInt32 value)).toInt = clampInt (-2147483648) 2147483647 ⌊value⌋ := by
  have bounds := clampInt_between (by decide : (-2147483648 : Int) ≤ 2147483647) ⌊value⌋
  exact Int32.toInt_ofInt_of_le bounds.1 (Int.lt_of_le_of_lt bounds.2 (by decide))

variable {width height tileSize : Rat} {chunkTiles : UInt32}

/-- Places within a half of a view of each other are as many chunks apart as the half goes into, at
most. -/
theorem natAbs_floorInt32_sub_le {side point owner extent : Rat} (positive : 0 < side)
    (near : |point - owner| ≤ extent) :
    ((Int32.ofInt (floorInt32 (point / side))).toInt -
      (Int32.ofInt (floorInt32 (owner / side))).toInt).natAbs ≤ ⌈extent / side⌉.toNat := by
  obtain ⟨left, right⟩ := abs_le.mp near
  have ahead := floor_div_sub_floor_div_le positive right
  have behind : ⌊owner / side⌋ - ⌊point / side⌋ ≤ ⌈extent / side⌉ :=
    floor_div_sub_floor_div_le positive (by linarith)
  rw [toInt_ofInt_floorInt32, toInt_ofInt_floorInt32]
  have apart := natAbs_clampInt_sub_le (-2147483648) 2147483647 ⌊point / side⌋ ⌊owner / side⌋
  omega

/-- A radius that fits has the chunks that half of the longer side goes into, and the margin. -/
theorem viewRadius_sub_margin (wide : 0 < width) (tiled : 1 ≤ chunkTiles)
    (coarse : epsilon ≤ tileSize * chunkTiles.toNat)
    (fits : ⌈max width height / 2 / (tileSize * chunkTiles.toNat)⌉ + StreamRules.margin.toNat ≤
      4294967295) :
    (viewRadius width height tileSize chunkTiles - StreamRules.margin).toNat =
      ⌈max width height / 2 / (tileSize * chunkTiles.toNat)⌉.toNat := by
  have isOne : StreamRules.margin.toNat = 1 := rfl
  have some : max chunkTiles.toNat 1 = chunkTiles.toNat := max_eq_left tiled
  have side : max (tileSize * chunkTiles.toNat) epsilon = tileSize * chunkTiles.toNat :=
    max_eq_left coarse
  have extent : max (max width height) 0 * (1 / 2) = max width height / 2 := by
    rw [max_eq_left (wide.le.trans (le_max_left _ _)), mul_one_div]
  have radius : viewRadius width height tileSize chunkTiles =
      (clampInt 0 4294967295 ⌈max width height / 2 / (tileSize * chunkTiles.toNat)⌉).toNat.toUInt32 +
        StreamRules.margin := by
    change (clampInt 0 4294967295 ⌈max (max width height) 0 * (1 / 2) /
      max (tileSize * (max chunkTiles.toNat 1 : Nat)) epsilon⌉).toNat.toUInt32 + _ = _
    rw [some, side, extent]
  rw [radius, UInt32.add_sub_cancel]
  generalize ⌈max width height / 2 / (tileSize * chunkTiles.toNat)⌉ = chunks at fits ⊢
  unfold clampInt
  rw [Nat.toUInt32, UInt32.toNat_ofNat']
  omega

/-- The view is as wide to the one side of its owner as to the other. -/
theorem abs_sub_le_of_mem {extent owner point : Rat} (some : 0 < extent)
    (above : min (owner - extent * (1 / 2)) (owner - extent * (1 / 2) + extent) ≤ point)
    (below : point ≤ max (owner - extent * (1 / 2)) (owner - extent * (1 / 2) + extent)) :
    |point - owner| ≤ extent / 2 := by
  rw [min_eq_left (by linarith)] at above
  rw [max_eq_right (by linarith)] at below
  rw [abs_le]
  constructor <;> linarith

/-- The radius of a stream covers the view, in exact arithmetic. The radius for a view, the chunk of a
point and the view around an owner are those of the program, which computes them in single precision
and cuts what it gets to words as the fraction that it stands for is cut. In rational arithmetic,
wherever the owner is, every point of its view is in a chunk no further from the chunk of the owner
than the radius less the margin; points on the edge and edges on the border of a chunk are no
exception, nor are chunks that are cut to the last of the map. -/
theorem radius_covers_view (width height tileSize : Rat) (chunkTiles : UInt32) (wide : 0 < width)
    (high : 0 < height) (sized : 0 < tileSize) (tiled : 1 ≤ chunkTiles)
    (coarse : epsilon ≤ tileSize * chunkTiles.toNat)
    (fits : ⌈max width height / 2 / (tileSize * chunkTiles.toNat)⌉ + StreamRules.margin.toNat ≤
      4294967295) :
    (∀ viewWidth viewHeight size : Single, ∀ tiles : UInt32,
      viewRadius viewWidth viewHeight size tiles =
        (StreamRules.forView viewWidth viewHeight size tiles).viewRadius) ∧
    (∀ (position : Vec3) (size : Single) (tiles : UInt32),
      chunkAt position.x position.y size tiles = ChunkPosition.containing position size tiles) ∧
    (∀ (viewWidth viewHeight : Single) (position : Vec3),
      let box := viewAround viewWidth viewHeight position.x position.y
      (⟨box.minX, box.minY, box.maxX, box.maxY⟩ : Rect) =
        (InterestRules.areaFor ⟨viewWidth, viewHeight, .centered⟩ position).rect) ∧
    (∀ value : Single,
      floorInt32 value = floorInt32 (value.counted / (2 ^ 149 : Nat) : Rat) ∧
      ceilUInt32 value = ceilUInt32 (value.counted / (2 ^ 149 : Nat) : Rat)) ∧
    ∀ x y pointX pointY : Rat,
      let box := viewAround width height x y
      box.minX ≤ pointX ∧ pointX ≤ box.maxX ∧ box.minY ≤ pointY ∧ pointY ≤ box.maxY →
      (chunkAt pointX pointY tileSize chunkTiles).distance (chunkAt x y tileSize chunkTiles) ≤
        (viewRadius width height tileSize chunkTiles - StreamRules.margin).toNat := by
  refine ⟨viewRadius_single, chunkAt_single, viewAround_single,
    fun value => ⟨floorInt32_single value, ceilUInt32_single value⟩, ?_⟩
  intro x y pointX pointY box
  rintro ⟨left, right, top, bottom⟩
  have positive : 0 < tileSize * chunkTiles.toNat :=
    mul_pos sized (Nat.cast_pos.mpr (Nat.lt_of_lt_of_le Nat.one_pos tiled))
  have longerX : width / 2 ≤ max width height / 2 := by
    linarith [le_max_left width height]
  have longerY : height / 2 ≤ max width height / 2 := by
    linarith [le_max_right width height]
  have columns := natAbs_floorInt32_sub_le positive
    ((abs_sub_le_of_mem wide left right).trans longerX)
  have rows := natAbs_floorInt32_sub_le positive
    ((abs_sub_le_of_mem high top bottom).trans longerY)
  rw [viewRadius_sub_margin wide tiled coarse fits]
  exact Nat.max_le.mpr ⟨columns, rows⟩

/-- A view of 640 by 480 around an owner just inside a chunk of 256: its left edge is two chunks off,
as far as a radius of three allows. -/
theorem left_edge_is_covered :
    let owner := chunkAt (1 / 2 : Rat) 100 16 16
    let edge := chunkAt (-639 / 2 : Rat) 100 16 16
    let radius := viewRadius (640 : Rat) 480 16 16
    (viewAround (640 : Rat) 480 (1 / 2) 100).minX = -639 / 2 ∧
    radius.toNat = 3 ∧ edge.distance owner = 2 ∧
    edge.distance owner ≤ (radius - StreamRules.margin).toNat := by
  obtain ⟨-, -, -, -, covers⟩ := radius_covers_view 640 480 16 16 (by norm_num) (by norm_num)
    (by norm_num) (by decide) (by decide +kernel) (by decide +kernel)
  exact ⟨by decide +kernel, by decide +kernel, by decide +kernel,
    covers (1 / 2) 100 (-639 / 2) 100 (by decide +kernel)⟩

end Arithmetic

end Overworld
