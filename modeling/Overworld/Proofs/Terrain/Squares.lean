import Mathlib.Data.List.Nodup
import Mathlib.Order.MinMax
import Overworld.Proofs.Number.Guarded
import Overworld.Proofs.Terrain.Nearness

set_option autoImplicit false

/-!
Chunks and squares of chunks in exact arithmetic, which has no result where a word would wrap. Positions
are cut to the numbers that there are, and distances always fit. A square has a result exactly where it
has room on the map; it is then the neighborhood, and consists of as many different chunks as its sides
ask for. Without room the neighborhood has chunks beyond the radius, or hardly any.
-/

namespace Overworld

section

variable {α β : Type} {read : α → Option β}

theorem mapM_eq_some_map {value : α → β} {items : List α}
    (each : ∀ item ∈ items, read item = some (value item)) :
    items.mapM read = some (items.map value) := by
  induction items with
  | nil => rfl
  | cons first rest ih =>
      rw [List.mapM_cons, each first List.mem_cons_self,
        ih fun item member => each item (List.mem_cons_of_mem _ member)]
      rfl

theorem mapM_eq_none {items : List α} {item : α} (member : item ∈ items) (missing : read item = none) :
    items.mapM read = none := by
  induction items with
  | nil => cases member
  | cons first rest ih =>
      rw [List.mapM_cons]
      rcases List.mem_cons.mp member with rfl | member
      · rw [missing]
        rfl
      · rw [ih member]
        cases read first <;> rfl

end

theorem clampInt_between {low high : Int} (order : low ≤ high) (value : Int) :
    low ≤ clampInt low high value ∧ clampInt low high value ≤ high := by
  unfold clampInt
  omega

/-- Divisions are cut to the numbers of chunks. -/
theorem Single.floorInt32_between (value : Single) :
    -2147483648 ≤ value.floorInt32 ∧ value.floorInt32 ≤ 2147483647 := by
  unfold floorInt32 BinaryValue.toIntClamped
  split
  · decide
  · split <;> decide
  · exact clampInt_between (by decide) _

namespace ChunkPosition

def guardedContaining? (position : Vec3) (tileSize : Single) (chunkTiles : UInt32) :
    Option ChunkPosition := do
  let side := tileSize * .ofNat chunkTiles.toNat
  let x ← int32? (position.x / side).floorInt32
  let y ← int32? (position.y / side).floorInt32
  return ⟨x, y⟩

def guardedDistance? (a b : ChunkPosition) : Option Nat := do
  let dx ← int64? (a.x.toInt - b.x.toInt)
  let dy ← int64? (a.y.toInt - b.y.toInt)
  let moves ← uint32? (max dx.toInt.natAbs dy.toInt.natAbs)
  return moves.toNat

def guardedDistanceSquared? (a b : ChunkPosition) : Option Int64 := do
  let dx ← int64? (a.x.toInt - b.x.toInt)
  let dy ← int64? (a.y.toInt - b.y.toInt)
  let horizontal ← int64? (dx.toInt * dx.toInt)
  let vertical ← int64? (dy.toInt * dy.toInt)
  int64? (horizontal.toInt + vertical.toInt)

def guardedShift? (center : ChunkPosition) (dx dy : Int) : Option ChunkPosition := do
  let x ← int32? (center.x.toInt + dx)
  let y ← int32? (center.y.toInt + dy)
  return ⟨x, y⟩

def guardedNeighborhood? (center : ChunkPosition) (radius : UInt32) :
    Option (List ChunkPosition) := do
  let reach ← int32? radius.toNat
  let opposite ← int32? (-reach.toInt)
  let along := span opposite.toInt reach.toInt
  let rows ← along.mapM fun dy => along.mapM fun dx => center.guardedShift? dx dy
  return rows.flatten

theorem guardedContaining?_eq (position : Vec3) (tileSize : Single) (chunkTiles : UInt32) :
    guardedContaining? position tileSize chunkTiles =
      some (containing position tileSize chunkTiles) := by
  have fits : ∀ value : Single, int32? value.floorInt32 = some (.ofInt value.floorInt32) :=
    fun value => if_pos value.floorInt32_between
  unfold guardedContaining? containing
  dsimp only
  rw [fits, fits]
  rfl

theorem int64?_sub (first second : Int32) :
    int64? (first.toInt - second.toInt) = some (first.toInt64 - second.toInt64) :=
  int64?_eq_some_iff.mpr (toInt_sub_toInt64 first second)

/-- The distance of two chunks always fits. -/
theorem guardedDistance?_eq (a b : ChunkPosition) : a.guardedDistance? b = some (a.distance b) := by
  have moves : max (a.x.toInt - b.x.toInt).natAbs (a.y.toInt - b.y.toInt).natAbs ≤ 4294967295 := by
    have leastX := a.x.le_toInt
    have mostX := a.x.toInt_lt
    have leastY := a.y.le_toInt
    have mostY := a.y.toInt_lt
    have leastOtherX := b.x.le_toInt
    have mostOtherX := b.x.toInt_lt
    have leastOtherY := b.y.le_toInt
    have mostOtherY := b.y.toInt_lt
    omega
  obtain ⟨word, isWord⟩ : ∃ word, uint32?
      (max (a.x.toInt - b.x.toInt).natAbs (a.y.toInt - b.y.toInt).natAbs) = some word :=
    ⟨_, if_pos moves⟩
  unfold guardedDistance? distance
  simp only [int64?_sub, Option.bind_eq_bind, Option.bind_some, toInt_sub_toInt64, isWord]
  exact congrArg some (uint32?_eq_some_iff.mp isWord)

theorem guardedDistanceSquared?_eq {center chunk : ChunkPosition}
    (near : chunk.distance center < 2147483648) :
    chunk.guardedDistanceSquared? center = some (chunk.distanceSquared center) := by
  obtain ⟨dx, dy⟩ := distance_le_iff.mp (Nat.le_of_lt_succ near)
  rw [← toInt_sub_toInt64] at dx dy
  have total := toInt_distanceSquared near
  have horizontal := (toInt_mul_self dx).1
  have vertical := (toInt_mul_self dy).1
  rw [← toInt_sub_toInt64, ← toInt_sub_toInt64, ← horizontal, ← vertical] at total
  unfold guardedDistanceSquared?
  simp only [int64?_sub, Option.bind_eq_bind, Option.bind_some, int64?_eq_some_iff.mpr horizontal,
    int64?_eq_some_iff.mpr vertical]
  exact int64?_eq_some_iff.mpr total

variable {center : ChunkPosition} {radius : UInt32}

/-- A radius that has room is a number of chunks. -/
theorem HasRoom.radius_lt {radius : Nat} (room : center.HasRoom radius) : radius < 2147483648 := by
  obtain ⟨left, right, -, -⟩ := room
  omega

theorem int32?_radius (small : radius.toNat < 2147483648) :
    int32? radius.toNat = some (.ofInt radius.toNat) ∧
      (Int32.ofInt radius.toNat).toInt = radius.toNat ∧
      int32? (-radius.toNat) = some (.ofInt (-radius.toNat)) ∧
      (Int32.ofInt (-radius.toNat)).toInt = -radius.toNat := by
  have reach : int32? radius.toNat = some (.ofInt radius.toNat) := if_pos (by omega)
  have opposite : int32? (-radius.toNat) = some (.ofInt (-radius.toNat)) := if_pos (by omega)
  exact ⟨reach, int32?_eq_some_iff.mp reach, opposite, int32?_eq_some_iff.mp opposite⟩

theorem guardedNeighborhood?_of_small (small : radius.toNat < 2147483648) :
    center.guardedNeighborhood? radius =
      ((span (-radius.toNat) radius.toNat).mapM fun dy =>
        (span (-radius.toNat) radius.toNat).mapM fun dx => center.guardedShift? dx dy).map
          List.flatten := by
  obtain ⟨reach, isReach, opposite, isOpposite⟩ := int32?_radius small
  unfold guardedNeighborhood?
  rw [reach, Option.bind_eq_bind, Option.bind_some, isReach, opposite, Option.bind_eq_bind,
    Option.bind_some, isOpposite]
  dsimp only
  cases (span (-radius.toNat) radius.toNat).mapM fun dy =>
    (span (-radius.toNat) radius.toNat).mapM fun dx => center.guardedShift? dx dy <;> rfl

theorem guardedShift?_eq (room : center.HasRoom radius.toNat) {dx dy : Int}
    (horizontal : dx.natAbs ≤ radius.toNat) (vertical : dy.natAbs ≤ radius.toNat) :
    center.guardedShift? dx dy = some ⟨center.x + .ofInt dx, center.y + .ofInt dy⟩ := by
  have small := room.radius_lt
  have isColumn : (Int32.ofInt dx).toInt = dx := Int32.toInt_ofInt_of_le (by omega) (by omega)
  have isRow : (Int32.ofInt dy).toInt = dy := Int32.toInt_ofInt_of_le (by omega) (by omega)
  have column : int32? (center.x.toInt + dx) = some (center.x + .ofInt dx) := by
    rw [int32?_eq_some_iff, toInt_add_offset (isColumn.symm ▸ horizontal) room.left room.right,
      isColumn]
  have row : int32? (center.y.toInt + dy) = some (center.y + .ofInt dy) := by
    rw [int32?_eq_some_iff, toInt_add_offset (isRow.symm ▸ vertical) room.top room.bottom, isRow]
  unfold guardedShift?
  rw [column, row]
  rfl

theorem guardedShift?_eq_none {dx dy : Int}
    (outside : center.x.toInt + dx < -2147483648 ∨ 2147483647 < center.x.toInt + dx ∨
      center.y.toInt + dy < -2147483648 ∨ 2147483647 < center.y.toInt + dy) :
    center.guardedShift? dx dy = none := by
  unfold guardedShift?
  by_cases column : center.x.toInt + dx < -2147483648 ∨ 2147483647 < center.x.toInt + dx
  · rw [int32?_eq_none column]
    rfl
  · have row : int32? (center.y.toInt + dy) = none := int32?_eq_none (by omega)
    rw [row]
    cases int32? (center.x.toInt + dx) <;> rfl

theorem guardedNeighborhood?_eq (room : center.HasRoom radius.toNat) :
    center.guardedNeighborhood? radius = some (center.neighborhood radius) := by
  have small := room.radius_lt
  have rows : ((span (-radius.toNat) radius.toNat).mapM fun dy =>
      (span (-radius.toNat) radius.toNat).mapM fun dx => center.guardedShift? dx dy) =
        some ((span (-radius.toNat) radius.toNat).map fun dy =>
          (span (-radius.toNat) radius.toNat).map fun dx =>
            (⟨center.x + .ofInt dx, center.y + .ofInt dy⟩ : ChunkPosition)) := by
    refine mapM_eq_some_map fun dy vertical => mapM_eq_some_map fun dx horizontal => ?_
    rw [mem_span] at vertical horizontal
    exact guardedShift?_eq room (by omega) (by omega)
  rw [guardedNeighborhood?_of_small small, rows]
  unfold neighborhood
  rw [offsets_of_small small]
  simp only [Option.map_some, List.map_map, List.flatMap_def, Function.comp_def]

/-- A square without room has a column or a row beyond the last number. -/
theorem exists_beyond (small : radius.toNat < 2147483648)
    (crowded : ¬ center.HasRoom radius.toNat) :
    ∃ dx dy : Int, dx.natAbs ≤ radius.toNat ∧ dy.natAbs ≤ radius.toNat ∧
      (center.x.toInt + dx < -2147483648 ∨ 2147483647 < center.x.toInt + dx ∨
        center.y.toInt + dy < -2147483648 ∨ 2147483647 < center.y.toInt + dy) := by
  have beyond : center.x.toInt - radius.toNat < -2147483648 ∨
      2147483647 < center.x.toInt + radius.toNat ∨ center.y.toInt - radius.toNat < -2147483648 ∨
      2147483647 < center.y.toInt + radius.toNat := by
    by_contra none
    exact crowded ⟨by omega, by omega, by omega, by omega⟩
  rcases beyond with left | right | top | bottom
  · exact ⟨-radius.toNat, 0, by omega, by omega, by omega⟩
  · exact ⟨radius.toNat, 0, by omega, by omega, by omega⟩
  · exact ⟨0, -radius.toNat, by omega, by omega, by omega⟩
  · exact ⟨0, radius.toNat, by omega, by omega, by omega⟩

theorem guardedNeighborhood?_eq_none (crowded : ¬ center.HasRoom radius.toNat) :
    center.guardedNeighborhood? radius = none := by
  by_cases small : radius.toNat < 2147483648
  · obtain ⟨dx, dy, horizontal, vertical, beyond⟩ := exists_beyond small crowded
    have isColumn : dx ∈ span (-radius.toNat) radius.toNat := mem_span.mpr (by omega)
    have isRow : dy ∈ span (-radius.toNat) radius.toNat := mem_span.mpr (by omega)
    have row : ((span (-radius.toNat) radius.toNat).mapM fun dx => center.guardedShift? dx dy) =
        none := mapM_eq_none isColumn (guardedShift?_eq_none beyond)
    rw [guardedNeighborhood?_of_small small, mapM_eq_none isRow row]
    rfl
  · unfold guardedNeighborhood?
    rw [int32?_eq_none (Or.inr (by omega))]
    rfl

/-- The chunks are the whole square around a center, each of them once. -/
structure IsSquare (chunks : List ChunkPosition) (center : ChunkPosition) (radius : Nat) :
    Prop where
  once : chunks.Nodup
  size : chunks.length = (2 * radius + 1) * (2 * radius + 1)
  near : ∀ chunk ∈ chunks, chunk.distance center ≤ radius

theorem length_offsets (small : radius.toNat < 2147483648) :
    (offsets radius).length = 2 * radius.toNat + 1 := by
  rw [offsets_of_small small, List.length_map, length_span]
  omega

theorem nodup_offsets (small : radius.toNat < 2147483648) : (offsets radius).Nodup := by
  rw [offsets_of_small small]
  refine List.Nodup.map_on (fun first inFirst second inSecond same => ?_) (nodup_span _ _)
  rw [mem_span] at inFirst inSecond
  have value : ∀ offset : Int, -(radius.toNat : Int) ≤ offset ∧ offset ≤ radius.toNat →
      (Int32.ofInt offset).toInt = offset := fun offset inside =>
    Int32.toInt_ofInt_of_le (by omega) (by omega)
  rw [← value first inFirst, same, value second inSecond]

theorem length_neighborhood (center : ChunkPosition) (radius : UInt32) :
    (center.neighborhood radius).length = (offsets radius).length * (offsets radius).length := by
  simp [neighborhood, List.length_flatMap, List.map_const']

theorem nodup_neighborhood (center : ChunkPosition) (small : radius.toNat < 2147483648) :
    (center.neighborhood radius).Nodup := by
  have once := nodup_offsets small
  unfold neighborhood
  refine List.nodup_flatMap.mpr ⟨fun dy _ => once.map fun first second same => ?_, ?_⟩
  · exact (Int32.add_right_inj _).mp (ChunkPosition.mk.inj same).1
  · refine once.imp fun {first second} apart => ?_
    intro chunk inFirst inSecond
    obtain ⟨_, -, rfl⟩ := List.mem_map.mp inFirst
    obtain ⟨_, -, same⟩ := List.mem_map.mp inSecond
    exact apart ((Int32.add_right_inj _).mp (ChunkPosition.mk.inj same).2).symm

/-- A number that wraps ends up further away than it was to go. -/
theorem lt_natAbs_of_wraps {coordinate : Int32} {offset : Int} {radius : Nat}
    (small : radius < 2147483648) (near : offset.natAbs ≤ radius)
    (wraps : coordinate.toInt + offset < -2147483648 ∨ 2147483647 < coordinate.toInt + offset) :
    radius < ((coordinate + .ofInt offset).toInt - coordinate.toInt).natAbs := by
  have value : (Int32.ofInt offset).toInt = offset := Int32.toInt_ofInt_of_le (by omega) (by omega)
  have least := coordinate.le_toInt
  have most := coordinate.toInt_lt
  rw [Int32.toInt_add, value, Int.bmod]
  omega

/-- Without room, some chunk of the neighborhood is not within the radius. -/
theorem exists_far (small : radius.toNat < 2147483648) (crowded : ¬ center.HasRoom radius.toNat) :
    ∃ chunk ∈ center.neighborhood radius, radius.toNat < chunk.distance center := by
  obtain ⟨dx, dy, horizontal, vertical, beyond⟩ := exists_beyond small crowded
  have isOffset : ∀ offset : Int, offset.natAbs ≤ radius.toNat → .ofInt offset ∈ offsets radius := by
    intro offset near
    rw [mem_offsets small, Int32.toInt_ofInt_of_le (by omega) (by omega)]
    exact near
  refine ⟨⟨center.x + .ofInt dx, center.y + .ofInt dy⟩, mem_neighborhood_iff.mpr
    ⟨_, isOffset dx horizontal, _, isOffset dy vertical, rfl⟩, lt_max_iff.mpr ?_⟩
  by_cases column : center.x.toInt + dx < -2147483648 ∨ 2147483647 < center.x.toInt + dx
  · exact Or.inl (lt_natAbs_of_wraps small horizontal column)
  · exact Or.inr (lt_natAbs_of_wraps small vertical (by omega))

/-- A radius that is no number of chunks leaves one offset at most. -/
theorem length_offsets_le_one (great : 2147483648 ≤ radius.toNat) : (offsets radius).length ≤ 1 := by
  have most := radius.toNat_lt
  have reach : radius.toInt32.toInt = radius.toNat - 4294967296 := by
    have wrapped := BitVec.toInt_eq_toNat_cond radius.toBitVec
    rw [if_neg (by change ¬ 2 * radius.toNat < 4294967296; omega)] at wrapped
    exact wrapped
  have opposite : 0 < (-radius.toInt32).toInt ∨ (-radius.toInt32).toInt = radius.toInt32.toInt := by
    rw [Int32.toInt_neg, reach, Int.bmod]
    omega
  unfold offsets
  dsimp only
  rw [List.length_map, length_span]
  omega

end ChunkPosition

end Overworld
