import Mathlib.Data.Prod.Lex
import Overworld.Server.Streamer

set_option autoImplicit false

/-!
Chunks around a center: which of them lie within a radius, and in which order they are sent. Words
of 32 bits number the chunks, so a radius has to leave room for them.
-/

namespace Overworld

namespace ChunkPosition

/-- No chunk within `radius` lies beyond the last number along an axis. -/
structure HasRoom (center : ChunkPosition) (radius : Nat) : Prop where
  left : -2147483648 ≤ center.x.toInt - radius
  right : center.x.toInt + radius ≤ 2147483647
  top : -2147483648 ≤ center.y.toInt - radius
  bottom : center.y.toInt + radius ≤ 2147483647

theorem distance_le_iff {a b : ChunkPosition} {radius : Nat} :
    a.distance b ≤ radius ↔
      (a.x.toInt - b.x.toInt).natAbs ≤ radius ∧ (a.y.toInt - b.y.toInt).natAbs ≤ radius :=
  Nat.max_le

theorem offsets_of_small {radius : UInt32} (small : radius.toNat < 2147483648) :
    offsets radius = (span (-radius.toNat) radius.toNat).map Int32.ofInt := by
  have reach : radius.toInt32.toInt = radius.toNat :=
    BitVec.toInt_eq_toNat_of_lt (x := radius.toBitVec) (by
      change 2 * radius.toNat < 4294967296
      omega)
  have opposite : (-radius.toInt32).toInt = -radius.toNat := by
    rw [Int32.toInt_neg, reach]
    exact Int.bmod_eq_of_le (by omega) (by omega)
  unfold offsets
  dsimp only
  rw [opposite, reach]

theorem mem_offsets {radius : UInt32} (small : radius.toNat < 2147483648) {offset : Int32} :
    offset ∈ offsets radius ↔ offset.toInt.natAbs ≤ radius.toNat := by
  have range := offset.toInt_lt
  simp only [offsets_of_small small, List.mem_map, mem_span]
  constructor
  · rintro ⟨value, ⟨lower, upper⟩, rfl⟩
    rw [Int32.toInt_ofInt_of_le (by omega) (by omega)]
    omega
  · intro inside
    exact ⟨offset.toInt, by omega, Int32.ofInt_toInt offset⟩

theorem toInt_add_offset {coordinate offset : Int32} {radius : Nat}
    (near : offset.toInt.natAbs ≤ radius) (lower : -2147483648 ≤ coordinate.toInt - radius)
    (upper : coordinate.toInt + radius ≤ 2147483647) :
    (coordinate + offset).toInt = coordinate.toInt + offset.toInt := by
  rw [Int32.toInt_add]
  exact Int.bmod_eq_of_le (by omega) (by omega)

theorem toInt_sub_coordinate {coordinate center : Int32} {radius : Nat} (small : radius < 2147483648)
    (near : (coordinate.toInt - center.toInt).natAbs ≤ radius) :
    (coordinate - center).toInt = coordinate.toInt - center.toInt := by
  rw [Int32.toInt_sub]
  exact Int.bmod_eq_of_le (by omega) (by omega)

theorem mem_neighborhood_iff {center chunk : ChunkPosition} {radius : UInt32} :
    chunk ∈ center.neighborhood radius ↔
      ∃ dx ∈ offsets radius, ∃ dy ∈ offsets radius, chunk = ⟨center.x + dx, center.y + dy⟩ := by
  simp only [neighborhood, List.mem_flatMap, List.mem_map]
  constructor
  · rintro ⟨dy, vertical, dx, horizontal, rfl⟩
    exact ⟨dx, horizontal, dy, vertical, rfl⟩
  · rintro ⟨dx, horizontal, dy, vertical, rfl⟩
    exact ⟨dy, vertical, dx, horizontal, rfl⟩

/-- Every chunk within the radius is in the neighborhood. -/
theorem mem_neighborhood_of_distance_le {center chunk : ChunkPosition} {radius : UInt32}
    (small : radius.toNat < 2147483648) (near : chunk.distance center ≤ radius.toNat) :
    chunk ∈ center.neighborhood radius := by
  obtain ⟨horizontal, vertical⟩ := distance_le_iff.mp near
  refine mem_neighborhood_iff.mpr ⟨chunk.x - center.x, ?_, chunk.y - center.y, ?_, ?_⟩
  · rw [mem_offsets small, toInt_sub_coordinate small horizontal]
    exact horizontal
  · rw [mem_offsets small, toInt_sub_coordinate small vertical]
    exact vertical
  · rw [Int32.add_comm, Int32.sub_add_cancel, Int32.add_comm, Int32.sub_add_cancel]

/-- The neighborhood of a center with room around it holds no other chunks. -/
theorem distance_le_of_mem_neighborhood {center chunk : ChunkPosition} {radius : UInt32}
    (small : radius.toNat < 2147483648) (room : center.HasRoom radius.toNat)
    (member : chunk ∈ center.neighborhood radius) : chunk.distance center ≤ radius.toNat := by
  obtain ⟨dx, horizontal, dy, vertical, rfl⟩ := mem_neighborhood_iff.mp member
  rw [mem_offsets small] at horizontal vertical
  rw [distance_le_iff, toInt_add_offset horizontal room.left room.right,
    toInt_add_offset vertical room.top room.bottom]
  omega

/-- What chunks are sorted by: king's moves to the center, the straight distance as a word, row and
column. -/
def sendingKey (center chunk : ChunkPosition) : Nat ×ₗ Int ×ₗ Int ×ₗ Int :=
  toLex (chunk.distance center, toLex ((chunk.distanceSquared center).toInt,
    toLex (chunk.y.toInt, chunk.x.toInt)))

/-- King's moves to the center, the square of the straight distance, row and column. -/
def remoteness (center chunk : ChunkPosition) : Nat ×ₗ Int ×ₗ Int ×ₗ Int :=
  toLex (chunk.distance center, toLex (
    (chunk.x.toInt - center.x.toInt) * (chunk.x.toInt - center.x.toInt) +
      (chunk.y.toInt - center.y.toInt) * (chunk.y.toInt - center.y.toInt),
    toLex (chunk.y.toInt, chunk.x.toInt)))

theorem sendingKey_injective (center : ChunkPosition) : Function.Injective (sendingKey center) := by
  intro a b same
  simp only [sendingKey, toLex_inj, Prod.mk.injEq, Int32.toInt_inj] at same
  obtain ⟨-, -, row, column⟩ := same
  cases a
  cases b
  cases row
  cases column
  rfl

theorem nearer_iff {center a b : ChunkPosition} :
    Streamer.nearer center a b = true ↔ sendingKey center a ≤ sendingKey center b := by
  simp only [sendingKey, Prod.Lex.le_iff, ofLex_toLex, Streamer.nearer]
  by_cases distance : a.distance center = b.distance center
  · by_cases squared : a.distanceSquared center = b.distanceSquared center
    · by_cases row : a.y = b.y <;>
        simp [distance, squared, row, Int32.lt_iff_toInt_lt, Int32.le_iff_toInt_le,
          Int32.toInt_inj]
    · simp [distance, squared, Int64.lt_iff_toInt_lt, Int64.toInt_inj]
  · simp [distance]

theorem nearer_trans (center a b c : ChunkPosition) (first : Streamer.nearer center a b = true)
    (second : Streamer.nearer center b c = true) : Streamer.nearer center a c = true :=
  nearer_iff.mpr (le_trans (nearer_iff.mp first) (nearer_iff.mp second))

theorem nearer_total (center a b : ChunkPosition) :
    (Streamer.nearer center a b || Streamer.nearer center b a) = true := by
  rw [Bool.or_eq_true, nearer_iff, nearer_iff]
  exact le_total _ _

theorem nearer_antisymm (center a b : ChunkPosition) (first : Streamer.nearer center a b = true)
    (second : Streamer.nearer center b a = true) : a = b :=
  sendingKey_injective center (le_antisymm (nearer_iff.mp first) (nearer_iff.mp second))

/-- Numbers of chunks are that much smaller than words of 64 bits. -/
theorem toInt_sub_toInt64 (a b : Int32) : (a.toInt64 - b.toInt64).toInt = a.toInt - b.toInt := by
  have least := a.le_toInt
  have most := a.toInt_lt
  have leastOther := b.le_toInt
  have mostOther := b.toInt_lt
  rw [Int64.toInt_sub, Int32.toInt_toInt64, Int32.toInt_toInt64]
  exact Int.bmod_eq_of_le (by omega) (by omega)

theorem toInt_mul_self {d : Int64} (small : d.toInt.natAbs ≤ 2147483647) :
    (d * d).toInt = d.toInt * d.toInt ∧ 0 ≤ d.toInt * d.toInt ∧
      d.toInt * d.toInt ≤ 4611686014132420609 := by
  have square : d.toInt * d.toInt = (d.toInt.natAbs * d.toInt.natAbs : Nat) :=
    Int.natAbs_mul_self.symm
  have bound := Nat.mul_le_mul small small
  refine ⟨?_, by omega, by omega⟩
  rw [Int64.toInt_mul]
  exact Int.bmod_eq_of_le (by omega) (by omega)

/-- Within 2^31 king's moves the word holds the square of the straight distance. -/
theorem toInt_distanceSquared {center chunk : ChunkPosition}
    (near : chunk.distance center < 2147483648) :
    (chunk.distanceSquared center).toInt =
      (chunk.x.toInt - center.x.toInt) * (chunk.x.toInt - center.x.toInt) +
        (chunk.y.toInt - center.y.toInt) * (chunk.y.toInt - center.y.toInt) := by
  obtain ⟨dx, dy⟩ := distance_le_iff.mp (Nat.le_of_lt_succ near)
  rw [← toInt_sub_toInt64] at dx dy
  obtain ⟨horizontal, left, right⟩ := toInt_mul_self dx
  obtain ⟨vertical, top, bottom⟩ := toInt_mul_self dy
  rw [← toInt_sub_toInt64, ← toInt_sub_toInt64, ← horizontal, ← vertical]
  unfold distanceSquared
  rw [Int64.toInt_add]
  exact Int.bmod_eq_of_le (by omega) (by omega)

theorem sendingKey_eq_remoteness {center chunk : ChunkPosition}
    (near : chunk.distance center < 2147483648) :
    sendingKey center chunk = remoteness center chunk := by
  rw [sendingKey, toInt_distanceSquared near, remoteness]

end ChunkPosition

end Overworld
