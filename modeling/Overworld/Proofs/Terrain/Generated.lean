import Overworld.Proofs.Terrain.RoundTrip
import Overworld.Terrain.Generated

set_option autoImplicit false

/-!
The layers of a generated map. Whatever its seed, a chunk has two square layers, and each is made of
few kinds of tiles.
-/

namespace Overworld

namespace GeneratedMap

/-- The kinds of tiles that the ground is made of, whatever the seed. -/
def groundKinds : List TileId := [.water, .sand, .dirt, .grass]

def decorationKinds : List TileId := [.empty, .rock, .flowers]

variable (map : GeneratedMap) (position : ChunkPosition) (x y : Int)

theorem groundAt_mem : map.groundAt x y ∈ groundKinds := by
  unfold groundAt groundKinds
  dsimp only
  split_ifs <;> simp

theorem decorationAt_mem : map.decorationAt x y ∈ decorationKinds := by
  unfold decorationAt decorationKinds
  dsimp only
  split_ifs <;> simp

theorem length_places :
    (map.places position).length = map.chunkTiles.toNat * map.chunkTiles.toNat := by
  have side : ∀ start : Int,
      (span start (start + map.chunkTiles.toNat - 1)).length = map.chunkTiles.toNat := by
    intro start
    rw [length_span]
    omega
  simp only [places, List.length_flatMap, List.length_map, side, List.map_const',
    List.sum_replicate_nat]

variable {map position} {layer : List TileId}

theorem length_of_mem_layersAt (member : layer ∈ map.layersAt position) :
    layer.length = map.chunkTiles.toNat * map.chunkTiles.toNat := by
  rw [← map.length_places position]
  simp only [layersAt, List.mem_cons, List.not_mem_nil, or_false] at member
  rcases member with rfl | rfl <;> exact List.length_map _

theorem subset_kinds (member : layer ∈ map.layersAt position) :
    layer ⊆ groundKinds ∨ layer ⊆ decorationKinds := by
  simp only [layersAt, List.mem_cons, List.not_mem_nil, or_false] at member
  rcases member with rfl | rfl
  · refine Or.inl fun tile isTile => ?_
    obtain ⟨⟨x, y⟩, -, rfl⟩ := List.mem_map.mp isTile
    exact map.groundAt_mem x y
  · refine Or.inr fun tile isTile => ?_
    obtain ⟨⟨x, y⟩, -, rfl⟩ := List.mem_map.mp isTile
    exact map.decorationAt_mem x y

/-- No layer has more than four kinds of tiles. -/
theorem length_kinds_le (member : layer ∈ map.layersAt position) : layer.eraseDups.length ≤ 4 := by
  rcases subset_kinds member with ground | decoration
  · exact length_eraseDups_le_of_subset ground
  · exact (length_eraseDups_le_of_subset decoration).trans (by decide)

theorem chunkTiles_ofSeed_le (seed : UInt64) {tiles limit : UInt32} (some : 1 ≤ limit)
    (small : tiles ≤ limit) : (ofSeed seed tiles).chunkTiles ≤ limit := by
  unfold ofSeed
  dsimp only
  split
  · exact some
  · exact small

/-- Chunks of at most 256 tiles to a side can be stored. -/
theorem isStorable_toTileMap (small : map.chunkTiles ≤ 256) : map.toTileMap.IsStorable where
  layers position := by
    change 2 < 18446744073709551616
    decide
  tiles position layer member := by
    have side : map.chunkTiles.toNat ≤ 256 := small
    rw [length_of_mem_layersAt member]
    exact Nat.mul_le_mul side side

end GeneratedMap

end Overworld
