import Overworld.Proofs.Number.Guarded
import Overworld.Proofs.Terrain.Generated

set_option autoImplicit false

/-!
A generated map and its chunks. Every tile is one entry of one chunk, and every entry one tile, so that
the map does not depend on how it is cut.
-/

namespace Overworld

/-- Items in rows of one width are found by row and column. -/
theorem getElem?_flatMap_row {α β : Type} {items : List α} {cells : α → List β} {width : Nat}
    (wide : ∀ item, (cells item).length = width) (row : Nat) {column : Nat} (inside : column < width) :
    (items.flatMap cells)[row * width + column]? =
      items[row]?.bind fun item => (cells item)[column]? := by
  induction items generalizing row with
  | nil => rfl
  | cons first rest ih =>
      rw [List.flatMap_cons]
      cases row with
      | zero =>
          have here : 0 * width + column < (cells first).length := by
            rw [wide]
            omega
          rw [List.getElem?_append_left here, Nat.zero_mul, Nat.zero_add]
          rfl
      | succ row =>
          have beyond : (row + 1) * width + column = (cells first).length + (row * width + column) := by
            rw [wide, Nat.succ_mul]
            omega
          rw [beyond, List.getElem?_append_right (Nat.le_add_right _ _), Nat.add_sub_cancel_left, ih]
          rfl

theorem getElem?_span {low high : Int} {offset : Nat} (inside : low + offset ≤ high) :
    (span low high)[offset]? = some (low + offset) := by
  have short : offset < (high - low + 1).toNat := by omega
  rw [span, List.getElem?_map, List.getElem?_range short]
  rfl

/-- Where a block of tiles and a place within it meet. -/
theorem eq_block_add_iff {side place : Nat} (inside : place < side) (block x : Int) :
    block * side + place = x ↔ x / side = block ∧ x % side = place := by
  have positive : (0 : Int) < side := by omega
  rw [Int.ediv_emod_unique positive, Int.mul_comm, Int.add_comm]
  omega

namespace GeneratedMap

/-- The chunk that a tile is in, where there is one with such a column and row. -/
def chunkOf? (map : GeneratedMap) (x y : Int) : Option ChunkPosition := do
  let column ← int32? (x / map.chunkTiles.toNat)
  let row ← int32? (y / map.chunkTiles.toNat)
  return ⟨column, row⟩

/-- The place of a tile among the entries of its chunk, row by row. -/
def indexOf (map : GeneratedMap) (x y : Int) : Nat :=
  (y % map.chunkTiles.toNat).toNat * map.chunkTiles.toNat + (x % map.chunkTiles.toNat).toNat

/-- A tile of a layer as it is read through the chunk that it is in. -/
def tile? (map : GeneratedMap) (layer : Nat) (x y : Int) : Option TileId := do
  let chunk ← map.chunkOf? x y
  let tiles ← (map.layersAt chunk)[layer]?
  tiles[map.indexOf x y]?

variable {map : GeneratedMap} {chunk : ChunkPosition} {x y : Int} {index : Nat}

theorem chunkOf?_eq_some_iff :
    map.chunkOf? x y = some chunk ↔
      x / map.chunkTiles.toNat = chunk.x.toInt ∧ y / map.chunkTiles.toNat = chunk.y.toInt := by
  obtain ⟨column, row⟩ := chunk
  have block : ∀ (value : Int) (word : Int32), value = word.toInt ↔ int32? value = some word :=
    fun value word => eq_comm.trans int32?_eq_some_iff.symm
  rw [block, block, chunkOf?]
  cases int32? (x / map.chunkTiles.toNat) <;> cases int32? (y / map.chunkTiles.toNat) <;> simp

theorem getElem?_places {row column : Nat} (below : row < map.chunkTiles.toNat)
    (inside : column < map.chunkTiles.toNat) :
    (map.places chunk)[row * map.chunkTiles.toNat + column]? =
      some (chunk.x.toInt * map.chunkTiles.toNat + column,
        chunk.y.toInt * map.chunkTiles.toNat + row) := by
  have wide : ∀ y : Int, ((span (chunk.x.toInt * map.chunkTiles.toNat)
      (chunk.x.toInt * map.chunkTiles.toNat + map.chunkTiles.toNat - 1)).map
        fun x => (x, y)).length = map.chunkTiles.toNat := by
    intro y
    rw [List.length_map, length_span]
    omega
  unfold places
  dsimp only
  rw [getElem?_flatMap_row wide row inside, getElem?_span (by omega), Option.bind_some,
    List.getElem?_map, getElem?_span (by omega), Option.map_some]

/-- The entries of a chunk are the tiles that are in it, each at its place. -/
theorem getElem?_places_eq_some_iff (positive : 0 < map.chunkTiles.toNat) :
    (map.places chunk)[index]? = some (x, y) ↔
      map.chunkOf? x y = some chunk ∧ map.indexOf x y = index := by
  rw [chunkOf?_eq_some_iff, indexOf]
  constructor
  · intro entry
    have short : index < map.chunkTiles.toNat * map.chunkTiles.toNat := by
      rw [← map.length_places]
      exact (List.getElem?_eq_some_iff.mp entry).1
    have column := Nat.mod_lt index positive
    have row := (Nat.div_lt_iff_lt_mul positive).mpr short
    have split := Nat.div_add_mod' index map.chunkTiles.toNat
    rw [← split, getElem?_places row column, Option.some_inj, Prod.mk.injEq,
      eq_block_add_iff column, eq_block_add_iff row] at entry
    obtain ⟨⟨blockX, placeX⟩, blockY, placeY⟩ := entry
    refine ⟨⟨blockX, blockY⟩, ?_⟩
    rw [placeX, placeY, Int.toNat_natCast, Int.toNat_natCast, split]
  · rintro ⟨⟨blockX, blockY⟩, rfl⟩
    have side : (0 : Int) < map.chunkTiles.toNat := Int.natCast_pos.mpr positive
    have column := Int.emod_nonneg x (Int.ne_of_gt side)
    have row := Int.emod_nonneg y (Int.ne_of_gt side)
    have short := Int.emod_lt_of_pos x side
    have below := Int.emod_lt_of_pos y side
    rw [getElem?_places (by omega) (by omega), Option.some_inj, Prod.mk.injEq,
      eq_block_add_iff (by omega), eq_block_add_iff (by omega)]
    omega

/-- The tiles at one place, the layers from below. -/
def column (map : GeneratedMap) (x y : Int) : List TileId := [map.groundAt x y, map.decorationAt x y]

theorem getElem?_layersAt (layer index : Nat) :
    ((map.layersAt chunk)[layer]?.bind fun tiles => tiles[index]?) =
      (map.places chunk)[index]?.bind fun place => (map.column place.1 place.2)[layer]? := by
  match layer with
  | 0 => simp [layersAt, column, Option.map_eq_bind]
  | 1 => simp [layersAt, column, Option.map_eq_bind]
  | _ + 2 => simp [layersAt, column]

/-- What is read of a tile through its chunk is what stands there. -/
theorem tile?_eq (positive : 0 < map.chunkTiles.toNat) (layer : Nat) (x y : Int) :
    map.tile? layer x y = (map.chunkOf? x y).bind fun _ => (map.column x y)[layer]? := by
  change ((map.chunkOf? x y).bind fun chunk => (map.layersAt chunk)[layer]?.bind fun tiles =>
    tiles[map.indexOf x y]?) = _
  cases inside : map.chunkOf? x y with
  | none => rfl
  | some chunk =>
      have entry := (getElem?_places_eq_some_iff positive).mpr ⟨inside, rfl⟩
      rw [Option.bind_some, getElem?_layersAt, entry]
      rfl

theorem chunkTiles_ofSeed (seed : UInt64) (tiles : UInt32) :
    (ofSeed seed tiles).chunkTiles.toNat = max tiles.toNat 1 :=
  toNat_ite_eq_zero tiles

theorem mem_places_iff (positive : 0 < map.chunkTiles.toNat) {tile : Int × Int} :
    tile ∈ map.places chunk ↔ map.chunkOf? tile.1 tile.2 = some chunk := by
  rw [List.mem_iff_getElem?]
  constructor
  · rintro ⟨index, entry⟩
    exact ((getElem?_places_eq_some_iff positive).mp entry).1
  · intro inside
    exact ⟨_, (getElem?_places_eq_some_iff positive).mpr ⟨inside, rfl⟩⟩

/-- Every place of a chunk is that of one tile. -/
theorem existsUnique_tile (positive : 0 < map.chunkTiles.toNat) (chunk : ChunkPosition)
    (inside : index < map.chunkTiles.toNat * map.chunkTiles.toNat) :
    ∃! tile : Int × Int,
      map.chunkOf? tile.1 tile.2 = some chunk ∧ map.indexOf tile.1 tile.2 = index := by
  rw [← map.length_places chunk] at inside
  have entry := List.getElem?_eq_getElem inside
  refine ⟨(map.places chunk)[index], (getElem?_places_eq_some_iff positive).mp entry, ?_⟩
  intro tile placed
  have same := (getElem?_places_eq_some_iff positive).mpr placed
  rw [entry] at same
  exact (Option.some_inj.mp same).symm

/-- The chunks of a generated map partition its tiles, whatever the seed and the side of the chunks.
Each of the two layers of a chunk is a square whose entries are those of the tiles that lie in the
chunk, found by quotient and remainder, which are rounded down on both sides of the origin. Every
place of a chunk is that of one tile, and no tile is in two chunks. So the map reads the same through
chunks of any other side. -/
theorem chunks_partition_tiles (seed : UInt64) (tiles : UInt32) :
    (ofSeed seed tiles).chunkTiles.toNat = max tiles.toNat 1 ∧
    let map := ofSeed seed tiles
    let side : Nat := max tiles.toNat 1
    (∀ (x y : Int) (chunk : ChunkPosition),
      map.chunkOf? x y = some chunk ↔ x / side = chunk.x.toInt ∧ y / side = chunk.y.toInt) ∧
    (∀ x y : Int, map.indexOf x y = (y % side).toNat * side + (x % side).toNat) ∧
    (∀ (x y : Int) (chunk : ChunkPosition), map.chunkOf? x y = some chunk →
      ((map.layersAt chunk)[0]?.bind fun ground => ground[map.indexOf x y]?) =
        some (map.groundAt x y) ∧
      ((map.layersAt chunk)[1]?.bind fun decoration => decoration[map.indexOf x y]?) =
        some (map.decorationAt x y)) ∧
    (∀ chunk, (map.layersAt chunk).length = 2 ∧
      ∀ layer ∈ map.layersAt chunk, layer.length = side * side) ∧
    (∀ chunk index, index < side * side → ∃! tile : Int × Int,
      map.chunkOf? tile.1 tile.2 = some chunk ∧ map.indexOf tile.1 tile.2 = index) ∧
    (∀ tile chunk other, tile ∈ map.places chunk → tile ∈ map.places other → chunk = other) ∧
    ∀ (others : UInt32) (layer : Nat) (x y : Int), (map.chunkOf? x y).isSome →
      ((ofSeed seed others).chunkOf? x y).isSome →
      map.tile? layer x y = (ofSeed seed others).tile? layer x y := by
  refine ⟨chunkTiles_ofSeed seed tiles, ?_⟩
  intro map side
  have isSide : map.chunkTiles.toNat = side := chunkTiles_ofSeed seed tiles
  have positive : 0 < map.chunkTiles.toNat := by omega
  refine ⟨?_, ?_, ?_, ?_, ?_, ?_, ?_⟩
  · intro x y chunk
    rw [← isSide]
    exact chunkOf?_eq_some_iff
  · intro x y
    rw [← isSide]
    rfl
  · intro x y chunk inside
    have entry := (getElem?_places_eq_some_iff positive).mpr ⟨inside, rfl⟩
    rw [getElem?_layersAt, getElem?_layersAt, entry]
    exact ⟨rfl, rfl⟩
  · intro chunk
    rw [← isSide]
    exact ⟨rfl, fun layer member => length_of_mem_layersAt member⟩
  · intro chunk index inside
    rw [← isSide] at inside
    exact existsUnique_tile positive chunk inside
  · intro tile chunk other here there
    rw [mem_places_iff positive] at here there
    exact Option.some_inj.mp (here.symm.trans there)
  · intro others layer x y inside within
    have another : 0 < (ofSeed seed others).chunkTiles.toNat := by
      rw [chunkTiles_ofSeed]
      omega
    obtain ⟨chunk, isIt⟩ := Option.isSome_iff_exists.mp inside
    obtain ⟨other, isOther⟩ := Option.isSome_iff_exists.mp within
    rw [tile?_eq positive, tile?_eq another, isIt, isOther]
    rfl

example : (ofSeed 42 16).chunkOf? (-1) (-17) = some ⟨-1, -2⟩ ∧
    (ofSeed 42 16).indexOf (-1) (-17) = 15 * 16 + 15 := by
  decide

end GeneratedMap

end Overworld
