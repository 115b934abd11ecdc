import Overworld.Terrain.Chunk

set_option autoImplicit false

/-!
A map without end that a seed determines. Each tile is a function of the seed and its place: blocks
of eight by eight tiles share a biome, and single tiles are speckled and decorated.
-/

namespace Overworld

namespace TileId

def empty : TileId := 0
def grass : TileId := 1
def dirt : TileId := 2
def water : TileId := 3
def sand : TileId := 4
def flowers : TileId := 10
def rock : TileId := 11

end TileId

structure GeneratedMap where
  seed : UInt64
  chunkTiles : UInt32
deriving DecidableEq

namespace GeneratedMap

/-- A chunk has at least one tile to a side. -/
def ofSeed (seed : UInt64) (chunkTiles : UInt32) : GeneratedMap :=
  ⟨seed, if chunkTiles = 0 then 1 else chunkTiles⟩

/-- Scrambles a place and a salt under the seed. -/
def scramble (map : GeneratedMap) (x y : Int) (salt : UInt64) : UInt64 :=
  let z := map.seed + salt * 0x9e3779b97f4a7c15 + .ofInt x * 0xbf58476d1ce4e5b9 +
    .ofInt y * 0x94d049bb133111eb
  let z := (z ^^^ z >>> 30) * 0xbf58476d1ce4e5b9
  let z := (z ^^^ z >>> 27) * 0x94d049bb133111eb
  z ^^^ z >>> 31

def groundAt (map : GeneratedMap) (x y : Int) : TileId :=
  let biome := map.scramble (x / 8) (y / 8) 1 % 10
  let speckle := map.scramble x y 2 % 16
  if biome = 0 then .water
  else if biome = 1 ∧ speckle < 12 then .sand
  else if (biome = 2 ∨ biome = 3) ∧ speckle < 10 then .dirt
  else .grass

/-- Nothing stands on water. -/
def decorationAt (map : GeneratedMap) (x y : Int) : TileId :=
  if map.groundAt x y = .water then .empty
  else
    let draw := map.scramble x y 3 % 32
    if draw = 0 then .rock
    else if draw = 1 ∨ draw = 2 then .flowers
    else .empty

/-- The places of a chunk, row by row. -/
def places (map : GeneratedMap) (chunk : ChunkPosition) : List (Int × Int) :=
  let side : Int := map.chunkTiles.toNat
  let column := chunk.x.toInt * side
  let row := chunk.y.toInt * side
  (span row (row + side - 1)).flatMap fun y => (span column (column + side - 1)).map fun x => (x, y)

/-- The ground below, the decoration above. -/
def layersAt (map : GeneratedMap) (chunk : ChunkPosition) : List (List TileId) :=
  let places := map.places chunk
  [places.map fun (x, y) => map.groundAt x y, places.map fun (x, y) => map.decorationAt x y]

def toTileMap (map : GeneratedMap) : TileMap := ⟨map.chunkTiles, map.layersAt⟩

end GeneratedMap

end Overworld
