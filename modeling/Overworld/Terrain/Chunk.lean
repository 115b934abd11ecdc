import Overworld.Terrain.ChunkPosition
import Overworld.Terrain.Palette

set_option autoImplicit false

/-!
The tiles of one chunk, in layers, and their compressed form.
-/

namespace Overworld

/-- Where the tiles of chunks come from: so many tiles to a side, and the layers of each chunk, row
by row. -/
structure TileMap where
  chunkTiles : UInt32
  layersAt : ChunkPosition → List (List TileId)

structure ChunkData where
  position : ChunkPosition
  layers : List PaletteLayer
deriving DecidableEq, Inhabited

namespace ChunkData

def compress (position : ChunkPosition) (layers : List (List TileId)) : ChunkData :=
  ⟨position, layers.map PaletteLayer.compress⟩

def ofMap (map : TileMap) (position : ChunkPosition) : ChunkData :=
  compress position (map.layersAt position)

/-- The layers in order, or what is wrong with the first bad one. -/
def decompress (chunk : ChunkData) : Except PaletteError (List (List TileId)) :=
  chunk.layers.mapM PaletteLayer.decompress

end ChunkData

end Overworld
