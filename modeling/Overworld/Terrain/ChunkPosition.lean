import Overworld.Number.Span
import Overworld.Plane.Vec3

set_option autoImplicit false

/-!
The square chunks that the map is cut into, by their column and row.
-/

namespace Overworld

structure ChunkPosition where
  x : Int32
  y : Int32
deriving DecidableEq, Hashable, Inhabited

namespace ChunkPosition

/-- The chunk that holds a point, for tiles of the given size and so many tiles to a side. -/
def containing (position : Vec3) (tileSize : Single) (chunkTiles : UInt32) : ChunkPosition :=
  let side := tileSize * .ofNat chunkTiles.toNat
  ⟨.ofInt (position.x / side).floorInt32, .ofInt (position.y / side).floorInt32⟩

/-- King's moves from one chunk to the other. -/
def distance (a b : ChunkPosition) : Nat :=
  max (a.x.toInt - b.x.toInt).natAbs (a.y.toInt - b.y.toInt).natAbs

/-- Square of the straight distance between two chunks as a signed word, which holds it exactly for
less than 2³¹ king's moves and wraps beyond. -/
def distanceSquared (a b : ChunkPosition) : Int64 :=
  let dx := a.x.toInt64 - b.x.toInt64
  let dy := a.y.toInt64 - b.y.toInt64
  dx * dx + dy * dy

/-- Offsets along one axis within `radius`. -/
def offsets (radius : UInt32) : List Int32 :=
  let reach := radius.toInt32
  (span (-reach).toInt reach.toInt).map Int32.ofInt

/-- The square of chunks within `radius`, row by row. -/
def neighborhood (center : ChunkPosition) (radius : UInt32) : List ChunkPosition :=
  (offsets radius).flatMap fun dy =>
    (offsets radius).map fun dx => ⟨center.x + dx, center.y + dy⟩

/-- Chunks by column, then by row. -/
def precedes (a b : ChunkPosition) : Bool := a.x < b.x || (a.x == b.x && a.y ≤ b.y)

end ChunkPosition

end Overworld
