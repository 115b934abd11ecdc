import Std.Data.HashSet
import Overworld.Terrain.ChunkPosition

set_option autoImplicit false

/-!
Which map chunks one client is sent, and when. The chunks around the client's entity are sent once,
nearest first; crossing a border sends those that came into range. A chunk is sent again only after
its tiles changed.
-/

namespace Overworld

structure StreamRules where
  tileSize : Single
  chunkTiles : UInt32
  /-- The distance, in chunks, within which chunks are kept sent. -/
  viewRadius : UInt32
deriving DecidableEq

namespace StreamRules

/-- Chunks beyond the edge of the view that are sent ahead. -/
def margin : UInt32 := 1

/-- The radius covers a view of the given size from anywhere in the owner's chunk, and the margin. -/
def forView (viewWidth viewHeight tileSize : Single) (chunkTiles : UInt32) : StreamRules :=
  let side := (tileSize * .ofNat (max chunkTiles.toNat 1)).greatest .epsilon
  let half := ((viewWidth.greatest viewHeight).greatest .zero) * .half
  ⟨tileSize, chunkTiles, (half / side).ceilUInt32.toUInt32 + margin⟩

/-- For the standard view over chunks of sixteen tiles of sixteen units. -/
def standard : StreamRules := forView ⟨0x44200000⟩ ⟨0x43f00000⟩ ⟨0x41800000⟩ 16

def chunkOf (rules : StreamRules) (position : Vec3) : ChunkPosition :=
  .containing position rules.tileSize rules.chunkTiles

end StreamRules

structure Streamer where
  rules : StreamRules
  /-- The chunk the owner stood in at the last update. -/
  lastChunk : Option ChunkPosition
  /-- The chunks that the client holds. -/
  streamed : Std.HashSet ChunkPosition
  /-- Changed chunks in range, to be sent again. -/
  pending : List ChunkPosition

namespace Streamer

def ofRules (rules : StreamRules) : Streamer := ⟨rules, none, ∅, []⟩

/-- Nearest first: by distance, then by straight distance, then by row and column. -/
def nearer (center a b : ChunkPosition) : Bool :=
  if a.distance center ≠ b.distance center then a.distance center < b.distance center
  else if a.distanceSquared center ≠ b.distanceSquared center then
    a.distanceSquared center < b.distanceSquared center
  else if a.y ≠ b.y then a.y < b.y
  else a.x ≤ b.x

/-- The chunks that came into range since the last update; all of them at first. -/
def arrivals (streamer : Streamer) (current : ChunkPosition) : List ChunkPosition :=
  let around := current.neighborhood streamer.rules.viewRadius
  match streamer.lastChunk with
  | none => around
  | some previous =>
    if previous = current then []
    else around.filter fun chunk => streamer.rules.viewRadius.toNat < chunk.distance previous

/-- The chunks to send to an owner now at `position`, nearest first; they count as sent. -/
def update (streamer : Streamer) (position : Vec3) : List ChunkPosition × Streamer :=
  let current := streamer.rules.chunkOf position
  let again := streamer.pending.filter fun chunk =>
    chunk.distance current ≤ streamer.rules.viewRadius.toNat
  let wanted := (again ++ streamer.arrivals current).filter fun chunk =>
    !streamer.streamed.contains chunk
  let chunks := (wanted.mergeSort (nearer current)).eraseReps
  (chunks,
    { streamer with
      lastChunk := some current
      streamed := streamer.streamed.insertMany chunks
      pending := [] })

/-- Forgets where the owner stood, so that the next update looks at its whole surroundings. -/
def reset (streamer : Streamer) : Streamer := { streamer with lastChunk := none }

/-- Marks the tiles of a chunk as changed; it is sent again when it is in range. -/
def invalidate (streamer : Streamer) (chunk : ChunkPosition) : Streamer :=
  if streamer.streamed.contains chunk then
    let inRange := match streamer.lastChunk with
      | none => false
      | some current => chunk.distance current ≤ streamer.rules.viewRadius.toNat
    { streamer with
      streamed := streamer.streamed.erase chunk
      pending := if inRange then streamer.pending ++ [chunk] else streamer.pending }
  else streamer

end Streamer

end Overworld
