import Overworld.Server.Connection
import Overworld.Server.Metrics
import Overworld.World.Basic

set_option autoImplicit false

/-!
What one client is told at the end of a tick: the entities that left and entered its view, the map
chunks that came into range, its own entity, and the entities in view that changed. Entities in view
are looked at every third tick, and at once where they are marked as dirty.
-/

namespace Overworld

def Snapshot.ofEntity (tick : Tick) (id : EntityId) (entity : Entity) : Snapshot :=
  ⟨tick, id, entity.motion.position, entity.motion.velocity, entity.keys, entity.halfExtent⟩

/-- The distance that counts as a move, 0.05. -/
def positionTolerance : Single := ⟨0x3d4ccccd⟩

/-- The difference in velocity that counts as a change, 0.5. -/
def velocityTolerance : Single := .half

/-- Whether an observer who was sent the first snapshot needs the second. -/
def Snapshot.differs (previous current : Snapshot) : Bool :=
  previous.keys ≠ current.keys ∨
    positionTolerance < previous.position.planarDistance current.position ∨
    velocityTolerance < previous.velocity.planarDistance current.velocity ∨
    !previous.position.z.sameValue current.position.z

/-- Ticks from one look at the entities in view to the next. -/
def observationInterval : UInt64 := 3

/-- The last snapshots sent, by entity. -/
abbrev Observed := Std.HashMap EntityId Snapshot

namespace Observed

def forget (observed : Observed) (entities : List EntityId) : Observed :=
  entities.foldl (fun observed entity => observed.erase entity) observed

def record (observed : Observed) (snapshots : List Snapshot) : Observed :=
  snapshots.foldl (fun observed snapshot => observed.insert snapshot.entity snapshot) observed

/-- The snapshot due of an entity in view, if any. -/
def update? (observed : Observed) (world : World) (id : EntityId) : Option Snapshot :=
  match world.get? id with
  | none => none
  | some entity =>
    let current := Snapshot.ofEntity world.tick id entity
    let changed : Bool := match observed[id]? with
      | none => true
      | some previous => previous.differs current
    if entity.dirty ∨ (world.tick % observationInterval = 0 ∧ changed) then some current else none

end Observed

/-- The snapshot of an entity of the world at its tick. -/
def World.snapshot? (world : World) (id : EntityId) : Option Snapshot :=
  (world.get? id).map (Snapshot.ofEntity world.tick id)

/-- What a client is told at the end of a tick, and how much of each kind. -/
structure Replication where
  messages : List ServerMessage
  /-- The connection after them. -/
  connection : Connection
  entered : UInt64
  left : UInt64
  updates : UInt64
  chunks : UInt64

/-- Nothing to tell. -/
def Replication.nothing (connection : Connection) : Replication := ⟨[], connection, 0, 0, 0, 0⟩

/-- Looks at the world for a client at the end of the tick. -/
def Connection.replicate (connection : Connection) (world : World) (map : TileMap) : Replication :=
  match world.get? connection.entity with
  | none => .nothing connection
  | some owner =>
    let position := owner.motion.position
    let (delta, interest) := connection.interest.update connection.entity position world.grid
    let (chunks, streamer) := connection.streamer.update position
    let arrivals := delta.entered.filterMap world.snapshot?
    let observed := (Observed.forget connection.observed delta.left).record arrivals
    let remaining := interest.visible.filter (!delta.entered.contains ·)
    let updates := remaining.filterMap (Observed.update? observed world)
    { messages := delta.left.map (.entityLeft world.tick) ++
        arrivals.map .entityEntered ++
        chunks.map (fun chunk => .chunkData (.ofMap map chunk)) ++
        [.entityUpdate (.ofEntity world.tick connection.entity owner)] ++
        updates.map .entityUpdate
      connection := { connection with interest, streamer, observed := observed.record updates }
      entered := .ofNat arrivals.length
      left := .ofNat delta.left.length
      updates := 1 + .ofNat updates.length
      chunks := .ofNat chunks.length }

/-- Counts what one client was told. -/
@[irreducible] def Metrics.recordReplication (metrics : Metrics) (told : Replication) : Metrics :=
  let metrics := metrics.add .interestEnters told.entered
  let metrics := metrics.add .interestLeaves told.left
  let metrics := metrics.add .entityUpdates told.updates
  metrics.add .chunksStreamed told.chunks

end Overworld
