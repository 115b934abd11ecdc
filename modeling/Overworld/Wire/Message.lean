import Overworld.Motion.History
import Overworld.Motion.Step
import Overworld.Roster
import Overworld.Terrain.Chunk

set_option autoImplicit false

/-!
What clients and the server tell each other.
-/

namespace Overworld

/-- The state of one entity at the end of a tick, in full. -/
structure Snapshot where
  tick : Tick
  entity : EntityId
  position : Vec3
  velocity : Vec3
  keys : Keys
  halfExtent : Single
deriving DecidableEq, Inhabited

def Snapshot.motion (snapshot : Snapshot) : Motion := ⟨snapshot.position, snapshot.velocity⟩

inductive ClientMessage
  /-- The keys held from a tick on. -/
  | input (tick : Tick) (keys : Keys)
  /-- A sign of life that also shows the client's clock. -/
  | heartbeat (tick : Tick)
  | disconnect
deriving DecidableEq

/-- The client's clock, where the message shows it. -/
def ClientMessage.tick? : ClientMessage → Option Tick
  | .input tick _ => some tick
  | .heartbeat tick => some tick
  | .disconnect => none

inductive ServerMessage
  /-- Accepts a connection and names the client's entity. -/
  | connectionResponse (tick : Tick) (entity : EntityId) (spawn : Vec3)
  | entityUpdate (snapshot : Snapshot)
  /-- An entity comes into the client's view. -/
  | entityEntered (snapshot : Snapshot)
  /-- An entity leaves the client's view, or the world. -/
  | entityLeft (tick : Tick) (entity : EntityId)
  | chunkData (chunk : ChunkData)
  /-- The client is to shift its clock once. -/
  | tickAdjustment (delta : Int64)
  /-- The server closes the connection. -/
  | kicked (reason : String)
deriving DecidableEq

def ServerMessage.kind : ServerMessage → String
  | .connectionResponse .. => "connection_response"
  | .entityUpdate _ => "entity_update"
  | .entityEntered _ => "entity_entered"
  | .entityLeft .. => "entity_left"
  | .chunkData _ => "chunk_data"
  | .tickAdjustment _ => "tick_adjustment"
  | .kicked _ => "kicked"

end Overworld
