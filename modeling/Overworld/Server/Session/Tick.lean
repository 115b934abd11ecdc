import Overworld.Server.Session.Events

set_option autoImplicit false

/-!
One tick of a session, always in the same order: events, silent clients, the inputs due, movement,
the spatial index, and what each client is told. Between ticks an entity may be moved elsewhere and
chunks of the map may change.
-/

namespace Overworld

namespace Session

/-- Ends every connection that was silent for too long. -/
def dropSilent (visiting : Visiting) (now : Nat) (session : Session) : Session :=
  let silent := (visiting.order .timeouts session.clients).filterMap session.connection?
    |>.filter (·.isTimedOut now session.settings.timeoutUs)
  silent.foldl (fun session connection =>
    disconnect visiting (session.onMetrics (·.tally .connectionsTimedOut)) connection.client
      (some (.timeout (connection.idle now / 1000)))) session

/-- Hands the inputs of one client that are due over to its entity. -/
def releaseFor (session : Session) (client : ClientId) : Session :=
  match session.connection? client with
  | none => session
  | some connection =>
    let (ready, sequencer) := connection.sequencer.release session.tick
    { session.modifyConnection client fun connection => { connection with sequencer } with
      world := ready.foldl (fun world (_, keys) => world.setKeys connection.entity keys)
        session.world }

def releaseInputs (visiting : Visiting) (session : Session) : Session :=
  (visiting.order .release session.clients).foldl releaseFor session

/-- Tells one client what changed for it. -/
def replicateFor (session : Session) (client : ClientId) : Session :=
  match session.connection? client with
  | none => session
  | some connection =>
    let told := connection.replicate session.world session.map
    let counted := session.onMetrics (·.recordReplication told)
    (counted.modifyConnection client fun _ => told.connection).sendAll client told.messages

def replicate (visiting : Visiting) (session : Session) : Session :=
  (visiting.order .replicate session.clients).foldl replicateFor session

/-- Stores the levels at the end of a tick. -/
def recordLevels (session : Session) : Session :=
  let metrics := session.metrics.set .serverTick session.tick
  let metrics := metrics.set .entityCount session.world.entities.size.toUInt64
  let metrics := metrics.set .npcCount session.npcCount.toUInt64
  { session with metrics := metrics.set .connectionsActive session.connections.size.toUInt64 }

/-- Applies a change to the world. -/
def onWorld (session : Session) (change : World → World) : Session :=
  { session with world := change session.world }

/-- Runs one tick at the time `now`, in microseconds. -/
def runTick (visiting : Visiting) (now : Nat) (session : Session) : Session :=
  let present := dropSilent visiting now (handleAll visiting now session)
  let ready := releaseInputs visiting (present.onWorld World.beginTick)
  let moved := ready.onWorld fun world => world.step.syncGrid
  ((replicate visiting moved).onWorld World.clearDirty).recordLevels

/-- Runs so many ticks at one time. -/
def runTicks (visiting : Visiting) (now : Nat) : Nat → Session → Session
  | 0, session => session
  | count + 1, session => runTicks visiting now count (runTick visiting now session)

/-- Puts the entity of a client elsewhere; its surroundings are looked at afresh. -/
def teleport? (session : Session) (client : ClientId) (position : Vec3) : Option Session :=
  match session.connection? client with
  | none => none
  | some connection =>
    match session.world.teleport? connection.entity position with
    | none => none
    | some world =>
      some ({ session with world }.modifyConnection client fun connection =>
        { connection with streamer := connection.streamer.reset })

/-- Marks the tiles of a chunk as changed for every client that holds it. -/
def invalidateChunk (session : Session) (chunk : ChunkPosition) : Session :=
  { session with
    connections := session.connections.map fun _ connection =>
      { connection with streamer := connection.streamer.invalidate chunk } }

end Session

end Overworld
