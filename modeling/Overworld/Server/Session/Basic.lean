import Overworld.Number.Draw
import Overworld.Server.Metrics
import Overworld.Server.Outbound
import Overworld.Server.Replication
import Overworld.Server.Settings

set_option autoImplicit false

/-!
The server's session: the world, its connections, and the queues in and out. A session never touches
a network; it takes events from its inbox and leaves what is to be sent in a queue.

Some passes go over all connections. The order is free, and survivors cannot tell it, so it is a
parameter: any rearrangement of the clients for each pass.
-/

namespace Overworld

/-- A pass over the connections. -/
inductive Pass
  /-- Looks for silent clients. -/
  | timeouts
  /-- Hands the inputs of the tick to the world. -/
  | release
  | replicate
  /-- Tells the others that an entity is gone. -/
  | farewell (gone : EntityId)
deriving DecidableEq

/-- In which order each pass goes over the clients. -/
structure Visiting where
  order : Pass → List ClientId → List ClientId
  perm : ∀ pass clients, (order pass clients).Perm clients

/-- Clients by ascending number. -/
def Visiting.ascending : Visiting := ⟨fun _ clients => clients, fun _ _ => .refl _⟩

structure Session where
  settings : Settings
  world : World
  map : TileMap
  connections : Std.HashMap ClientId Connection
  inbox : Inbox
  outbound : Array Outbound
  metrics : Metrics
  random : Generator
  npcCount : Nat

namespace Session

/-- Half the side of the square that patrols start in. -/
def npcSpread : Single := ⟨0x44000000⟩

/-- Half the side of the square that clients start in. -/
def clientSpread : Single := ⟨0x42800000⟩

/-- Half the side of a moving entity. -/
def actorHalfExtent : Single := ⟨0x40c00000⟩

/-- Ticks that a patrol walks one way. -/
def patrolPeriod : UInt32 := 90

/-- Draws a place on the ground within `spread` of the origin along each axis. No draw from such a
range rounds up to its end, so one try is enough. -/
def drawPlace (spread : Single) (random : Generator) : Vec3 × Generator :=
  let (x, random) := random.between (-spread) spread 1
  let (y, random) := random.between (-spread) spread 1
  (.planar x y, random)

/-- Sends one more entity on patrol. -/
def spawnNpc (world : World) (random : Generator) : World × Generator :=
  let (position, random) := drawPlace npcSpread random
  let (horizontal, random) := random.coin
  let axis : PatrolAxis := if horizontal then .horizontal else .vertical
  ((world.spawn position actorHalfExtent (.patrol (.start axis patrolPeriod))).2, random)

def spawnNpcs : Nat → World → Generator → World × Generator
  | 0, world, random => (world, random)
  | count + 1, world, random =>
    let (world, random) := spawnNpc world random
    spawnNpcs count world random

def ofSettings (settings : Settings) (map : TileMap) : Session :=
  let empty := World.ofGrid settings.grid .standard settings.dt
  let (world, random) := spawnNpcs settings.npcCount empty (.ofSeed settings.worldSeed)
  { settings
    world
    map
    connections := ∅
    inbox := .ofCapacity Inbox.standardCapacity
    outbound := #[]
    metrics := .zero
    random
    npcCount := settings.npcCount }

/-- The number of the last tick that was completed. -/
def tick (session : Session) : Tick := session.world.tick

def connection? (session : Session) (client : ClientId) : Option Connection :=
  session.connections[client]?

/-- The connected clients, ascending. -/
def clients (session : Session) : List ClientId := ClientId.sort session.connections.keys

def isConnected (session : Session) (client : ClientId) : Bool :=
  session.connections.contains client

def modifyConnection (session : Session) (client : ClientId) (change : Connection → Connection) :
    Session :=
  { session with connections := session.connections.modify client change }

/-- Leaves an event for the next tick. -/
def submit (session : Session) (event : InboundEvent) : Except InboxError Session :=
  (session.inbox.submit event).map fun inbox => { session with inbox }

/-- Leaves events in order; those that find no room are lost. -/
def submitAll (session : Session) (events : List InboundEvent) : Session :=
  events.foldl (fun session event => (session.submit event).toOption.getD session) session

/-- Queues a message, which counts for the connection if there is one. -/
def send (session : Session) (client : ClientId) (message : ServerMessage) : Session :=
  { session with
    connections := session.connections.modify client Connection.recordSent
    outbound := session.outbound.push ⟨client, .message message⟩ }

def sendAll (session : Session) (client : ClientId) (messages : List ServerMessage) : Session :=
  messages.foldl (fun session message => session.send client message) session

/-- Applies a change to the counters. -/
def onMetrics (session : Session) (change : Metrics → Metrics) : Session :=
  { session with metrics := change session.metrics }

/-- Queues the end of a connection. -/
def close (session : Session) (client : ClientId) : Session :=
  { session with outbound := session.outbound.push ⟨client, .close⟩ }

/-- Takes everything queued for the clients. -/
def drainOutbound (session : Session) : List Outbound × Session :=
  (session.outbound.toList, { session with outbound := #[] })

/-- Tells one client that an entity is gone, if it was in its view. -/
def tellLeft (gone : EntityId) (session : Session) (client : ClientId) : Session :=
  match session.connection? client with
  | none => session
  | some connection =>
    if connection.interest.isVisible gone then
      ((session.modifyConnection client fun connection =>
        { connection with
          interest := connection.interest.forget gone
          observed := connection.observed.erase gone }).send client
            (.entityLeft session.tick gone)).onMetrics (·.tally .interestLeaves)
    else session

/-- Ends a connection, telling the client the reason where there is one, and takes its entity out of
the world and out of every view. -/
def disconnect (visiting : Visiting) (session : Session) (client : ClientId)
    (fault : Option ConnectionFault) : Session :=
  match session.connection? client with
  | none => session
  | some connection =>
    let parted := { session with connections := session.connections.erase client }
    let told := match fault with
      | none => parted
      | some fault =>
        (parted.onMetrics (·.tally .connectionsKicked)).send client (.kicked fault.message)
    let closed := told.close client
    let removed := match closed.world.despawn connection.entity with
      | none => closed
      | some (_, world) => { closed with world }
    (visiting.order (.farewell connection.entity) removed.clients).foldl
      (tellLeft connection.entity) removed

/-- Ends a connection for a fault found outside of a tick. -/
def giveUp (visiting : Visiting) (session : Session) (client : ClientId) (fault : ConnectionFault) :
    Session :=
  disconnect visiting session client (some fault)

end Session

end Overworld
