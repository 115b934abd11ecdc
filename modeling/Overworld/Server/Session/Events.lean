import Overworld.Server.Session.Basic

set_option autoImplicit false

/-!
What arrives from the connections: new clients, their inputs and signs of life, and their leaving.
Everything from a client that is not connected is ignored.
-/

namespace Overworld

namespace Session

/-- Gives a new client an entity and welcomes it. A client that is connected already is ignored, and
one too many is turned away. -/
def connect (session : Session) (client : ClientId) (endpoint : Endpoint) (now : Nat) : Session :=
  if session.isConnected client then session
  else if session.settings.maxConnections ≤ session.connections.size then
    let fault := ConnectionFault.serverFull session.settings.maxConnections
    ((session.send client (.kicked fault.message)).close client).onMetrics
      (·.tally .connectionsKicked)
  else
    let (place, random) := drawPlace clientSpread session.random
    let (entity, world) := session.world.spawn place actorHalfExtent .controlled
    let connection := Connection.opened client endpoint entity session.settings.sequencerRules
      session.settings.interestRules session.settings.streamRules now
    let joined :=
      { session with
        random, world
        connections := session.connections.insert client connection
        metrics := session.metrics.tally .connectionsTotal }
    joined.send client (.connectionResponse joined.tick entity place)

/-- Sends the shift of the client's clock that its sequencer has ready. -/
def sendAdjustment (session : Session) (client : ClientId) : Session :=
  match session.connection? client with
  | none => session
  | some connection =>
    let (adjustment, sequencer) := connection.sequencer.takeAdjustment
    let taken := session.modifyConnection client fun connection => { connection with sequencer }
    match adjustment with
    | none => taken
    | some delta => (taken.onMetrics (·.tally .tickAdjustments)).send client (.tickAdjustment delta)

/-- Counts the outcome of an input. A dropped input releases the keys of the entity. -/
def recordAdmission (session : Session) (entity : EntityId) : Admission → Session
  | .accepted => session.onMetrics (·.tally .inputsAccepted)
  | .dropped reason =>
    { session with
      metrics := session.metrics.recordDrop reason
      world := session.world.neutralize entity }

/-- Puts an input in order. A clock too far off ends the connection. -/
def receiveInput (visiting : Visiting) (session : Session) (client : ClientId) (tick : Tick)
    (keys : Keys) : Session :=
  match session.connection? client with
  | none => session
  | some connection =>
    match connection.sequencer.receive session.tick tick keys with
    | .error fault => disconnect visiting session client (some (.desync fault))
    | .ok (admission, sequencer) =>
      let received := session.modifyConnection client fun connection =>
        { connection with sequencer }
      (received.recordAdmission connection.entity admission).sendAdjustment client

/-- Takes a sample of the client's clock. -/
def receiveHeartbeat (visiting : Visiting) (session : Session) (client : ClientId) (tick : Tick) :
    Session :=
  match session.connection? client with
  | none => session
  | some connection =>
    match connection.sequencer.observe session.tick tick with
    | .error fault => disconnect visiting session client (some (.desync fault))
    | .ok sequencer =>
      (session.modifyConnection client fun connection =>
        { connection with sequencer }).sendAdjustment client

def receive (visiting : Visiting) (session : Session) (client : ClientId) : ClientMessage → Session
  | .input tick keys => receiveInput visiting session client tick keys
  | .heartbeat tick => receiveHeartbeat visiting session client tick
  | .disconnect => disconnect visiting session client none

def handle (visiting : Visiting) (now : Nat) (session : Session) (event : InboundEvent) : Session :=
  match event.kind with
  | .connected endpoint => session.connect event.client endpoint now
  | .disconnected => disconnect visiting session event.client none
  | .message message =>
    if session.isConnected event.client then
      let counted :=
        { session.modifyConnection event.client (·.recordReceived event.bytes now) with
          metrics := session.metrics.recordReceived event.bytes }
      receive visiting counted event.client message
    else session

/-- Takes all events of the inbox in order. -/
def handleAll (visiting : Visiting) (now : Nat) (session : Session) : Session :=
  let (events, inbox) := session.inbox.drain
  events.foldl (handle visiting now) { session with inbox }

end Session

end Overworld
