import Std.Data.HashMap
import Overworld.Server.Inbox
import Overworld.Server.Interest
import Overworld.Server.Sequencer
import Overworld.Server.Streamer

set_option autoImplicit false

/-!
What the server keeps for one connected client, and the reasons for which it gives a client up.
Times are microseconds of one clock, which may go backwards.
-/

namespace Overworld

inductive ConnectionFault
  | desync (fault : Desync)
  /-- Nothing came from the client for so many milliseconds. -/
  | timeout (idleMs : Nat)
  | serverFull (limit : Nat)
  /-- The client did not take its messages. -/
  | backlog (capacity : Nat)
deriving DecidableEq

def ConnectionFault.message : ConnectionFault → String
  | .desync fault => "Clock desynchronised: " ++ fault.message
  | .timeout idleMs => "Timed out after " ++ toString idleMs ++ "ms of silence"
  | .serverFull limit => "Server full (" ++ toString limit ++ " connections)"
  | .backlog capacity => "Fell " ++ toString capacity ++ " messages behind on outbound traffic"

structure Connection where
  client : ClientId
  endpoint : Endpoint
  /-- The entity that the client controls. -/
  entity : EntityId
  sequencer : Sequencer
  interest : Interest
  streamer : Streamer
  /-- The last snapshot sent of each entity in view. -/
  observed : Std.HashMap EntityId Snapshot
  lastActivity : Nat
  bytesReceived : UInt64
  messagesSent : UInt64
  messagesReceived : UInt64

namespace Connection

/-- A connection that has seen no traffic yet. -/
def opened (client : ClientId) (endpoint : Endpoint) (entity : EntityId) (inputs : SequencerRules)
    (view : InterestRules) (chunks : StreamRules) (now : Nat) : Connection where
  client
  endpoint
  entity
  sequencer := .ofRules inputs
  interest := .ofRules view
  streamer := .ofRules chunks
  observed := ∅
  lastActivity := now
  bytesReceived := 0
  messagesSent := 0
  messagesReceived := 0

def touch (connection : Connection) (now : Nat) : Connection :=
  { connection with lastActivity := now }

def recordSent (connection : Connection) : Connection :=
  { connection with messagesSent := connection.messagesSent + 1 }

/-- Counts a message of `bytes` bytes from the client. -/
def recordReceived (connection : Connection) (bytes : UInt64) (now : Nat) : Connection :=
  { connection.touch now with
    bytesReceived := connection.bytesReceived + bytes
    messagesReceived := connection.messagesReceived + 1 }

/-- The tick of the last snapshot sent of each entity in view, by entity. -/
def observedTicks (connection : Connection) : List (EntityId × UInt64) :=
  (EntityId.sort connection.observed.keys).filterMap fun id =>
    (connection.observed[id]?).map fun snapshot => (id, snapshot.tick)

/-- Time since the last activity; none where the clock went backwards. -/
def idle (connection : Connection) (now : Nat) : Nat := now - connection.lastActivity

/-- Whether the silence is longer than `timeout`. -/
def isTimedOut (connection : Connection) (now timeout : Nat) : Bool :=
  timeout < connection.idle now

end Connection

end Overworld
