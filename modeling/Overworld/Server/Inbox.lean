import Overworld.Address
import Overworld.Capacity
import Overworld.Wire.Message

set_option autoImplicit false

/-!
The queue between the connections and the simulation. It holds events in the order of their arrival
up to a capacity, and the simulation takes all of them at once.
-/

namespace Overworld

/-- The identity of one connection. -/
structure ClientId where
  number : Nat
deriving DecidableEq, Hashable, Inhabited

def ClientId.sort (clients : List ClientId) : List ClientId :=
  clients.mergeSort fun a b => a.number ≤ b.number

inductive InboundKind
  | connected (endpoint : Endpoint)
  | message (content : ClientMessage)
  /-- The connection closed or failed. -/
  | disconnected
deriving DecidableEq

structure InboundEvent where
  client : ClientId
  kind : InboundKind
  /-- Size of the encoded message. -/
  bytes : UInt64
deriving DecidableEq

inductive InboxError
  | full
  | stopped
deriving DecidableEq

def InboxError.message : InboxError → String
  | .full => "Inbound queue full"
  | .stopped => "Simulation stopped"

structure Inbox where
  capacity : Capacity
  events : List InboundEvent
  isOpen : Bool
deriving DecidableEq

namespace Inbox

def standardCapacity : Nat := 4096

/-- An empty queue with room for at least one event. -/
def ofCapacity (capacity : Nat) : Inbox := ⟨.atLeastOne capacity, [], true⟩

def submit (inbox : Inbox) (event : InboundEvent) : Except InboxError Inbox :=
  if !inbox.isOpen then .error .stopped
  else if inbox.capacity.count ≤ inbox.events.length then .error .full
  else .ok { inbox with events := inbox.events ++ [event] }

def drain (inbox : Inbox) : List InboundEvent × Inbox :=
  (inbox.events, { inbox with events := [] })

/-- Ends the queue; what it held is lost. -/
def close (inbox : Inbox) : Inbox := { inbox with events := [], isOpen := false }

end Inbox

end Overworld
