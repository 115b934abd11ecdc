import Overworld.Client.Player
import Overworld.Server.Session.Tick

set_option autoImplicit false

/-!
A session and its players joined in memory, without a network. Messages wait in a queue each way and
arrive in order when they are taken, or are lost.
-/

namespace Overworld

/-- A player and what is on its way to and from it, oldest first. -/
structure Seat where
  player : Player
  down : List ServerMessage
  up : List ClientMessage

namespace Seat

def ofRules (rules : PlayerRules) : Seat := ⟨.ofRules rules, [], []⟩

/-- Takes so many of the waiting items, all of them without a count. -/
def split {α : Type} (count : Option Nat) (waiting : List α) : List α × List α :=
  match count with
  | none => (waiting, [])
  | some count => waiting.splitAt count

/-- Loses waiting messages of the session; tells how many. -/
def loseDown (seat : Seat) (count : Option Nat) : Nat × Seat :=
  let (lost, down) := split count seat.down
  (lost.length, { seat with down })

/-- Takes waiting messages of the player. -/
def takeUp (seat : Seat) (count : Option Nat) : List ClientMessage × Seat :=
  let (taken, up) := split count seat.up
  (taken, { seat with up })

/-- What the player made of each of the messages, in order. -/
def handleEach (player : Player) : List ServerMessage → List (Except PlayerError ServerMessage) × Player
  | [] => ([], player)
  | message :: rest =>
    let (error, player) := player.handle message
    let (results, player) := handleEach player rest
    ((match error with | none => .ok message | some error => .error error) :: results, player)

/-- Hands waiting messages to the player. -/
def takeDown (seat : Seat) (count : Option Nat) : List (Except PlayerError ServerMessage) × Seat :=
  let (taken, down) := split count seat.down
  let (results, player) := handleEach seat.player taken
  (results, { seat with player, down })

/-- One local step; what the player says starts on its way. -/
def step (seat : Seat) : (Option Outcome × List ClientMessage) × Seat :=
  let (outcome, player) := seat.player.step
  let (said, player) := player.drainOutbox
  ((outcome, said), { seat with player, up := seat.up ++ said })

end Seat

structure Loopback where
  session : Session
  seats : Std.HashMap ClientId Seat

namespace Loopback

def ofSession (session : Session) : Loopback := ⟨session, ∅⟩

/-- The players' clients, ascending. -/
def clients (loopback : Loopback) : List ClientId := ClientId.sort loopback.seats.keys

def seat? (loopback : Loopback) (client : ClientId) : Option Seat := loopback.seats[client]?

/-- The players with their clients, ascending by client. -/
def players (loopback : Loopback) : List (ClientId × Player) :=
  loopback.clients.filterMap fun client => (loopback.seat? client).map fun seat => (client, seat.player)

def setSeat (loopback : Loopback) (client : ClientId) (seat : Seat) : Loopback :=
  { loopback with seats := loopback.seats.insert client seat }

/-- Works on the seat of a client; without one there is no result. -/
def onSeat {α : Type} (loopback : Loopback) (client : ClientId) (use : Seat → α × Seat) :
    Option α × Loopback :=
  match loopback.seat? client with
  | none => (none, loopback)
  | some seat =>
    let (result, seat) := use seat
    (some result, loopback.setSeat client seat)

def modifyPlayer (loopback : Loopback) (client : ClientId) (change : Player → Player) : Loopback :=
  { loopback with
    seats := loopback.seats.modify client fun seat => { seat with player := change seat.player } }

/-- Leaves an event for the session; one that finds no room is lost. -/
def submit (loopback : Loopback) (event : InboundEvent) : Loopback :=
  match loopback.session.submit event with
  | .error _ => loopback
  | .ok session => { loopback with session }

/-- Seats a new player, whose connection the session sees in its next tick. -/
def join (loopback : Loopback) (client : ClientId) (endpoint : Endpoint) (rules : PlayerRules) :
    Loopback :=
  (loopback.submit ⟨client, .connected endpoint, 0⟩).setSeat client (.ofRules rules)

/-- Sends an item of the session on its way; the end of a connection is not carried. -/
def carry (loopback : Loopback) (item : Outbound) : Loopback :=
  match item.dispatch with
  | .close => loopback
  | .message message =>
    { loopback with
      seats := loopback.seats.modify item.client fun seat =>
        { seat with down := seat.down ++ [message] } }

/-- One tick of the session. -/
def tick (visiting : Visiting) (now : Nat) (loopback : Loopback) : Loopback :=
  let (batch, session) := (Session.runTick visiting now loopback.session).drainOutbound
  batch.foldl carry { loopback with session }

def ticks (visiting : Visiting) (now : Nat) : Nat → Loopback → Loopback
  | 0, loopback => loopback
  | count + 1, loopback => ticks visiting now count (tick visiting now loopback)

/-- The size each message of a player counts with. -/
def messageBytes : UInt64 := 8

/-- Hands messages of a player to the session. -/
def submitAll (loopback : Loopback) (client : ClientId) (messages : List ClientMessage) : Loopback :=
  messages.foldl (fun loopback message =>
    loopback.submit ⟨client, .message message, messageBytes⟩) loopback

/-- Has waiting messages of a player arrive; tells how many. -/
def sendUp (loopback : Loopback) (client : ClientId) (count : Option Nat) : Nat × Loopback :=
  match loopback.onSeat client (·.takeUp count) with
  | (none, loopback) => (0, loopback)
  | (some taken, loopback) => (taken.length, loopback.submitAll client taken)

/-- Whether a message tells keys. -/
def isInput : ClientMessage → Bool
  | .input .. => true
  | .heartbeat _ => false
  | .disconnect => false

/-- One turn of a player: it takes what waits for it, steps, and all it has on its way arrives, but
for its inputs where those are lost. -/
def turn (loseInputs : Bool) (loopback : Loopback) (client : ClientId) :
    Option Outcome × Loopback :=
  match loopback.seat? client with
  | none => (none, loopback)
  | some seat =>
    let ((outcome, _), seat) := (seat.takeDown none).2.step
    let arriving := if loseInputs then seat.up.filter (!isInput ·) else seat.up
    (outcome, (loopback.setSeat client { seat with up := [] }).submitAll client arriving)

/-- A turn of each of the players, with the outcomes there are. -/
def turns (loseInputs : Bool) : List ClientId → Loopback → List (ClientId × Outcome) × Loopback
  | [], loopback => ([], loopback)
  | client :: rest, loopback =>
    let (outcome, loopback) := turn loseInputs loopback client
    let (outcomes, loopback) := turns loseInputs rest loopback
    ((outcome.toList.map fun outcome => (client, outcome)) ++ outcomes, loopback)

/-- Rounds of a tick and a turn of every player in ascending order. -/
def run (visiting : Visiting) (now : Nat) (loseInputs : Bool) :
    Nat → Loopback → List (ClientId × Outcome) × Loopback
  | 0, loopback => ([], loopback)
  | count + 1, loopback =>
    let loopback := tick visiting now loopback
    let (outcomes, loopback) := turns loseInputs loopback.clients loopback
    let (later, loopback) := run visiting now loseInputs count loopback
    (outcomes ++ later, loopback)

end Loopback

end Overworld
