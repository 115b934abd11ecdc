import Std.Data.HashMap
import Overworld.Server.Outbound

set_option autoImplicit false

/-!
Lines from the server to the writers of its connections. A line is a queue with two ends: the server
puts dispatches in without waiting, a writer takes them out, and either may let go of its end. A line
that is full means that its client has fallen behind; the server lets go of it, and the writer finds
the end of the line behind what was queued.
-/

namespace Overworld

structure Line where
  /-- What the writer has not taken yet, oldest first. -/
  queue : List Dispatch
  /-- The server still holds its end. -/
  isFed : Bool
  /-- The writer still holds its end. -/
  isRead : Bool
deriving DecidableEq

namespace Line

def opened : Line := ⟨[], true, true⟩

/-- Puts a dispatch in; nothing where the line is full. One that nobody reads takes it and loses it. -/
def put? (line : Line) (capacity : Nat) (dispatch : Dispatch) : Option Line :=
  if !line.isRead then some line
  else if capacity ≤ line.queue.length then none
  else some { line with queue := line.queue ++ [dispatch] }

/-- The server lets go. -/
def cut (line : Line) : Line := { line with isFed := false }

/-- The writer lets go; what was queued is lost. -/
def abandon (line : Line) : Line := { line with queue := [], isRead := false }

end Line

/-- What a writer took from its line. -/
structure Reception where
  taken : List Dispatch
  /-- The line was found empty and the server had let go of it. -/
  isOver : Bool
deriving DecidableEq

structure Router where
  capacity : Capacity
  lines : Std.HashMap ClientId Line

namespace Router

def standardCapacity : Nat := 1024

/-- A router whose lines have room for at least one dispatch. -/
def ofCapacity (capacity : Nat) : Router := ⟨.atLeastOne capacity, ∅⟩

/-- How many lines the server feeds. -/
def size (router : Router) : Nat := (router.lines.values.filter (·.isFed)).length

def isEmpty (router : Router) : Bool := router.lines.values.all (!·.isFed)

/-- Opens a new line for a client, in place of an earlier one. -/
def register (router : Router) (client : ClientId) : Router :=
  { router with lines := router.lines.insert client .opened }

/-- The server lets go of the line of a client. -/
def unregister (router : Router) (client : ClientId) : Router :=
  { router with lines := router.lines.modify client Line.cut }

/-- The writer of a client lets go of its line. -/
def hangUp (router : Router) (client : ClientId) : Router :=
  { router with lines := router.lines.modify client Line.abandon }

/-- The line of a client, if the server feeds it. -/
def fedLine? (router : Router) (client : ClientId) : Option Line :=
  (router.lines[client]?).filter (·.isFed)

/-- Puts one item into the line of its client, unless that line overflowed before. The clients of
overflowed lines are noted in order. -/
def putItem (state : Router × List ClientId) (item : Outbound) : Router × List ClientId :=
  let (router, overflowed) := state
  if overflowed.contains item.client then state
  else match router.fedLine? item.client with
  | none => state
  | some line =>
    match line.put? router.capacity.count item.dispatch with
    | none => (router, overflowed ++ [item.client])
    | some line => ({ router with lines := router.lines.insert item.client line }, overflowed)

/-- The clients that a batch says to close. -/
def closings (batch : List Outbound) : List ClientId :=
  (batch.filter (·.dispatch = .close)).map (·.client)

/-- Puts a batch into the lines. The server lets go of the lines it closes and of those that
overflowed; the latter are reported. -/
def route (router : Router) (batch : List Outbound) : List ClientId × Router :=
  let (router, overflowed) := batch.foldl putItem (router, [])
  (overflowed, (closings batch ++ overflowed).foldl unregister router)

/-- Takes at most `limit` dispatches out of the line of a client, all of them without a limit. There
is nothing to take from where no writer holds the line. -/
def receive (router : Router) (client : ClientId) (limit : Option Nat) :
    Option Reception × Router :=
  match (router.lines[client]?).filter (·.isRead) with
  | none => (none, router)
  | some line =>
    let count := limit.getD (line.queue.length + 1)
    (some ⟨line.queue.take count, !line.isFed && line.queue.length < count⟩,
      { router with
        lines := router.lines.insert client { line with queue := line.queue.drop count } })

end Router

end Overworld
