import Std.Data.HashMap
import Overworld.Number.Single
import Overworld.Server.Sequencer

set_option autoImplicit false

/-!
Counters of a running server, and statistics of the time its ticks take over a window of the most
recent ones.
-/

namespace Overworld

inductive Counter
  | entityCount
  | npcCount
  | serverTick
  | tickTime
  | tickTimeP95
  | tickTimeP99
  | tickTimeMax
  | tickCount
  | connectionsActive
  | connectionsTotal
  | connectionsKicked
  | connectionsTimedOut
  | messagesSent
  | messagesReceived
  | bytesSent
  | bytesReceived
  | inboundOverflow
  | inputsAccepted
  | inputsDroppedLate
  | inputsDroppedEarly
  | inputsDroppedDuplicate
  | tickAdjustments
  | entityUpdates
  | interestEnters
  | interestLeaves
  | chunksStreamed
deriving DecidableEq, Hashable

namespace Counter

/-- Every counter, by the subject it belongs to. -/
def all : List Counter :=
  [entityCount, npcCount, serverTick, tickTime, tickTimeP95, tickTimeP99, tickTimeMax, tickCount,
    connectionsActive, connectionsTotal, connectionsKicked, connectionsTimedOut, messagesSent,
    messagesReceived, bytesSent, bytesReceived, inboundOverflow, inputsAccepted, inputsDroppedLate,
    inputsDroppedEarly, inputsDroppedDuplicate, tickAdjustments, entityUpdates, interestEnters,
    interestLeaves, chunksStreamed]

/-- The name a counter is stored and looked up by. -/
def name : Counter → String
  | entityCount => "entity_count"
  | npcCount => "npc_count"
  | serverTick => "server_tick"
  | tickTime => "tick_time_us"
  | tickTimeP95 => "tick_time_p95_us"
  | tickTimeP99 => "tick_time_p99_us"
  | tickTimeMax => "tick_time_max_us"
  | tickCount => "tick_count"
  | connectionsActive => "connections_active"
  | connectionsTotal => "connections_total"
  | connectionsKicked => "connections_kicked"
  | connectionsTimedOut => "connections_timed_out"
  | messagesSent => "messages_sent"
  | messagesReceived => "messages_received"
  | bytesSent => "bytes_sent"
  | bytesReceived => "bytes_received"
  | inboundOverflow => "inbound_overflow"
  | inputsAccepted => "inputs_accepted"
  | inputsDroppedLate => "inputs_dropped_late"
  | inputsDroppedEarly => "inputs_dropped_early"
  | inputsDroppedDuplicate => "inputs_dropped_duplicate"
  | tickAdjustments => "tick_adjustments"
  | entityUpdates => "entity_updates"
  | interestEnters => "aoi_enters"
  | interestLeaves => "aoi_leaves"
  | chunksStreamed => "chunks_streamed"

def ofName? (text : String) : Option Counter := all.find? fun counter => counter.name == text

/-- Inputs dropped for one reason. -/
def dropped : DropReason → Counter
  | .late => inputsDroppedLate
  | .early => inputsDroppedEarly
  | .duplicate => inputsDroppedDuplicate

end Counter

structure Metrics where
  /-- Counters that were ever stored; the others stand at zero. -/
  counters : Std.HashMap Counter UInt64
  /-- Times of the latest ticks in microseconds, newest first. -/
  window : List UInt64

namespace Metrics

/-- How many tick times the statistics cover. -/
def windowLength : Nat := 1000

/-- Statistics start with this many tick times. -/
def fewestSamples : Nat := 10

def zero : Metrics := ⟨∅, []⟩

def get (metrics : Metrics) (counter : Counter) : UInt64 := metrics.counters.getD counter 0

def set (metrics : Metrics) (counter : Counter) (value : UInt64) : Metrics :=
  { metrics with counters := metrics.counters.insert counter value }

def add (metrics : Metrics) (counter : Counter) (count : UInt64) : Metrics :=
  metrics.set counter (metrics.get counter + count)

/-- Adds one. -/
def tally (metrics : Metrics) (counter : Counter) : Metrics := metrics.add counter 1

@[simp] theorem get_zero (counter : Counter) : zero.get counter = 0 := by simp [get, zero]

theorem get_set (metrics : Metrics) (counter other : Counter) (value : UInt64) :
    (metrics.set counter value).get other = if counter = other then value else metrics.get other := by
  simp [get, set, Std.HashMap.getD_insert]

theorem get_add (metrics : Metrics) (counter other : Counter) (count : UInt64) :
    (metrics.add counter count).get other =
      if counter = other then metrics.get other + count else metrics.get other := by
  rw [add, get_set]
  split <;> simp_all

/-- The counters that do not stand at zero, by name. -/
def nonzero (metrics : Metrics) : List (String × UInt64) :=
  (Counter.all.map fun counter => (counter.name, metrics.get counter)).filter (·.2 ≠ 0)

/-- The share 0.95 and the share 0.99. -/
def share95 : Single := ⟨0x3f733333⟩
def share99 : Single := ⟨0x3f7d70a4⟩

/-- The place that a share of `length` ascending samples ends at. -/
def placeOfShare (share : Single) (length : Nat) : Nat :=
  min (Single.ofNat length * share).truncateUInt64 (length - 1)

/-- The statistics of a window with enough samples. -/
def summarize (metrics : Metrics) : Metrics :=
  let ascending := metrics.window.mergeSort
  let sample (place : Nat) : UInt64 := ascending[place]?.getD 0
  let metrics := metrics.set .tickTimeP95 (sample (placeOfShare share95 ascending.length))
  let metrics := metrics.set .tickTimeP99 (sample (placeOfShare share99 ascending.length))
  metrics.set .tickTimeMax (sample (ascending.length - 1))

/-- Takes one more tick time into account. -/
def recordTickTime (metrics : Metrics) (microseconds : UInt64) : Metrics :=
  let counted := (metrics.set .tickTime microseconds).tally .tickCount
  let recorded := { counted with window := (microseconds :: metrics.window).take windowLength }
  if fewestSamples ≤ recorded.window.length then recorded.summarize else recorded

def recordDrop (metrics : Metrics) (reason : DropReason) : Metrics :=
  metrics.tally (.dropped reason)

/-- Counts a message of `bytes` bytes that was sent. -/
def recordSent (metrics : Metrics) (bytes : UInt64) : Metrics :=
  (metrics.tally .messagesSent).add .bytesSent bytes

def recordReceived (metrics : Metrics) (bytes : UInt64) : Metrics :=
  (metrics.tally .messagesReceived).add .bytesReceived bytes

/-- Inputs dropped for any reason. -/
def inputsDropped (metrics : Metrics) : UInt64 :=
  metrics.get .inputsDroppedLate + metrics.get .inputsDroppedEarly +
    metrics.get .inputsDroppedDuplicate

end Metrics

end Overworld
