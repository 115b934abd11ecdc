import Overworld.Motion.History
import Overworld.Number.Significand

set_option autoImplicit false

/-!
Inputs of one connection, put in order. An input is tagged with the tick it is meant for. It is
admitted when its lead over the server's clock lies in a window, held until its tick comes, and then
released in ascending order of ticks.

Every tagged message is also a sample of the client's clock. When enough samples have come in and
their mean lead lies outside the window, the client is told to shift its clock once, and samples are
left out of account while the shift takes effect.
-/

namespace Overworld

structure SequencerRules where
  /-- The least lead of an admitted input. -/
  minLead : Int64
  /-- The greatest lead of an admitted input. -/
  maxLead : Int64
  /-- Samples in a block that a decision is taken on; at least one is needed. -/
  minFreshSamples : Nat
  /-- Ticks after a correction in which samples do not count. -/
  settleTicks : UInt64
  /-- The distance of the clocks beyond which a connection is given up. -/
  desyncLimit : UInt64
deriving DecidableEq

namespace SequencerRules

def standard : SequencerRules := ⟨1, 3, 8, 10, 600⟩

/-- The lead that a correction aims for: the middle of the window. -/
def targetLead (rules : SequencerRules) : Rat :=
  Significand.round (rules.minLead + rules.maxLead).toInt / 2

end SequencerRules

inductive DropReason
  /-- The lead is too small. -/
  | late
  /-- The lead is too great. -/
  | early
  /-- An input for that tick is held, or the tick was already released. -/
  | duplicate
deriving DecidableEq

inductive Admission
  | accepted
  | dropped (reason : DropReason)
deriving DecidableEq

/-- The clocks of a client and the server are too far apart. -/
structure Desync where
  client : Tick
  server : Tick
  difference : Int64
  limit : UInt64
deriving DecidableEq

def Desync.message (fault : Desync) : String :=
  "Client tick " ++ toString fault.client.toNat ++ " is " ++ toString fault.difference.toInt ++
    " ticks from server tick " ++ toString fault.server.toNat ++ " (limit " ++
    toString fault.limit.toNat ++ ")"

structure SequencerStats where
  accepted : UInt64
  late : UInt64
  early : UInt64
  duplicate : UInt64
  adjustments : UInt64
deriving DecidableEq

def SequencerStats.none : SequencerStats := ⟨0, 0, 0, 0, 0⟩

def SequencerStats.dropped (stats : SequencerStats) : UInt64 :=
  stats.late + stats.early + stats.duplicate

/-- Counts one input. -/
def SequencerStats.record (stats : SequencerStats) : Admission → SequencerStats
  | .accepted => { stats with accepted := stats.accepted + 1 }
  | .dropped .late => { stats with late := stats.late + 1 }
  | .dropped .early => { stats with early := stats.early + 1 }
  | .dropped .duplicate => { stats with duplicate := stats.duplicate + 1 }

structure Sequencer where
  rules : SequencerRules
  /-- Held inputs, ticks ascending. -/
  pending : List (Tick × Keys)
  lastReleased : Option Tick
  sampleSum : Int64
  sampleCount : Nat
  settleUntil : Tick
  adjustment : Option Int64
  stats : SequencerStats
deriving DecidableEq

namespace Sequencer

def ofRules (rules : SequencerRules) : Sequencer := ⟨rules, [], none, 0, 0, 0, none, .none⟩

/-- How far the client's clock is ahead of the server's. -/
def lead (rules : SequencerRules) (server client : Tick) : Except Desync Int64 :=
  let difference : Int := client.toNat - server.toNat
  if rules.desyncLimit.toNat < difference.natAbs then
    .error ⟨client, server, .ofInt (clampInt (-9223372036854775808) 9223372036854775807 difference),
      rules.desyncLimit⟩
  else .ok (.ofInt difference)

/-- The mean of a block of samples. -/
def mean (sum : Int64) (count : Nat) : Rat :=
  Significand.round (Significand.round sum.toInt / Significand.round count)

/-- The shift that a block of samples calls for: none inside the window, and none that rounds to
zero. -/
def correction? (rules : SequencerRules) (sum : Int64) (count : Nat) : Option Int64 :=
  let mean := mean sum count
  if mean < Significand.round rules.minLead.toInt ∨ Significand.round rules.maxLead.toInt < mean then
    let gap := Significand.round (rules.targetLead - mean)
    let delta := clampInt (-9223372036854775808) 9223372036854775807
      (IntRounding.nearestAway.quotient gap.num gap.den)
    if delta = 0 then none else some (.ofInt delta)
  else none

/-- Counts one sample, and decides on a shift when the block is complete. -/
def sample (sequencer : Sequencer) (server : Tick) (lead : Int64) : Sequencer :=
  if server < sequencer.settleUntil then sequencer
  else
    let sum := sequencer.sampleSum + lead
    let count := sequencer.sampleCount + 1
    if count < max sequencer.rules.minFreshSamples 1 then
      { sequencer with sampleSum := sum, sampleCount := count }
    else
      let cleared := { sequencer with sampleSum := 0, sampleCount := 0 }
      match correction? sequencer.rules sum count with
      | none => cleared
      | some delta =>
        { cleared with
          adjustment := some delta
          stats := { sequencer.stats with adjustments := sequencer.stats.adjustments + 1 }
          settleUntil := server + sequencer.rules.settleTicks }

/-- Whether an input for the tick is held, or the tick lies at or before the last one released. -/
def isTaken (sequencer : Sequencer) (tick : Tick) : Bool :=
  sequencer.pending.any (·.1 == tick) ||
    match sequencer.lastReleased with
    | none => false
    | some released => tick ≤ released

def admission (sequencer : Sequencer) (tick : Tick) (lead : Int64) : Admission :=
  if lead < sequencer.rules.minLead then .dropped .late
  else if sequencer.rules.maxLead < lead then .dropped .early
  else if sequencer.isTaken tick then .dropped .duplicate
  else .accepted

/-- Puts an entry before the first one of a later tick. -/
def insertPending (entry : Tick × Keys) : List (Tick × Keys) → List (Tick × Keys)
  | [] => [entry]
  | held :: rest =>
    if entry.1 < held.1 then entry :: held :: rest else held :: insertPending entry rest

/-- Admits or drops one input; `server` is the last completed tick. -/
def receive (sequencer : Sequencer) (server tick : Tick) (keys : Keys) :
    Except Desync (Admission × Sequencer) :=
  match lead sequencer.rules server tick with
  | .error fault => .error fault
  | .ok lead =>
    let sampled := sequencer.sample server lead
    let admission := sampled.admission tick lead
    let counted := { sampled with stats := sampled.stats.record admission }
    match admission with
    | .accepted => .ok (admission, { counted with pending := insertPending (tick, keys) counted.pending })
    | .dropped _ => .ok (admission, counted)

/-- Takes a sample from a message that carries no input. -/
def observe (sequencer : Sequencer) (server client : Tick) : Except Desync Sequencer :=
  match lead sequencer.rules server client with
  | .error fault => .error fault
  | .ok lead => .ok (sequencer.sample server lead)

/-- Hands over every held input up to `tick`, oldest first. -/
def release (sequencer : Sequencer) (tick : Tick) : List (Tick × Keys) × Sequencer :=
  let ready := sequencer.pending.filter fun entry => entry.1 ≤ tick
  let lastReleased := match ready.getLast? with
    | none => sequencer.lastReleased
    | some entry => some entry.1
  (ready,
    { sequencer with
      pending := sequencer.pending.filter fun entry => tick < entry.1
      lastReleased })

/-- Hands over the shift that is due, once. -/
def takeAdjustment (sequencer : Sequencer) : Option Int64 × Sequencer :=
  (sequencer.adjustment, { sequencer with adjustment := none })

end Sequencer

end Overworld
