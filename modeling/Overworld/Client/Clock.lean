import Overworld.Motion.History

set_option autoImplicit false

/-!
A client's tick counter. It starts ahead of the server's tick, moves by one with each local step
whatever the network does, and jumps once for each shift that the server asks for.
-/

namespace Overworld

structure ClockRules where
  /-- Ticks ahead of the server at the start. -/
  initialLead : UInt64
  /-- The greatest shift that is believed. -/
  maxAdjustment : UInt64
deriving DecidableEq

def ClockRules.standard : ClockRules := ⟨2, 120⟩

inductive ClockError
  | notSynced
  | excessive (delta : Int64) (limit : UInt64)
deriving DecidableEq

def ClockError.message : ClockError → String
  | .notSynced => "Tick adjustment received before connection response"
  | .excessive delta limit =>
    "Implausible tick adjustment " ++ toString delta.toInt ++ " (max " ++ toString limit.toNat ++ ")"

/-- The tick `delta` later, held at the first and the last tick. -/
def Tick.shiftSaturating (tick : Tick) (delta : Int64) : Tick :=
  let shifted : Int := tick.toNat + delta.toInt
  if shifted < 0 then 0 else if shifted < 18446744073709551616 then .ofNat shifted.toNat else Tick.last

structure Clock where
  rules : ClockRules
  tick : Tick
  isSynced : Bool
  /-- Local steps taken; a jump is none. -/
  steps : UInt64
  adjustments : UInt64
deriving DecidableEq

namespace Clock

def ofRules (rules : ClockRules) : Clock := ⟨rules, 0, false, 0, 0⟩

/-- Starts from a tick of the server. -/
def synchronize (clock : Clock) (serverTick : Tick) : Clock :=
  { clock with tick := Tick.addSaturating serverTick clock.rules.initialLead, isSynced := true }

/-- One local step. -/
def advance (clock : Clock) : Clock :=
  { clock with tick := Tick.addSaturating clock.tick 1, steps := clock.steps + 1 }

/-- Shifts the clock once. A shift that is too great, or comes too soon, is refused. -/
def adjust (clock : Clock) (delta : Int64) : Except ClockError Clock :=
  if !clock.isSynced then .error .notSynced
  else if clock.rules.maxAdjustment.toNat < delta.toInt.natAbs then
    .error (.excessive delta clock.rules.maxAdjustment)
  else .ok { clock with
    tick := Tick.shiftSaturating clock.tick delta
    adjustments := clock.adjustments + 1 }

end Clock

end Overworld
