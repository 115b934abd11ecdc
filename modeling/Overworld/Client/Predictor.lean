import Overworld.Motion.History
import Overworld.Motion.Step

set_option autoImplicit false

/-!
A client moves its own entity at once and records the keys of each tick. When the server says where
the entity was at the end of a tick, the client starts from there and replays the keys of all newer
ticks; given the same keys, that is where the server will be. A word on a tick older than the record
is taken as it is, and the record starts again.
-/

namespace Overworld

/-- The server's word on the client's own entity at the end of a tick. -/
structure Correction where
  tick : Tick
  motion : Motion
  keys : Keys
deriving DecidableEq

/-- What a correction did. The error is the distance from the old to the new prediction. -/
inductive Outcome
  /-- So many newer ticks were replayed; tells whether the keys recorded for the tick are those the
  server held. -/
  | replayed (tick : Tick) (count : Nat) (error : Single) (matched : Bool)
  | snapped (tick : Tick) (error : Single)
deriving DecidableEq

structure Predictor where
  gait : Gait
  dt : Single
  motion : Motion
  history : KeyHistory
  pending : Option Correction
  lastCorrected : Option Tick
deriving DecidableEq

namespace Predictor

/-- Ticks of keys kept for replay. -/
def standardHistory : Nat := 20

def create (gait : Gait) (dt : Single) (historyLength : Nat) : Predictor :=
  ⟨gait, dt, .atRest .zero, .empty historyLength, none, none⟩

/-- Starts over from a known state. -/
def reset (predictor : Predictor) (motion : Motion) : Predictor :=
  { predictor with
    motion
    history := predictor.history.clear
    pending := none
    lastCorrected := none }

/-- Whether a correction is no older than the one waiting and the one applied last. -/
def isNews (predictor : Predictor) (correction : Correction) : Bool :=
  predictor.pending.all (·.tick ≤ correction.tick) &&
    predictor.lastCorrected.all (· ≤ correction.tick)

/-- Has a correction wait for the next reconciliation, in place of one that waits already; says
whether it was news. -/
def queueCorrection (predictor : Predictor) (correction : Correction) : Bool × Predictor :=
  if predictor.isNews correction then (true, { predictor with pending := some correction })
  else (false, predictor)

/-- Whether the record reaches back to the tick after the corrected one. -/
def isReplayable (history : KeyHistory) (tick : Tick) : Bool :=
  match history.oldest? with
  | none => false
  | some oldest => oldest ≤ Tick.addSaturating tick 1

/-- Applies a correction. -/
def apply (predictor : Predictor) (correction : Correction) : Outcome × Predictor :=
  let corrected :=
    { predictor with pending := none, lastCorrected := some correction.tick }
  let previous := predictor.motion.position
  if isReplayable predictor.history correction.tick then
    let inputs := (predictor.history.after correction.tick).map (·.2)
    let motion := correction.motion.simulate inputs predictor.gait predictor.dt
    let matched := (predictor.history.keysAt? correction.tick).all (· = correction.keys)
    (.replayed correction.tick inputs.length (previous.planarDistance motion.position) matched,
      { corrected with motion })
  else
    (.snapped correction.tick (previous.planarDistance correction.motion.position),
      { corrected with motion := correction.motion, history := predictor.history.clear })

/-- Applies the correction that waits, if any. -/
def reconcile (predictor : Predictor) : Option Outcome × Predictor :=
  match predictor.pending with
  | none => (none, predictor)
  | some correction =>
    let (outcome, corrected) := predictor.apply correction
    (some outcome, corrected)

/-- Moves one tick, after any correction that waits. -/
def predict (predictor : Predictor) (tick : Tick) (keys : Keys) : Predictor :=
  let corrected := predictor.reconcile.2
  { corrected with
    motion := corrected.motion.step keys corrected.gait corrected.dt
    history := corrected.history.push tick keys }

end Predictor

end Overworld
