import Overworld.Motion.Step
import Overworld.Plane.Shape

set_option autoImplicit false

/-!
The entities of the world: what they are, and how each decides on the keys it holds in a tick.
-/

namespace Overworld

inductive PatrolAxis
  | horizontal
  | vertical
deriving DecidableEq

/-- A walk back and forth along an axis that turns every `period` ticks. -/
structure Patrol where
  axis : PatrolAxis
  period : UInt32
  elapsed : UInt32
  forward : Bool
deriving DecidableEq

namespace Patrol

/-- A patrol at its start; it walks at least one tick each way. -/
def start (axis : PatrolAxis) (period : UInt32) : Patrol :=
  ⟨axis, if period = 0 then 1 else period, 0, true⟩

def direction (patrol : Patrol) : Direction :=
  match patrol.axis, patrol.forward with
  | .horizontal, true => .right
  | .horizontal, false => .left
  | .vertical, true => .down
  | .vertical, false => .up

/-- The patrol after one more tick, turned first where the period is over. -/
def advance (patrol : Patrol) : Patrol :=
  if patrol.period ≤ patrol.elapsed then { patrol with elapsed := 1, forward := !patrol.forward }
  else { patrol with elapsed := patrol.elapsed + 1 }

end Patrol

inductive Behavior
  /-- Keys come from a player. -/
  | controlled
  /-- Never moves by itself. -/
  | idle
  | patrol (walk : Patrol)
deriving DecidableEq

/-- The behavior after a tick, and the keys it holds in that tick. -/
def Behavior.advance (behavior : Behavior) (held : Keys) : Behavior × Keys :=
  match behavior with
  | .controlled => (.controlled, held)
  | .idle => (.idle, .neutral)
  | .patrol walk =>
    let walk := walk.advance
    (.patrol walk, Keys.neutral.press walk.direction)

structure Entity where
  motion : Motion
  keys : Keys
  halfExtent : Single
  behavior : Behavior
  /-- The owner is to be told the state of this tick. -/
  dirty : Bool
deriving DecidableEq

namespace Entity

def spawned (position : Vec3) (halfExtent : Single) (behavior : Behavior) : Entity :=
  ⟨.atRest position, .neutral, halfExtent, behavior, false⟩

/-- The square an entity takes up. -/
def shape (entity : Entity) : Shape :=
  .box entity.motion.position entity.halfExtent entity.halfExtent

def step (entity : Entity) (gait : Gait) (dt : Single) : Entity :=
  let (behavior, keys) := entity.behavior.advance entity.keys
  { entity with behavior, keys, motion := entity.motion.step keys gait dt }

end Entity

end Overworld
