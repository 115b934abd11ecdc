import Overworld.Motion.Keys

set_option autoImplicit false

/-!
One step of movement, the same for the server and for a client that predicts it. The step is a
function of its arguments alone, so equal inputs from equal states end in equal states.
-/

namespace Overworld

structure Motion where
  position : Vec3
  velocity : Vec3
deriving DecidableEq, Inhabited

def Motion.atRest (position : Vec3) : Motion := ⟨position, .zero⟩

/-- Top speed, and the change of velocity per second. -/
structure Gait where
  maxSpeed : Single
  acceleration : Single
deriving DecidableEq

/-- Speed 96 and acceleration 960. -/
def Gait.standard : Gait := ⟨⟨0x42c00000⟩, ⟨0x44700000⟩⟩

/-- The thirtieth part of a second. -/
def standardStep : Single := ⟨0x3d088889⟩

namespace Motion

/-- Velocity moves toward the heading at top speed by at most `acceleration * dt`, then the position
moves by the new velocity. A result that is not finite is refused: the entity stops where it is. -/
def step (state : Motion) (keys : Keys) (gait : Gait) (dt : Single) : Motion :=
  let target := keys.heading * gait.maxSpeed
  let toward := state.velocity.moveTowards target (gait.acceleration * dt)
  let velocity := Vec3.planar toward.x toward.y
  let position : Vec3 :=
    ⟨state.position.x + velocity.x * dt, state.position.y + velocity.y * dt, state.position.z⟩
  if position.isFinite && velocity.isFinite then ⟨position, velocity⟩ else .atRest state.position

/-- A run of inputs, one step each. -/
def simulate (state : Motion) (inputs : List Keys) (gait : Gait) (dt : Single) : Motion :=
  inputs.foldl (fun state keys => state.step keys gait dt) state

/-- The states after each input of a run. -/
def trail (state : Motion) (gait : Gait) (dt : Single) : List Keys → List Motion
  | [] => []
  | keys :: inputs => state.step keys gait dt :: trail (state.step keys gait dt) gait dt inputs

end Motion

end Overworld
