import Overworld.Plane.Vec3

set_option autoImplicit false

/-!
The direction keys a player holds, one bit each in a byte. Bits beyond the four keys have no effect
on movement, but a byte read from the wire keeps them and compares by them.
-/

namespace Overworld

inductive Direction
  | up
  | down
  | left
  | right
deriving DecidableEq

def Direction.bit : Direction → UInt8
  | .up => 1
  | .down => 2
  | .left => 4
  | .right => 8

structure Keys where
  bits : UInt8
deriving DecidableEq, Inhabited

namespace Keys

def neutral : Keys := ⟨0⟩

/-- Keeps the four key bits of a byte. -/
def ofBits (bits : UInt8) : Keys := ⟨bits &&& 15⟩

def press (keys : Keys) (direction : Direction) : Keys := ⟨keys.bits ||| direction.bit⟩

def release (keys : Keys) (direction : Direction) : Keys := ⟨keys.bits &&& ~~~direction.bit⟩

def set (keys : Keys) (direction : Direction) (pressed : Bool) : Keys :=
  if pressed then keys.press direction else keys.release direction

def isPressed (keys : Keys) (direction : Direction) : Bool := keys.bits &&& direction.bit != 0

def isNeutral (keys : Keys) : Bool := keys.bits &&& 15 == 0

/-- The unit vector the keys point along. Opposite keys cancel, and a diagonal is no longer than a
straight heading. -/
def heading (keys : Keys) : Vec3 :=
  let push (pressed : Bool) (amount base : Single) : Single :=
    if pressed then base + amount else base
  let y := push (keys.isPressed .down) .one (push (keys.isPressed .up) (-.one) .zero)
  let x := push (keys.isPressed .right) .one (push (keys.isPressed .left) (-.one) .zero)
  (Vec3.planar x y).planarNormalize

end Keys

end Overworld
