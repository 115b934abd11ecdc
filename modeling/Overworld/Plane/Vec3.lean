import Overworld.Number.Single

set_option autoImplicit false

/-!
Points and displacements of the world. Movement happens in the plane of `x` and `y`; the height `z`
is carried along, and lengths and distances leave it out.
-/

namespace Overworld

structure Vec3 where
  x : Single
  y : Single
  z : Single
deriving DecidableEq, Inhabited

namespace Vec3

def zero : Vec3 := ⟨.zero, .zero, .zero⟩

/-- A point on the ground. -/
def planar (x y : Single) : Vec3 := ⟨x, y, .zero⟩

instance : Add Vec3 := ⟨fun a b => ⟨a.x + b.x, a.y + b.y, a.z + b.z⟩⟩
instance : Sub Vec3 := ⟨fun a b => ⟨a.x - b.x, a.y - b.y, a.z - b.z⟩⟩
instance : Neg Vec3 := ⟨fun a => ⟨-a.x, -a.y, -a.z⟩⟩
instance : HMul Vec3 Single Vec3 := ⟨fun a s => ⟨a.x * s, a.y * s, a.z * s⟩⟩

def planarLengthSquared (a : Vec3) : Single := a.x * a.x + a.y * a.y

def planarLength (a : Vec3) : Single := a.planarLengthSquared.sqrt

def planarDistance (a b : Vec3) : Single := (a - b).planarLength

/-- The unit vector along `a` in the plane; zero where `a` has no length. -/
def planarNormalize (a : Vec3) : Vec3 :=
  let length := a.planarLength
  if Single.zero < length then ⟨a.x / length, a.y / length, .zero⟩ else .zero

/-- Moves at most `reach` toward `target` in the plane and keeps its own height. Within reach it
arrives exactly. -/
def moveTowards (a target : Vec3) (reach : Single) : Vec3 :=
  let delta := target - a
  let distance := delta.planarLength
  if distance ≤ reach ∨ distance.sameValue .zero then ⟨target.x, target.y, a.z⟩
  else
    let scale := reach / distance
    ⟨a.x + delta.x * scale, a.y + delta.y * scale, a.z⟩

def isFinite (a : Vec3) : Bool := a.x.isFinite && a.y.isFinite && a.z.isFinite

/-- Whether every coordinate differs by less than `tolerance`. -/
def approximates (a b : Vec3) (tolerance : Single) : Bool :=
  (a.x - b.x).abs < tolerance ∧ (a.y - b.y).abs < tolerance ∧ (a.z - b.z).abs < tolerance

end Vec3

end Overworld
