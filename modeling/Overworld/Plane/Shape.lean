import Overworld.Plane.Vec3

set_option autoImplicit false

/-!
Rectangles and circles of the plane. All tests are closed: shapes that only touch intersect.
-/

namespace Overworld

/-- A rectangle along the axes. -/
structure Rect where
  minX : Single
  minY : Single
  maxX : Single
  maxY : Single
deriving DecidableEq, Inhabited

namespace Rect

/-- The rectangle with two opposite corners, given in any order. -/
def ofCorners (x₀ y₀ x₁ y₁ : Single) : Rect :=
  ⟨x₀.least x₁, y₀.least y₁, x₀.greatest x₁, y₀.greatest y₁⟩

def centered (center : Vec3) (halfWidth halfHeight : Single) : Rect :=
  ofCorners (center.x - halfWidth) (center.y - halfHeight)
    (center.x + halfWidth) (center.y + halfHeight)

def width (r : Rect) : Single := r.maxX - r.minX

def height (r : Rect) : Single := r.maxY - r.minY

def overlaps (a b : Rect) : Bool :=
  a.minX ≤ b.maxX ∧ b.minX ≤ a.maxX ∧ a.minY ≤ b.maxY ∧ b.minY ≤ a.maxY

def containsPoint (r : Rect) (x y : Single) : Bool :=
  r.minX ≤ x ∧ x ≤ r.maxX ∧ r.minY ≤ y ∧ y ≤ r.maxY

/-- Whether the point of the rectangle nearest to the center lies within the radius. -/
def meetsCircle (r : Rect) (centerX centerY radius : Single) : Bool :=
  let dx := centerX - centerX.clamp r.minX r.maxX
  let dy := centerY - centerY.clamp r.minY r.maxY
  dx * dx + dy * dy ≤ radius * radius

end Rect

inductive Shape
  | rect (bounds : Rect)
  | circle (centerX centerY radius : Single)
deriving DecidableEq, Inhabited

namespace Shape

def box (center : Vec3) (halfWidth halfHeight : Single) : Shape :=
  .rect (.centered center halfWidth halfHeight)

/-- A circle; the sign of the radius does not count. -/
def disk (center : Vec3) (radius : Single) : Shape :=
  .circle center.x center.y radius.abs

/-- The smallest rectangle around the shape. -/
def bounds : Shape → Rect
  | .rect r => r
  | .circle x y radius => ⟨x - radius, y - radius, x + radius, y + radius⟩

def isRect : Shape → Bool
  | .rect _ => true
  | .circle .. => false

def intersects : Shape → Shape → Bool
  | .rect a, .rect b => a.overlaps b
  | .rect r, .circle x y radius => r.meetsCircle x y radius
  | .circle x y radius, .rect r => r.meetsCircle x y radius
  | .circle x₁ y₁ r₁, .circle x₂ y₂ r₂ =>
    let dx := x₁ - x₂
    let dy := y₁ - y₂
    let reach := r₁ + r₂
    dx * dx + dy * dy ≤ reach * reach

end Shape

end Overworld
