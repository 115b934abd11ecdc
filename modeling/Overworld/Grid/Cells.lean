import Overworld.Number.Decimal
import Overworld.Number.Span
import Overworld.Plane.Shape

set_option autoImplicit false

/-!
A uniform division of the plane into cells, and the cells that a shape belongs to: all those under
its bounds for a rectangle, and for a circle those of them that it reaches.
-/

namespace Overworld

structure Cell where
  x : Int
  y : Int
deriving DecidableEq, Hashable, Inhabited

/-- A rectangle of cells, its last column and row included. -/
structure Extent where
  minX : Int
  minY : Int
  maxX : Int
  maxY : Int
deriving DecidableEq, Inhabited

namespace Extent

def contains (extent : Extent) (cell : Cell) : Bool :=
  extent.minX ≤ cell.x ∧ cell.x ≤ extent.maxX ∧ extent.minY ≤ cell.y ∧ cell.y ≤ extent.maxY

/-- How many cells there are, as far as 64 bits can count. -/
def cellCount (extent : Extent) : Nat :=
  min ((extent.maxX - extent.minX + 1).toNat * (extent.maxY - extent.minY + 1).toNat)
    18446744073709551615

/-- The cells row by row. -/
def cells (extent : Extent) : List Cell :=
  (span extent.minY extent.maxY).flatMap fun y =>
    (span extent.minX extent.maxX).map fun x => ⟨x, y⟩

end Extent

structure CellSize where
  width : Single
  height : Single
deriving DecidableEq

namespace CellSize

/-- Square cells of 64 units, four tiles to a side. -/
def standard : CellSize := ⟨⟨0x42800000⟩, ⟨0x42800000⟩⟩

/-- The part of its size by which a cell is widened before circles are tested against it, so that
no rounding hides a circle that touches it. -/
def slack : Single := ⟨0x38d1b717⟩

def isValid (size : CellSize) : Bool :=
  size.width.isFinite && size.height.isFinite && Single.zero < size.width && Single.zero < size.height

theorem standard_isValid : standard.isValid = true := by decide

def column (size : CellSize) (x : Single) : Int := (x * (.one / size.width)).floorInt32

def row (size : CellSize) (y : Single) : Int := (y * (.one / size.height)).floorInt32

/-- The cells under a rectangle. -/
def extent (size : CellSize) (bounds : Rect) : Extent :=
  ⟨size.column bounds.minX, size.row bounds.minY, size.column bounds.maxX, size.row bounds.maxY⟩

/-- The place of a cell in the world, slightly widened. -/
def cellRect (size : CellSize) (cell : Cell) : Rect :=
  let slackX := size.width * slack
  let slackY := size.height * slack
  .ofCorners (.ofInt cell.x * size.width - slackX) (.ofInt cell.y * size.height - slackY)
    ((.ofInt cell.x + .one) * size.width + slackX) ((.ofInt cell.y + .one) * size.height + slackY)

/-- Whether a shape belongs to a cell of its extent. -/
def reaches (size : CellSize) (shape : Shape) (cell : Cell) : Bool :=
  match shape with
  | .rect _ => true
  | .circle .. => shape.intersects (.rect (size.cellRect cell))

def message (size : CellSize) : String :=
  "Invalid cell size " ++ size.width.text .plain ++ "x" ++ size.height.text .plain

end CellSize

end Overworld
