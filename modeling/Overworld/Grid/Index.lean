import Std.Data.HashMap
import Overworld.Grid.Cells
import Overworld.Roster

set_option autoImplicit false

/-!
A spatial index: which entities belong to each cell, and where each entity was last placed. A move
touches only the cells of the old and the new extent. A query collects the entities of the cells
under the query's bounds and then tests their shapes.
-/

namespace Overworld

/-- Where an entity was last placed. -/
structure Placement where
  extent : Extent
  shape : Shape
deriving DecidableEq

structure Grid where
  cellSize : CellSize
  /-- The occupied cells; no empty list is kept. -/
  cells : Std.HashMap Cell (List EntityId)
  placements : Std.HashMap EntityId Placement
  cellSize_isValid : cellSize.isValid = true

/-- What an audit of an index can find. -/
inductive GridFault
  | untracked (cell : Cell) (entity : EntityId)
  | stray (cell : Cell) (entity : EntityId)
  | duplicate (cell : Cell) (entity : EntityId)
  | missing (cell : Cell) (entity : EntityId)
  | stale (entity : EntityId)
deriving DecidableEq

structure GridStats where
  entities : Nat
  occupiedCells : Nat
  maxPerCell : Nat
  averagePerCell : Single
deriving DecidableEq

namespace Grid

/-- An empty index. A size that is not positive and finite gives way to the standard one. -/
def ofSize (size : CellSize) : Grid :=
  if valid : size.isValid then ⟨size, ∅, ∅, valid⟩
  else ⟨.standard, ∅, ∅, CellSize.standard_isValid⟩

def entitiesIn (grid : Grid) (cell : Cell) : List EntityId := grid.cells[cell]?.getD []

/-- Takes an entity out of the cells of an extent. -/
def unlink (grid : Grid) (entity : EntityId) (extent : Extent) : Grid :=
  { grid with
    cells := extent.cells.foldl (fun cells cell => cells.alter cell fun
      | none => none
      | some entities =>
        let rest := entities.erase entity
        if rest.isEmpty then none else some rest) grid.cells }

/-- Puts an entity into the cells of an extent that its shape belongs to. -/
def link (grid : Grid) (entity : EntityId) (extent : Extent) (shape : Shape) : Grid :=
  { grid with
    cells := (extent.cells.filter (grid.cellSize.reaches shape)).foldl
      (fun cells cell => cells.alter cell fun entities => some (entity :: entities.getD [])) grid.cells
    placements := grid.placements.insert entity ⟨extent, shape⟩ }

/-- Inserts or moves an entity. A rectangle that stays over the same cells only changes its shape. -/
def place (grid : Grid) (entity : EntityId) (shape : Shape) : Grid :=
  let extent := grid.cellSize.extent shape.bounds
  match grid.placements[entity]? with
  | none => grid.link entity extent shape
  | some previous =>
    if previous.extent = extent ∧ previous.shape.isRect ∧ shape.isRect then
      { grid with placements := grid.placements.insert entity ⟨extent, shape⟩ }
    else (grid.unlink entity previous.extent).link entity extent shape

def remove (grid : Grid) (entity : EntityId) : Grid :=
  match grid.placements[entity]? with
  | none => grid
  | some placement =>
    { grid with placements := grid.placements.erase entity }.unlink entity placement.extent

def contains (grid : Grid) (entity : EntityId) : Bool := grid.placements.contains entity

def shapeOf? (grid : Grid) (entity : EntityId) : Option Shape :=
  grid.placements[entity]?.map (·.shape)

def extentOf? (grid : Grid) (entity : EntityId) : Option Extent :=
  grid.placements[entity]?.map (·.extent)

def clear (grid : Grid) : Grid := { grid with cells := ∅, placements := ∅ }

/-- Changes the cell size and places every entity anew; refuses a size that is no positive finite
one. -/
def resize? (grid : Grid) (size : CellSize) : Option Grid :=
  if valid : size.isValid then
    some (grid.placements.toList.foldl (fun grid (entity, placement) =>
      grid.place entity placement.shape) ⟨size, ∅, ∅, valid⟩)
  else none

/-- The entities of the cells of an extent, ascending. Where the extent has more cells than are
occupied, the occupied ones are walked instead. -/
def candidates (grid : Grid) (extent : Extent) : List EntityId :=
  let found :=
    if grid.cells.size < extent.cellCount then
      (grid.cells.toList.filter fun (cell, _) => extent.contains cell).flatMap (·.2)
    else extent.cells.flatMap grid.entitiesIn
  (EntityId.sort found).eraseReps

/-- The entities that share a cell with the bounds of a shape. -/
def coarseQuery (grid : Grid) (shape : Shape) : List EntityId :=
  grid.candidates (grid.cellSize.extent shape.bounds)

/-- The entities whose shape intersects the given one. -/
def query (grid : Grid) (shape : Shape) : List EntityId :=
  (grid.coarseQuery shape).filter fun entity =>
    match grid.shapeOf? entity with
    | none => false
    | some placed => shape.intersects placed

def stats (grid : Grid) : GridStats :=
  let counts := grid.cells.toList.map fun (_, entities) => entities.length
  { entities := grid.placements.size
    occupiedCells := grid.cells.size
    maxPerCell := counts.foldl max 0
    averagePerCell := if grid.cells.size = 0 then .zero else .ofNat (counts.foldl (· + ·) 0) / .ofNat grid.cells.size }

/-- What is wrong with the entry of one entity in the list of a cell. -/
def entryFault? (grid : Grid) (cell : Cell) (entities : List EntityId) (entity : EntityId) :
    Option GridFault :=
  match grid.placements[entity]? with
  | none => some (.untracked cell entity)
  | some placement =>
    if !placement.extent.contains cell || !grid.cellSize.reaches placement.shape cell then
      some (.stray cell entity)
    else if 1 < entities.count entity then some (.duplicate cell entity)
    else none

/-- What is wrong with the placement of one entity. -/
def placementFault? (grid : Grid) (entity : EntityId) (placement : Placement) : Option GridFault :=
  if placement.extent ≠ grid.cellSize.extent placement.shape.bounds then some (.stale entity)
  else
    let owed := placement.extent.cells.filter (grid.cellSize.reaches placement.shape)
    (owed.find? fun cell => !(grid.entitiesIn cell).contains entity).map (.missing · entity)

/-- Checks that cells and placements agree: every entry of a cell is owed and stands there once,
and every entry owed is there. -/
def audit? (grid : Grid) : Option GridFault :=
  let entries := grid.cells.toList.flatMap fun (cell, entities) =>
    entities.filterMap (grid.entryFault? cell entities)
  let owed := grid.placements.toList.filterMap fun (entity, placement) =>
    grid.placementFault? entity placement
  (entries ++ owed).head?

theorem shapeOf?_ofSize (size : CellSize) (id : EntityId) : (ofSize size).shapeOf? id = none := by
  unfold ofSize shapeOf?
  split <;> simp

@[simp] theorem placements_unlink (grid : Grid) (entity : EntityId) (extent : Extent) :
    (grid.unlink entity extent).placements = grid.placements := rfl

/-- A place is where the shape's bounds lie, and no other entity is affected. -/
theorem getElem?_placements_place (grid : Grid) (entity other : EntityId) (shape : Shape) :
    (grid.place entity shape).placements[other]? =
      if entity = other then some ⟨grid.cellSize.extent shape.bounds, shape⟩
      else grid.placements[other]? := by
  unfold place
  dsimp only
  split
  · simp [link, Std.HashMap.getElem?_insert]
  · split <;> simp [link, Std.HashMap.getElem?_insert, unlink]

theorem shapeOf?_place (grid : Grid) (entity other : EntityId) (shape : Shape) :
    (grid.place entity shape).shapeOf? other =
      if entity = other then some shape else grid.shapeOf? other := by
  rw [shapeOf?, getElem?_placements_place, shapeOf?]
  split <;> rfl

theorem shapeOf?_remove (grid : Grid) (entity other : EntityId) :
    (grid.remove entity).shapeOf? other =
      if entity = other then none else grid.shapeOf? other := by
  unfold remove shapeOf?
  split
  · rename_i absent
    split
    · rename_i same
      simp [← same, absent]
    · rfl
  · rw [placements_unlink, Std.HashMap.getElem?_erase]
    by_cases same : entity = other <;> simp [same]

end Grid

end Overworld
