import Overworld.Proofs.Grid.Order
import Overworld.Proofs.Grid.Query
import Overworld.Proofs.Number.Order

set_option autoImplicit false

/-!
A query over rectangles answers exactly those that overlap: rectangles that overlap share a cell,
and the entities of shared cells are found whichever way the cells are walked.
-/

namespace Overworld

namespace CellSize

variable {size : CellSize} {a b : Single}

theorem column_mono (valid : size.isValid = true) (order : a ≤ b) :
    size.column a ≤ size.column b := by
  simp only [isValid, Bool.and_eq_true, decide_eq_true_eq] at valid
  obtain ⟨⟨⟨finite, -⟩, positive⟩, -⟩ := valid
  exact Single.floorInt32_mul_mono order (Single.isNonnegative_one_div finite positive)

theorem row_mono (valid : size.isValid = true) (order : a ≤ b) : size.row a ≤ size.row b := by
  simp only [isValid, Bool.and_eq_true, decide_eq_true_eq] at valid
  obtain ⟨⟨⟨-, finite⟩, -⟩, positive⟩ := valid
  exact Single.floorInt32_mul_mono order (Single.isNonnegative_one_div finite positive)

end CellSize

namespace Single

theorem least_le_greatest {a b : Single} (low : (a.least b).isNaN = false) :
    a.least b ≤ a.greatest b := by
  unfold least greatest at *
  cases first : a.isNaN with
  | true =>
      rw [first, if_pos rfl] at low
      rw [if_pos rfl, if_pos rfl]
      exact ⟨low, low, Int.le_refl _⟩
  | false =>
      rw [if_neg Bool.false_ne_true, if_neg Bool.false_ne_true]
      cases second : b.isNaN with
      | true =>
          rw [if_pos rfl, if_pos rfl]
          exact ⟨first, first, Int.le_refl _⟩
      | false =>
          rw [if_neg Bool.false_ne_true, if_neg Bool.false_ne_true]
          by_cases below : a < b
          · have notAbove : ¬ b < a := fun above => Int.lt_asymm below.2.2 above.2.2
            rw [if_neg notAbove, if_pos below]
            exact ⟨first, second, Int.le_of_lt below.2.2⟩
          · rw [if_neg below]
            have order : b.rank ≤ a.rank := Int.not_lt.mp fun ranks => below ⟨first, second, ranks⟩
            split
            · exact ⟨second, first, order⟩
            · exact ⟨first, first, Int.le_refl _⟩

end Single

namespace Rect

/-- Neither side ends before it starts. -/
structure IsUpright (r : Rect) : Prop where
  across : r.minX.isNaN = false → r.minX ≤ r.maxX
  down : r.minY.isNaN = false → r.minY ≤ r.maxY

theorem isUpright_ofCorners (x₀ y₀ x₁ y₁ : Single) : (ofCorners x₀ y₀ x₁ y₁).IsUpright :=
  ⟨Single.least_le_greatest, Single.least_le_greatest⟩

end Rect

/-- Rectangles that overlap lie over a common cell. -/
theorem CellSize.exists_common_cell {size : CellSize} (valid : size.isValid = true) {a b : Rect}
    (first : a.IsUpright) (second : b.IsUpright) (overlap : a.overlaps b = true) :
    ∃ cell, (size.extent a).contains cell = true ∧ (size.extent b).contains cell = true := by
  simp only [Rect.overlaps, decide_eq_true_eq] at overlap
  obtain ⟨left, right, top, bottom⟩ := overlap
  have acrossA := size.column_mono valid (first.across left.1)
  have acrossB := size.column_mono valid (second.across right.1)
  have downA := size.row_mono valid (first.down top.1)
  have downB := size.row_mono valid (second.down bottom.1)
  have columnsA := size.column_mono valid left
  have columnsB := size.column_mono valid right
  have rowsA := size.row_mono valid top
  have rowsB := size.row_mono valid bottom
  refine ⟨⟨max (size.column a.minX) (size.column b.minX),
    max (size.row a.minY) (size.row b.minY)⟩, decide_eq_true ?_, decide_eq_true ?_⟩
  · exact ⟨le_max_left _ _, max_le acrossA columnsB, le_max_left _ _, max_le downA rowsB⟩
  · exact ⟨le_max_right _ _, max_le columnsA acrossB, le_max_right _ _, max_le rowsA downB⟩

namespace Grid

variable {grid : Grid}

theorem mem_entitiesIn {cell : Cell} {id : EntityId} :
    id ∈ grid.entitiesIn cell ↔ ∃ entities, grid.cells[cell]? = some entities ∧ id ∈ entities := by
  unfold entitiesIn
  cases grid.cells[cell]? <;> simp

/-- The entities of those of the occupied cells that an extent contains. -/
def walkOccupied (grid : Grid) (extent : Extent) : List EntityId :=
  (grid.cells.toList.filter fun (cell, _) => extent.contains cell).flatMap (·.2)

/-- The entities of all cells of an extent. -/
def walkExtent (grid : Grid) (extent : Extent) : List EntityId :=
  extent.cells.flatMap grid.entitiesIn

theorem mem_walkOccupied {extent : Extent} {id : EntityId} :
    id ∈ grid.walkOccupied extent ↔
      ∃ cell, extent.contains cell = true ∧ id ∈ grid.entitiesIn cell := by
  simp only [walkOccupied, List.mem_flatMap, List.mem_filter, Prod.exists,
    Std.HashMap.mem_toList_iff_getElem?_eq_some, mem_entitiesIn]
  constructor
  · rintro ⟨cell, entities, ⟨held, inside⟩, member⟩
    exact ⟨cell, inside, entities, held, member⟩
  · rintro ⟨cell, inside, entities, held, member⟩
    exact ⟨cell, entities, ⟨held, inside⟩, member⟩

theorem mem_walkExtent {extent : Extent} {id : EntityId} :
    id ∈ grid.walkExtent extent ↔
      ∃ cell, extent.contains cell = true ∧ id ∈ grid.entitiesIn cell := by
  simp only [walkExtent, List.mem_flatMap, Extent.mem_cells]

/-- Whichever cells are walked, the answer is that of the other walk. -/
theorem candidates_eq_walks (grid : Grid) (extent : Extent) :
    grid.candidates extent = (EntityId.sort (grid.walkOccupied extent)).eraseReps ∧
    grid.candidates extent = (EntityId.sort (grid.walkExtent extent)).eraseReps := by
  have either : (EntityId.sort (grid.walkOccupied extent)).eraseReps =
      (EntityId.sort (grid.walkExtent extent)).eraseReps :=
    EntityId.sort_eraseReps_congr fun _ => mem_walkOccupied.trans mem_walkExtent.symm
  have chosen : grid.candidates extent = (EntityId.sort (if grid.cells.size < extent.cellCount then
      grid.walkOccupied extent else grid.walkExtent extent)).eraseReps := rfl
  rw [chosen]
  split
  · exact ⟨rfl, either⟩
  · exact ⟨either.symm, rfl⟩

/-- A search finds the entities of all cells of the extent. -/
theorem mem_candidates {extent : Extent} {id : EntityId} :
    id ∈ grid.candidates extent ↔
      ∃ cell, extent.contains cell = true ∧ id ∈ grid.entitiesIn cell := by
  rw [(grid.candidates_eq_walks extent).2, EntityId.mem_sort_eraseReps, mem_walkExtent]

/-- Every rectangle placed is upright, and nothing else is placed. -/
def HoldsRects (grid : Grid) : Prop :=
  ∀ id shape, grid.shapeOf? id = some shape → ∃ rect, shape = .rect rect ∧ rect.IsUpright

theorem IsInOrder.mem_query (order : grid.IsInOrder) (rects : grid.HoldsRects) {area : Rect}
    (upright : area.IsUpright) (id : EntityId) :
    id ∈ grid.query (.rect area) ↔
      ∃ shape, grid.shapeOf? id = some shape ∧ (Shape.rect area).intersects shape = true := by
  unfold query coarseQuery
  rw [List.mem_filter, mem_candidates]
  constructor
  · rintro ⟨-, passed⟩
    split at passed
    · cases passed
    · rename_i shape placed
      exact ⟨shape, placed, passed⟩
  · rintro ⟨shape, placed, overlap⟩
    obtain ⟨rect, rfl, isUpright⟩ := rects id shape placed
    obtain ⟨cell, inside, covered⟩ :=
      grid.cellSize.exists_common_cell grid.cellSize_isValid upright isUpright overlap
    obtain ⟨placement, held, isRect⟩ := Option.map_eq_some_iff.mp placed
    refine ⟨⟨cell, inside, (order.listed cell id).mpr ⟨placement, held, ?_, ?_⟩⟩, ?_⟩
    · rw [order.measured id placement held, isRect]
      exact covered
    · rw [isRect]
      rfl
    · rw [placed]
      exact overlap

end Grid

end Overworld
