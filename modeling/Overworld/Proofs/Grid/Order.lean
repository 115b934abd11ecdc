import Overworld.Proofs.Grid.Links

set_option autoImplicit false

/-!
An index in order: each cell lists exactly the entities that belong to it, each of them once. To
place, to move and to remove an entity keeps it so, and an audit of such an index finds nothing.
-/

namespace Overworld

namespace Grid

/-- An entity belongs to the cells of its extent that its shape reaches. -/
def Owes (grid : Grid) (cell : Cell) (entity : EntityId) : Prop :=
  ∃ placement, grid.placements[entity]? = some placement ∧
    placement.extent.contains cell = true ∧ grid.cellSize.reaches placement.shape cell = true

structure IsInOrder (grid : Grid) : Prop where
  listed : ∀ cell entity, entity ∈ grid.entitiesIn cell ↔ grid.Owes cell entity
  once : ∀ cell, (grid.entitiesIn cell).Nodup
  filled : grid.KeepsNoEmpty
  measured : ∀ (entity : EntityId) placement, grid.placements[entity]? = some placement →
    placement.extent = grid.cellSize.extent placement.shape.bounds

/-- In order but for one entity, which no cell lists. -/
structure IsInOrderWithout (grid : Grid) (left : EntityId) : Prop where
  listed : ∀ cell entity,
    entity ∈ grid.entitiesIn cell ↔ entity ≠ left ∧ grid.Owes cell entity
  once : ∀ cell, (grid.entitiesIn cell).Nodup
  filled : grid.KeepsNoEmpty
  measured : ∀ (entity : EntityId) placement, entity ≠ left →
    grid.placements[entity]? = some placement →
    placement.extent = grid.cellSize.extent placement.shape.bounds

variable {grid : Grid} {entity : EntityId}

theorem isInOrder_of_empty (noCells : grid.cells = ∅) (noPlacements : grid.placements = ∅) :
    grid.IsInOrder where
  listed cell entity := by simp [entitiesIn, Owes, noCells, noPlacements]
  once cell := by simp [entitiesIn, noCells]
  filled cell := by simp [noCells]
  measured entity placement placed := by simp [noPlacements] at placed

theorem isInOrder_ofSize (size : CellSize) : (ofSize size).IsInOrder := by
  unfold ofSize
  split <;> exact isInOrder_of_empty rfl rfl

theorem IsInOrder.without (order : grid.IsInOrder) (absent : grid.placements[entity]? = none) :
    grid.IsInOrderWithout entity where
  listed cell other := by
    rw [order.listed]
    refine ⟨fun owed => ⟨?_, owed⟩, And.right⟩
    rintro rfl
    obtain ⟨placement, placed, -⟩ := owed
    rw [absent] at placed
    cases placed
  once := order.once
  filled := order.filled
  measured other placement _ := order.measured other placement

theorem IsInOrder.unlink (order : grid.IsInOrder) {placement : Placement}
    (placed : grid.placements[entity]? = some placement) :
    (grid.unlink entity placement.extent).IsInOrderWithout entity where
  listed cell other := by
    have owed : (grid.unlink entity placement.extent).Owes cell other ↔ grid.Owes cell other :=
      Iff.rfl
    rw [entitiesIn_unlink, owed, ← order.listed]
    by_cases inside : placement.extent.contains cell = true
    · rw [if_pos inside, (order.once cell).mem_erase_iff]
    · rw [if_neg inside]
      refine ⟨fun listed => ⟨?_, listed⟩, And.right⟩
      rintro rfl
      obtain ⟨other, found, covers, -⟩ := (order.listed cell _).mp listed
      rw [placed] at found
      cases found
      exact inside covers
  once cell := by
    rw [entitiesIn_unlink]
    split
    · exact (order.once cell).erase _
    · exact order.once cell
  filled := order.filled.unlink _ _
  measured other placement _ := order.measured other placement

@[simp] theorem cellSize_link (grid : Grid) (entity : EntityId) (extent : Extent) (shape : Shape) :
    (grid.link entity extent shape).cellSize = grid.cellSize := rfl

theorem getElem?_placements_link (grid : Grid) (entity other : EntityId) (extent : Extent)
    (shape : Shape) :
    (grid.link entity extent shape).placements[other]? =
      if entity = other then some ⟨extent, shape⟩ else grid.placements[other]? := by
  simp [link, Std.HashMap.getElem?_insert]

theorem IsInOrderWithout.link (order : grid.IsInOrderWithout entity) (shape : Shape) :
    (grid.link entity (grid.cellSize.extent shape.bounds) shape).IsInOrder where
  listed cell other := by
    unfold Owes
    rw [entitiesIn_link, getElem?_placements_link]
    by_cases same : entity = other
    · subst same
      have absent : entity ∉ grid.entitiesIn cell := fun member =>
        ((order.listed cell entity).mp member).1 rfl
      simp only [if_pos, Option.some.injEq, exists_eq_left', cellSize_link]
      split <;> simp [*]
    · rw [if_neg same]
      have different : other ≠ entity := fun equal => same equal.symm
      have kept : other ∈ grid.entitiesIn cell ↔ grid.Owes cell other :=
        (order.listed cell other).trans (and_iff_right different)
      split
      · exact ((List.mem_cons.trans (or_iff_right different)).trans kept)
      · exact kept
  once cell := by
    rw [entitiesIn_link]
    split
    · exact List.nodup_cons.mpr
        ⟨fun member => ((order.listed cell entity).mp member).1 rfl, order.once cell⟩
    · exact order.once cell
  filled := order.filled.link _ _ _
  measured other placement placed := by
    rw [getElem?_placements_link] at placed
    by_cases same : entity = other
    · rw [if_pos same] at placed
      cases placed
      rfl
    · rw [if_neg same] at placed
      exact order.measured other placement (fun equal => same equal.symm) placed

theorem IsInOrderWithout.erase (order : grid.IsInOrderWithout entity) :
    ({ grid with placements := grid.placements.erase entity } : Grid).IsInOrder := by
  have kept : ∀ other, (grid.placements.erase entity)[other]? =
      if other = entity then none else grid.placements[other]? := by
    intro other
    rw [Std.HashMap.getElem?_erase]
    by_cases same : entity = other
    · simp [same]
    · have different : other ≠ entity := fun equal => same equal.symm
      simp [same, different]
  refine ⟨fun cell other => ?_, order.once, order.filled, fun other placement placed => ?_⟩
  · refine (order.listed cell other).trans ?_
    unfold Owes
    rw [kept]
    by_cases same : other = entity <;> simp [same]
  · rw [kept] at placed
    by_cases same : other = entity
    · rw [if_pos same] at placed
      cases placed
    · rw [if_neg same] at placed
      exact order.measured other placement same placed

/-- A rectangle belongs to every cell of its extent, so one that stays over the same cells changes
nothing in their lists. -/
theorem IsInOrder.reshape (order : grid.IsInOrder) {previous : Placement} {shape : Shape}
    (placed : grid.placements[entity]? = some previous)
    (stays : previous.extent = grid.cellSize.extent shape.bounds)
    (wasRect : previous.shape.isRect = true) (isRect : shape.isRect = true) :
    ({ grid with
      placements := grid.placements.insert entity ⟨grid.cellSize.extent shape.bounds, shape⟩ } :
      Grid).IsInOrder := by
  have reaches : ∀ (shape : Shape) cell, shape.isRect = true →
      grid.cellSize.reaches shape cell = true := by
    intro shape cell isRect
    cases shape with
    | rect => rfl
    | circle => cases isRect
  refine ⟨fun cell other => ?_, order.once, order.filled, fun other placement found => ?_⟩
  · refine (order.listed cell other).trans ?_
    unfold Owes
    rw [Std.HashMap.getElem?_insert]
    by_cases same : entity = other
    · subst same
      simp [placed, ← stays, reaches _ _ wasRect, reaches _ _ isRect]
    · rw [beq_eq_false_iff_ne.mpr same]
      rfl
  · rw [Std.HashMap.getElem?_insert] at found
    split at found
    · cases found
      rfl
    · exact order.measured other placement found

theorem IsInOrder.place (order : grid.IsInOrder) (entity : EntityId) (shape : Shape) :
    (grid.place entity shape).IsInOrder := by
  unfold Grid.place
  dsimp only
  cases placed : grid.placements[entity]? with
  | none => exact (order.without placed).link shape
  | some previous =>
      dsimp only
      split
      · rename_i unmoved
        obtain ⟨stays, wasRect, isRect⟩ := unmoved
        exact order.reshape placed stays wasRect isRect
      · exact (order.unlink placed).link shape

theorem IsInOrder.remove (order : grid.IsInOrder) (entity : EntityId) :
    (grid.remove entity).IsInOrder := by
  unfold Grid.remove
  cases placed : grid.placements[entity]? with
  | none => exact order
  | some placement => exact (order.unlink placed).erase

theorem IsInOrder.entryFault? (order : grid.IsInOrder) {cell : Cell} {entities : List EntityId}
    (held : grid.cells[cell]? = some entities) (member : entity ∈ entities) :
    grid.entryFault? cell entities entity = none := by
  have here : grid.entitiesIn cell = entities := by
    rw [entitiesIn, held]
    rfl
  obtain ⟨placement, placed, inside, reached⟩ := (order.listed cell entity).mp (here ▸ member)
  have atMostOnce : entities.count entity ≤ 1 :=
    List.nodup_iff_count_le_one.mp (here ▸ order.once cell) entity
  unfold Grid.entryFault?
  rw [placed]
  dsimp only
  rw [inside, reached, if_neg (by simp), if_neg (Nat.not_lt.mpr atMostOnce)]

theorem IsInOrder.placementFault? (order : grid.IsInOrder) {placement : Placement}
    (placed : grid.placements[entity]? = some placement) :
    grid.placementFault? entity placement = none := by
  unfold Grid.placementFault?
  rw [if_neg (not_not_intro (order.measured entity placement placed))]
  dsimp only
  rw [List.find?_eq_none.mpr, Option.map_none]
  intro cell owed
  rw [List.mem_filter, Extent.mem_cells] at owed
  have listed := (order.listed cell entity).mpr ⟨placement, placed, owed⟩
  simp [listed]

theorem IsInOrder.audit? (order : grid.IsInOrder) : grid.audit? = none := by
  unfold Grid.audit?
  dsimp only
  rw [List.head?_eq_none_iff, List.append_eq_nil_iff]
  constructor
  · rw [List.flatMap_eq_nil_iff]
    rintro ⟨cell, entities⟩ held
    rw [Std.HashMap.mem_toList_iff_getElem?_eq_some] at held
    exact List.filterMap_eq_nil_iff.mpr fun entity member => order.entryFault? held member
  · rw [List.filterMap_eq_nil_iff]
    rintro ⟨entity, placement⟩ placed
    rw [Std.HashMap.mem_toList_iff_getElem?_eq_some] at placed
    exact order.placementFault? placed

end Grid

end Overworld
