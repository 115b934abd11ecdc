import Mathlib.Data.List.Nodup
import Overworld.Grid.Index

set_option autoImplicit false

/-!
The cells of an extent, and what taking an entity out of them or putting it into them does to the
list of each cell.
-/

namespace Overworld

/-- Changing a map at each of several keys changes what it holds there, and nothing else. -/
theorem getElem?_foldl_alter {κ β : Type} [BEq κ] [Hashable κ] [LawfulBEq κ] [LawfulHashable κ]
    [DecidableEq κ] (change : Option β → Option β) {keys : List κ} (distinct : keys.Nodup)
    (map : Std.HashMap κ β) (key : κ) :
    (keys.foldl (fun map key => map.alter key change) map)[key]? =
      if key ∈ keys then change map[key]? else map[key]? := by
  induction keys generalizing map with
  | nil => simp
  | cons first rest ih =>
      obtain ⟨once, distinct⟩ := List.nodup_cons.mp distinct
      rw [List.foldl_cons, ih distinct, Std.HashMap.getElem?_alter]
      by_cases same : first = key
      · subst same
        simp [once]
      · have apart : key ≠ first := fun equal => same equal.symm
        simp [same, apart]

namespace Extent

theorem mem_cells {extent : Extent} {cell : Cell} :
    cell ∈ extent.cells ↔ extent.contains cell = true := by
  obtain ⟨x, y⟩ := cell
  simp only [cells, contains, List.mem_flatMap, List.mem_map, mem_span, Cell.mk.injEq,
    decide_eq_true_eq]
  constructor
  · rintro ⟨row, ⟨top, bottom⟩, column, ⟨left, right⟩, rfl, rfl⟩
    exact ⟨left, right, top, bottom⟩
  · rintro ⟨left, right, top, bottom⟩
    exact ⟨y, ⟨top, bottom⟩, x, ⟨left, right⟩, rfl, rfl⟩

theorem nodup_cells (extent : Extent) : extent.cells.Nodup := by
  refine List.nodup_flatMap.mpr ⟨?_, ?_⟩
  · intro y _
    exact (nodup_span extent.minX extent.maxX).map fun _ _ same => (Cell.mk.inj same).1
  · refine (nodup_span extent.minY extent.maxY).imp ?_
    intro a b different cell first second
    obtain ⟨_, -, rfl⟩ := List.mem_map.mp first
    obtain ⟨_, -, same⟩ := List.mem_map.mp second
    exact different (Cell.mk.inj same).2.symm

end Extent

namespace Grid

variable {grid : Grid} {cell : Cell} {entity : EntityId}

theorem entitiesIn_unlink (grid : Grid) (entity : EntityId) (extent : Extent) (cell : Cell) :
    (grid.unlink entity extent).entitiesIn cell =
      if extent.contains cell = true then (grid.entitiesIn cell).erase entity
      else grid.entitiesIn cell := by
  unfold entitiesIn unlink
  rw [getElem?_foldl_alter _ extent.nodup_cells]
  simp only [Extent.mem_cells]
  by_cases inside : extent.contains cell = true
  · rw [if_pos inside, if_pos inside]
    cases grid.cells[cell]? with
    | none => rfl
    | some entities =>
        dsimp only
        split
        · rename_i empty
          exact (List.isEmpty_iff.mp empty).symm
        · rfl
  · rw [if_neg inside, if_neg inside]

theorem entitiesIn_link (grid : Grid) (entity : EntityId) (extent : Extent) (shape : Shape)
    (cell : Cell) :
    (grid.link entity extent shape).entitiesIn cell =
      if extent.contains cell = true ∧ grid.cellSize.reaches shape cell = true then
        entity :: grid.entitiesIn cell
      else grid.entitiesIn cell := by
  unfold entitiesIn link
  rw [getElem?_foldl_alter _ (extent.nodup_cells.filter _)]
  simp only [List.mem_filter, Extent.mem_cells]
  split <;> rfl

/-- No cell keeps an empty list. -/
def KeepsNoEmpty (grid : Grid) : Prop := ∀ cell : Cell, grid.cells[cell]? ≠ some []

theorem KeepsNoEmpty.unlink (keeps : grid.KeepsNoEmpty) (entity : EntityId) (extent : Extent) :
    (grid.unlink entity extent).KeepsNoEmpty := by
  intro cell
  unfold Grid.unlink
  rw [getElem?_foldl_alter _ extent.nodup_cells]
  by_cases inside : cell ∈ extent.cells
  · rw [if_pos inside]
    cases grid.cells[cell]? with
    | none => exact Option.some_ne_none _ ∘ Eq.symm
    | some entities =>
        dsimp only
        split
        · exact Option.some_ne_none _ ∘ Eq.symm
        · rename_i filled
          intro empty
          exact filled (List.isEmpty_iff.mpr (Option.some.inj empty))
  · rw [if_neg inside]
    exact keeps cell

theorem KeepsNoEmpty.link (keeps : grid.KeepsNoEmpty) (entity : EntityId) (extent : Extent)
    (shape : Shape) : (grid.link entity extent shape).KeepsNoEmpty := by
  intro cell
  unfold Grid.link
  rw [getElem?_foldl_alter _ (extent.nodup_cells.filter _)]
  split
  · exact fun empty => List.cons_ne_nil _ _ (Option.some.inj empty)
  · exact keeps cell

end Grid

end Overworld
