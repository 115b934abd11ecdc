import Overworld.Proofs.Grid.Overlap

set_option autoImplicit false

/-!
An index after any run of changes. The cell size last accepted and the shapes last set decide all
that is in it but the order within a cell, whatever came before them.
-/

namespace Overworld

/-- Whether an entity of this shape belongs to a cell. -/
def CellSize.holds (size : CellSize) (shape : Shape) (cell : Cell) : Bool :=
  (size.extent shape.bounds).contains cell && size.reaches shape cell

/-- The statistics of so many entities and of occupied cells with these numbers of them. -/
def GridStats.ofCounts (entities : Nat) (counts : List Nat) : GridStats where
  entities
  occupiedCells := counts.length
  maxPerCell := counts.foldl max 0
  averagePerCell :=
    if counts.length = 0 then .zero
    else .ofNat (counts.foldl (· + ·) 0) / .ofNat counts.length

namespace Grid

/-- What the cell size and the shape of each entity tell of an index. -/
structure IsOf (grid : Grid) (size : CellSize) (shapes : EntityId → Option Shape) : Prop where
  cellSize : grid.cellSize = size
  placed : ∀ id, grid.placements[id]? =
    (shapes id).map fun shape => ⟨size.extent shape.bounds, shape⟩
  listed : ∀ cell id, id ∈ grid.entitiesIn cell ↔
    ∃ shape, shapes id = some shape ∧ size.holds shape cell = true
  once : ∀ cell, (grid.entitiesIn cell).Nodup
  filled : grid.KeepsNoEmpty

/-- The same but for the order within the cells. -/
structure Resembles (grid other : Grid) : Prop where
  cellSize : grid.cellSize = other.cellSize
  placed : ∀ id : EntityId, grid.placements[id]? = other.placements[id]?
  cells : ∀ cell : Cell, Option.Rel List.Perm grid.cells[cell]? other.cells[cell]?

variable {grid other : Grid} {size : CellSize} {shapes : EntityId → Option Shape}

theorem IsInOrder.isOf (order : grid.IsInOrder) : grid.IsOf grid.cellSize grid.shapeOf? where
  cellSize := rfl
  placed id := by
    unfold shapeOf?
    cases placed : grid.placements[id]? with
    | none => rfl
    | some placement => simp [← order.measured id placement placed]
  listed cell id := by
    rw [order.listed]
    unfold Owes shapeOf? CellSize.holds
    cases placed : grid.placements[id]? with
    | none => simp
    | some placement => simp [order.measured id placement placed]
  once := order.once
  filled := order.filled

theorem getElem?_cells_eq_none (filled : grid.KeepsNoEmpty) (cell : Cell) :
    grid.cells[cell]? = none ↔ grid.entitiesIn cell = [] := by
  unfold entitiesIn
  cases held : grid.cells[cell]? with
  | none => simp
  | some entities =>
      have nonempty : entities ≠ [] := fun empty => filled cell (by rw [held, empty])
      simp [nonempty]

theorem IsOf.resembles (first : grid.IsOf size shapes) (second : other.IsOf size shapes) :
    grid.Resembles other where
  cellSize := first.cellSize.trans second.cellSize.symm
  placed id := (first.placed id).trans (second.placed id).symm
  cells cell := by
    have perm : (grid.entitiesIn cell).Perm (other.entitiesIn cell) :=
      (List.perm_ext_iff_of_nodup (first.once cell) (second.once cell)).mpr fun id =>
        (first.listed cell id).trans (second.listed cell id).symm
    have empty := getElem?_cells_eq_none first.filled cell
    have alsoEmpty := getElem?_cells_eq_none second.filled cell
    unfold entitiesIn at perm empty alsoEmpty
    cases held : grid.cells[cell]? with
    | none =>
        rw [held] at perm
        rw [alsoEmpty.mpr (List.nil_perm.mp perm)]
        exact Option.Rel.none
    | some entities =>
        cases alsoHeld : other.cells[cell]? with
        | none =>
            rw [alsoHeld] at perm
            rw [empty.mpr (List.perm_nil.mp perm)] at held
            cases held
        | some others =>
            rw [held, alsoHeld] at perm
            exact Option.Rel.some perm

theorem stats_eq (grid : Grid) :
    grid.stats = .ofCounts grid.placements.size (grid.cells.toList.map (·.2.length)) := by
  unfold Grid.stats GridStats.ofCounts
  rw [List.length_map, Std.HashMap.length_toList]

/-- An index counts the entities that have a shape, the cells that some of them belong to, and in
each of these cells the entities that do. -/
theorem IsOf.stats (isOf : grid.IsOf size shapes) :
    ∃ (ids : List EntityId) (cells : List Cell),
      ids.Nodup ∧ (∀ id, id ∈ ids ↔ (shapes id).isSome = true) ∧
      cells.Nodup ∧ (∀ cell, cell ∈ cells ↔
        ∃ id shape, shapes id = some shape ∧ size.holds shape cell = true) ∧
      grid.stats = .ofCounts ids.length
        (cells.map fun cell => ids.countP fun id => (shapes id).any (size.holds · cell)) := by
  have mem_ids : ∀ id, id ∈ grid.placements.keys ↔ (shapes id).isSome = true := by
    intro id
    rw [Std.HashMap.mem_keys, Std.HashMap.mem_iff_isSome_getElem?, isOf.placed, Option.isSome_map]
  have counted : ∀ cell, (grid.entitiesIn cell).length =
      grid.placements.keys.countP fun id => (shapes id).any (size.holds · cell) := by
    intro cell
    rw [List.countP_eq_length_filter]
    refine List.Perm.length_eq ((List.perm_ext_iff_of_nodup (isOf.once cell)
      (Std.HashMap.nodup_keys.filter _)).mpr fun id => ?_)
    rw [isOf.listed, List.mem_filter, mem_ids]
    cases shapes id <;> simp
  have counts : grid.cells.toList.map (·.2.length) =
      grid.cells.keys.map fun cell =>
        grid.placements.keys.countP fun id => (shapes id).any (size.holds · cell) := by
    rw [← Std.HashMap.map_fst_toList_eq_keys (m := grid.cells), List.map_map]
    refine List.map_congr_left fun entry held => ?_
    have found := Std.HashMap.mem_toList_iff_getElem?_eq_some.mp held
    rw [Function.comp_apply, ← counted, entitiesIn, found]
    rfl
  refine ⟨grid.placements.keys, grid.cells.keys, Std.HashMap.nodup_keys, mem_ids,
    Std.HashMap.nodup_keys, fun cell => ?_, ?_⟩
  · rw [Std.HashMap.mem_keys, Std.HashMap.mem_iff_isSome_getElem?, ← Option.ne_none_iff_isSome,
      ne_eq, getElem?_cells_eq_none isOf.filled, List.eq_nil_iff_forall_not_mem, not_forall_not]
    exact exists_congr fun id => isOf.listed cell id
  · rw [stats_eq, counts, Std.HashMap.length_keys]

/-- A change of an index. -/
inductive Change
  | place (entity : EntityId) (shape : Shape)
  | remove (entity : EntityId)
  | clear
  | resize (size : CellSize)

/-- Makes a change. A size that is refused changes nothing. -/
def change (grid : Grid) : Change → Grid
  | .place entity shape => grid.place entity shape
  | .remove entity => grid.remove entity
  | .clear => grid.clear
  | .resize size => (grid.resize? size).getD grid

def run (size : CellSize) (changes : List Change) : Grid := changes.foldl change (.ofSize size)

/-- The shape of an entity after one more change. -/
def Change.shapeAfter (id : EntityId) (shape : Option Shape) : Change → Option Shape
  | .place entity placed => if entity = id then some placed else shape
  | .remove entity => if entity = id then none else shape
  | .clear => none
  | .resize _ => shape

/-- The shape that an entity was last placed with and not taken out since. -/
def lastShape? (changes : List Change) (id : EntityId) : Option Shape :=
  changes.foldl (Change.shapeAfter id) none

/-- The cell size after one more change. -/
def Change.sizeAfter (size : CellSize) : Change → CellSize
  | .resize wanted => if wanted.isValid then wanted else size
  | _ => size

/-- The cell size that was last accepted. -/
def lastSize (size : CellSize) (changes : List Change) : CellSize :=
  changes.foldl Change.sizeAfter (if size.isValid then size else .standard)

def placeAll (grid : Grid) (entries : List (EntityId × Shape)) : Grid :=
  entries.foldl (fun grid (entity, shape) => grid.place entity shape) grid

theorem cellSize_place (grid : Grid) (entity : EntityId) (shape : Shape) :
    (grid.place entity shape).cellSize = grid.cellSize := by
  unfold place
  dsimp only
  split
  · rfl
  · split <;> rfl

theorem cellSize_placeAll (grid : Grid) (entries : List (EntityId × Shape)) :
    (grid.placeAll entries).cellSize = grid.cellSize := by
  induction entries generalizing grid with
  | nil => rfl
  | cons entry rest ih => exact (ih _).trans (grid.cellSize_place entry.1 entry.2)

theorem IsInOrder.placeAll (order : grid.IsInOrder) (entries : List (EntityId × Shape)) :
    (grid.placeAll entries).IsInOrder := by
  induction entries generalizing grid with
  | nil => exact order
  | cons entry rest ih => exact ih (order.place entry.1 entry.2)

/-- Where no entity is placed twice, each has the shape it was placed with. -/
theorem shapeOf?_placeAll {entries : List (EntityId × Shape)}
    (distinct : (entries.map (·.1)).Nodup) (grid : Grid) (id : EntityId) (shape : Shape) :
    (grid.placeAll entries).shapeOf? id = some shape ↔
      (id, shape) ∈ entries ∨ id ∉ entries.map (·.1) ∧ grid.shapeOf? id = some shape := by
  induction entries generalizing grid with
  | nil => simp [placeAll]
  | cons entry rest ih =>
      obtain ⟨entity, placed⟩ := entry
      obtain ⟨once, distinct⟩ := List.nodup_cons.mp distinct
      refine (ih distinct (grid.place entity placed)).trans ?_
      rw [shapeOf?_place, List.map_cons, List.mem_cons, List.mem_cons, not_or]
      by_cases same : entity = id
      · subst same
        have absent : (entity, shape) ∉ rest := fun member =>
          once (List.mem_map_of_mem (f := (·.1)) member)
        simp [absent, once, eq_comm]
      · have apart : id ≠ entity := fun equal => same equal.symm
        simp [same, apart]

theorem resize?_eq_none (grid : Grid) {size : CellSize} (refused : size.isValid = false) :
    grid.resize? size = none := by
  simp [resize?, refused]

/-- An index with an accepted cell size is a fresh one with every entity placed as before. -/
theorem resize?_eq_some (grid : Grid) {size : CellSize} (valid : size.isValid = true) :
    grid.resize? size = some (placeAll ⟨size, ∅, ∅, valid⟩
      (grid.placements.toList.map fun (entity, placement) => (entity, placement.shape))) := by
  unfold resize? placeAll
  rw [dif_pos valid, List.foldl_map]

theorem cellSize_change (grid : Grid) (change : Change) :
    (grid.change change).cellSize = change.sizeAfter grid.cellSize := by
  cases change with
  | place entity shape => exact grid.cellSize_place entity shape
  | remove entity =>
      change (grid.remove entity).cellSize = grid.cellSize
      unfold remove
      split <;> rfl
  | clear => rfl
  | resize wanted =>
      change ((grid.resize? wanted).getD grid).cellSize =
        if wanted.isValid then wanted else grid.cellSize
      by_cases valid : wanted.isValid = true
      · rw [resize?_eq_some grid valid, if_pos valid, Option.getD_some, cellSize_placeAll]
      · rw [resize?_eq_none grid (Bool.not_eq_true _ ▸ valid), if_neg valid, Option.getD_none]

theorem IsInOrder.change (order : grid.IsInOrder) (change : Change) :
    (grid.change change).IsInOrder := by
  cases change with
  | place entity shape => exact order.place entity shape
  | remove entity => exact order.remove entity
  | clear => exact isInOrder_of_empty rfl rfl
  | resize wanted =>
      change ((grid.resize? wanted).getD grid).IsInOrder
      cases valid : wanted.isValid with
      | false =>
          rw [resize?_eq_none grid valid]
          exact order
      | true =>
          rw [resize?_eq_some grid valid]
          exact (isInOrder_of_empty rfl rfl).placeAll _

/-- To place every entity anew keeps the shape of each. -/
theorem shapeOf?_resize? {after : Grid} {wanted : CellSize}
    (resized : grid.resize? wanted = some after) (id : EntityId) :
    after.shapeOf? id = grid.shapeOf? id := by
  cases valid : wanted.isValid with
  | false =>
      rw [resize?_eq_none grid valid] at resized
      cases resized
  | true =>
      rw [resize?_eq_some grid valid] at resized
      cases resized
      have distinct : ((grid.placements.toList.map fun (entity, placement) =>
          (entity, placement.shape)).map (·.1)).Nodup := by
        rw [List.map_map]
        exact Std.HashMap.map_fst_toList_eq_keys (m := grid.placements) ▸ Std.HashMap.nodup_keys
      refine Option.ext fun shape => (shapeOf?_placeAll distinct _ id shape).trans ?_
      simp only [List.mem_map, Prod.exists, Prod.mk.injEq,
        Std.HashMap.mem_toList_iff_getElem?_eq_some]
      simp [shapeOf?]

theorem shapeOf?_change (grid : Grid) (change : Change) (id : EntityId) :
    (grid.change change).shapeOf? id = change.shapeAfter id (grid.shapeOf? id) := by
  cases change with
  | place entity shape => exact grid.shapeOf?_place entity id shape
  | remove entity => exact grid.shapeOf?_remove entity id
  | clear => simp [Grid.change, Grid.clear, shapeOf?, Change.shapeAfter]
  | resize wanted =>
      change ((grid.resize? wanted).getD grid).shapeOf? id = grid.shapeOf? id
      cases resized : grid.resize? wanted with
      | none => rfl
      | some after => exact shapeOf?_resize? resized id

theorem cellSize_ofSize (size : CellSize) :
    (ofSize size).cellSize = if size.isValid then size else .standard := by
  unfold ofSize
  split <;> rfl

theorem cellSize_run (size : CellSize) (changes : List Change) :
    (run size changes).cellSize = lastSize size changes := by
  have fold : ∀ grid : Grid, (changes.foldl change grid).cellSize =
      changes.foldl Change.sizeAfter grid.cellSize := by
    induction changes with
    | nil => exact fun _ => rfl
    | cons first rest ih =>
        intro grid
        rw [List.foldl_cons, List.foldl_cons, ih, cellSize_change]
  rw [run, fold, cellSize_ofSize]
  rfl

theorem shapeOf?_run (size : CellSize) (changes : List Change) (id : EntityId) :
    (run size changes).shapeOf? id = lastShape? changes id := by
  have fold : ∀ grid : Grid, (changes.foldl change grid).shapeOf? id =
      changes.foldl (Change.shapeAfter id) (grid.shapeOf? id) := by
    induction changes with
    | nil => exact fun _ => rfl
    | cons first rest ih =>
        intro grid
        rw [List.foldl_cons, List.foldl_cons, ih, shapeOf?_change]
  rw [run, fold, shapeOf?_ofSize]
  rfl

theorem run_isInOrder (size : CellSize) (changes : List Change) :
    (run size changes).IsInOrder := by
  have fold : ∀ grid : Grid, grid.IsInOrder → (changes.foldl change grid).IsInOrder := by
    induction changes with
    | nil => exact fun _ order => order
    | cons first rest ih => exact fun grid order => ih _ (order.change first)
  exact fold _ (isInOrder_ofSize size)

theorem run_isOf (size : CellSize) (changes : List Change) :
    (run size changes).IsOf (lastSize size changes) (lastShape? changes) := by
  have isOf := (run_isInOrder size changes).isOf
  rw [cellSize_run, funext (shapeOf?_run size changes)] at isOf
  exact isOf

theorem placeAll_isOf {entries : List (EntityId × Shape)} (distinct : (entries.map (·.1)).Nodup)
    (final : ∀ id shape, (id, shape) ∈ entries ↔ shapes id = some shape) (size : CellSize) :
    ((ofSize size).placeAll entries).IsOf (ofSize size).cellSize shapes := by
  have isOf := ((isInOrder_ofSize size).placeAll entries).isOf
  have shapeOf : ((ofSize size).placeAll entries).shapeOf? = shapes := by
    funext id
    refine Option.ext fun shape => (shapeOf?_placeAll distinct _ id shape).trans ?_
    simp [shapeOf?_ofSize, final]
  rw [cellSize_placeAll, shapeOf] at isOf
  exact isOf

theorem isValid_lastSize (size : CellSize) (changes : List Change) :
    (lastSize size changes).isValid = true := by
  rw [← cellSize_run]
  exact (run size changes).cellSize_isValid

/-- After any run of changes each cell lists exactly the entities whose last shape belongs to it,
once each; what is recorded of an entity is its last shape; an audit finds nothing; and the numbers
are those of the entities, of the cells that some belong to and of the entities in each. A fresh
index with these shapes is the same but for the order within the cells. A size that is refused
changes nothing. -/
theorem run_is_of_last_shapes (size : CellSize) (changes : List Change) :
    (run size changes).IsOf (lastSize size changes) (lastShape? changes) ∧
    (run size changes).audit? = none ∧
    (∃ (ids : List EntityId) (cells : List Cell),
      ids.Nodup ∧ (∀ id, id ∈ ids ↔ (lastShape? changes id).isSome = true) ∧
      cells.Nodup ∧ (∀ cell, cell ∈ cells ↔ ∃ id shape, lastShape? changes id = some shape ∧
        (lastSize size changes).holds shape cell = true) ∧
      (run size changes).stats = .ofCounts ids.length (cells.map fun cell =>
        ids.countP fun id => (lastShape? changes id).any ((lastSize size changes).holds · cell))) ∧
    (∀ entries : List (EntityId × Shape), (entries.map (·.1)).Nodup →
      (∀ id shape, (id, shape) ∈ entries ↔ lastShape? changes id = some shape) →
      (run size changes).Resembles ((ofSize (lastSize size changes)).placeAll entries)) ∧
    ∀ refused : CellSize, refused.isValid = false →
      (run size changes).resize? refused = none ∧
      (run size changes).change (.resize refused) = run size changes := by
  have isOf := run_isOf size changes
  refine ⟨isOf, (run_isInOrder size changes).audit?, isOf.stats, ?_, ?_⟩
  · intro entries distinct final
    have fresh := placeAll_isOf distinct final (lastSize size changes)
    rw [cellSize_ofSize, if_pos (isValid_lastSize size changes)] at fresh
    exact isOf.resembles fresh
  · intro refused isRefused
    have unchanged := resize?_eq_none (run size changes) isRefused
    refine ⟨unchanged, ?_⟩
    show ((run size changes).resize? refused).getD _ = _
    rw [unchanged]
    rfl

/-- A disk and a square: the square goes and comes back as a disk, and the cells are refused one size
and given another. -/
def reshaped : List Change :=
  [.place ⟨0, 0⟩ (.rect ⟨.zero, .zero, .one, .one⟩), .place ⟨1, 0⟩ (.circle .zero .zero .half),
    .remove ⟨0, 0⟩, .resize ⟨.zero, .one⟩, .resize ⟨.half, .one⟩,
    .place ⟨0, 0⟩ (.circle .one .zero .half)]

theorem reshaped_resembles_fresh :
    (run .standard reshaped).Resembles ((ofSize ⟨.half, .one⟩).placeAll
      [(⟨0, 0⟩, .circle .one .zero .half), (⟨1, 0⟩, .circle .zero .zero .half)]) := by
  have size : lastSize .standard reshaped = ⟨.half, .one⟩ := by decide
  have final : ∀ id shape, (id, shape) ∈ [((⟨0, 0⟩ : EntityId), Shape.circle .one .zero .half),
      (⟨1, 0⟩, .circle .zero .zero .half)] ↔ lastShape? reshaped id = some shape := by
    intro id shape
    simp only [lastShape?, reshaped, List.foldl_cons, List.foldl_nil, Change.shapeAfter]
    by_cases first : (⟨0, 0⟩ : EntityId) = id
    · subst first
      simp [eq_comm]
    · by_cases second : (⟨1, 0⟩ : EntityId) = id
      · subst second
        simp [eq_comm]
      · simp [first, second, Ne.symm first, Ne.symm second]
  have resembles := (run_is_of_last_shapes .standard reshaped).2.2.2.1 _ (by decide) final
  rw [size] at resembles
  exact resembles

end Grid

end Overworld
