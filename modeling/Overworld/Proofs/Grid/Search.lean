import Overworld.Proofs.Grid.Circles
import Overworld.Proofs.Grid.History

set_option autoImplicit false

/-!
What a search of an index answers after any run of changes: of the shapes that intersect its area,
those that some cell under the area holds. Rectangles are always among them. A circle is where its
coordinates are so whole that nothing is rounded; elsewhere a rounding can part it from its cells.
-/

namespace Overworld

/-- Some cell under the area holds the shape. -/
def CellSize.Meets (size : CellSize) (area shape : Shape) : Prop :=
  ∃ cell, (size.extent area.bounds).contains cell = true ∧ size.holds shape cell = true

/-- Areas and shapes that no rounding parts: upright rectangles, and shapes whose coordinates are
small multiples of a unit that the sides of a cell are powers of two of. -/
inductive CellSize.Suits (size : CellSize) : Shape → Shape → Prop
  | rects {a b : Rect} (first : a.IsUpright) (second : b.IsUpright) : size.Suits (.rect a) (.rect b)
  | whole {area shape : Shape} {scale : Nat} (cells : size.IsWhole scale)
      (first : area.IsWhole scale) (second : shape.IsWhole scale) : size.Suits area shape

theorem CellSize.Suits.meets {size : CellSize} {area shape : Shape} (suits : size.Suits area shape)
    (valid : size.isValid = true) (touch : area.intersects shape = true) :
    size.Meets area shape := by
  cases suits with
  | rects first second =>
      obtain ⟨cell, inside, covered⟩ := size.exists_common_cell valid first second touch
      exact ⟨cell, inside, Bool.and_eq_true_iff.mpr ⟨covered, rfl⟩⟩
  | whole cells first second =>
      obtain ⟨cell, inside, covered, reached⟩ :=
        size.exists_common_reached valid cells first second touch
      exact ⟨cell, inside, Bool.and_eq_true_iff.mpr ⟨covered, reached⟩⟩

namespace Grid

variable {grid : Grid} {size : CellSize} {shapes : EntityId → Option Shape}

theorem IsOf.shapeOf?_eq (isOf : grid.IsOf size shapes) (id : EntityId) :
    grid.shapeOf? id = shapes id := by
  unfold shapeOf?
  rw [isOf.placed]
  cases shapes id <;> rfl

theorem IsOf.mem_coarseQuery (isOf : grid.IsOf size shapes) (area : Shape) (id : EntityId) :
    id ∈ grid.coarseQuery area ↔ ∃ shape, shapes id = some shape ∧ size.Meets area shape := by
  unfold coarseQuery
  rw [mem_candidates, isOf.cellSize]
  constructor
  · intro ⟨cell, inside, listed⟩
    obtain ⟨shape, placed, held⟩ := (isOf.listed cell id).mp listed
    exact ⟨shape, placed, cell, inside, held⟩
  · intro ⟨shape, placed, cell, inside, held⟩
    exact ⟨cell, inside, (isOf.listed cell id).mpr ⟨shape, placed, held⟩⟩

theorem IsOf.mem_query (isOf : grid.IsOf size shapes) (area : Shape) (id : EntityId) :
    id ∈ grid.query area ↔
      ∃ shape, shapes id = some shape ∧ area.intersects shape = true ∧ size.Meets area shape := by
  unfold query
  rw [List.mem_filter, isOf.mem_coarseQuery, isOf.shapeOf?_eq]
  cases shapes id with
  | none => simp
  | some shape => simp [and_comm]

/-- After any run of changes the coarse search answers what is in the cells under the area, and
either walk over the cells gives the same. The exact search answers, of this, the entities whose last
shape intersects the area. It is a comparison with every last shape just where each that intersects
the area is held by a cell under it, as are all that suit the area. -/
theorem run_query_of_shared_cells (size : CellSize) (changes : List Change) (area : Shape) :
    (∀ id, id ∈ (run size changes).coarseQuery area ↔
      ∃ cell, ((lastSize size changes).extent area.bounds).contains cell = true ∧
        id ∈ (run size changes).entitiesIn cell) ∧
    (∀ extent, (run size changes).candidates extent =
        (EntityId.sort ((run size changes).walkOccupied extent)).eraseReps ∧
      (run size changes).candidates extent =
        (EntityId.sort ((run size changes).walkExtent extent)).eraseReps) ∧
    (run size changes).query area ⊆ (run size changes).coarseQuery area ∧
    (∀ id, id ∈ (run size changes).query area ↔ ∃ shape, lastShape? changes id = some shape ∧
      area.intersects shape = true ∧ (lastSize size changes).Meets area shape) ∧
    ((∀ id, id ∈ (run size changes).query area ↔
        ∃ shape, lastShape? changes id = some shape ∧ area.intersects shape = true) ↔
      ∀ id shape, lastShape? changes id = some shape → area.intersects shape = true →
        (lastSize size changes).Meets area shape) ∧
    ∀ id shape, lastShape? changes id = some shape → (lastSize size changes).Suits area shape →
      (id ∈ (run size changes).query area ↔ area.intersects shape = true) := by
  have isOf := run_isOf size changes
  have members := isOf.mem_query area
  refine ⟨?_, (run size changes).candidates_eq_walks, List.filter_subset_self _, members, ?_, ?_⟩
  · intro id
    unfold coarseQuery
    rw [mem_candidates, isOf.cellSize]
  · constructor
    · intro complete id shape placed touch
      obtain ⟨_, found, -, meets⟩ := (members id).mp ((complete id).mpr ⟨shape, placed, touch⟩)
      cases placed.symm.trans found
      exact meets
    · intro met id
      refine (members id).trans (exists_congr fun shape => ?_)
      exact ⟨fun ⟨placed, touch, _⟩ => ⟨placed, touch⟩,
        fun ⟨placed, touch⟩ => ⟨placed, touch, met id shape placed touch⟩⟩
  · intro id shape placed suits
    rw [members]
    constructor
    · intro ⟨_, found, touch, _⟩
      cases placed.symm.trans found
      exact touch
    · intro touch
      exact ⟨shape, placed, touch, suits.meets (isValid_lastSize size changes) touch⟩

/-- A disk that lies across a corner of the standard cells once these replace others. -/
def cornerDisk : List Change :=
  [.place ⟨0, 0⟩ (.circle (.ofInt 96) .zero (.ofInt 32)), .resize .standard]

/-- A disk that touches it in the corner finds it. -/
theorem tangent_disk_is_found :
    ⟨0, 0⟩ ∈ (run ⟨.one, .one⟩ cornerDisk).query (.circle .zero .zero (.ofInt 64)) := by
  have size : lastSize ⟨.one, .one⟩ cornerDisk = .standard := by decide
  have zero : Single.zero.IsWhole 149 := ⟨0, by decide, by decide, by decide⟩
  have whole : ∀ number : Int, number.natAbs ≤ 1024 → (Single.ofInt number).IsWhole 149 :=
    fun number small => ⟨number, small, Single.counts_ofInt (by omega)⟩
  have cells : CellSize.standard.IsWhole 149 :=
    ⟨by decide, by decide, 6, 6, by decide, by decide, ⟨by decide, by decide⟩,
      ⟨by decide, by decide⟩⟩
  have suits : CellSize.standard.Suits (.circle .zero .zero (.ofInt 64))
      (.circle (.ofInt 96) .zero (.ofInt 32)) :=
    .whole cells ⟨zero, zero, whole 64 (by decide), by decide⟩
      ⟨whole 96 (by decide), zero, whole 32 (by decide), by decide⟩
  have found := (run_query_of_shared_cells ⟨.one, .one⟩ cornerDisk
    (.circle .zero .zero (.ofInt 64))).2.2.2.2.2 ⟨0, 0⟩ _ rfl (size ▸ suits)
  exact found.mpr (by decide)

/-- Square cells of three units. -/
def narrowCells : CellSize := ⟨⟨0x40400000⟩, ⟨0x40400000⟩⟩

/-- A small disk close before the edge between two of the narrow cells. -/
def hiddenDisk : Shape := .circle ⟨0x46c179ff⟩ ⟨0x3fc00000⟩ ⟨0x39800000⟩

/-- The product with the inverse of the width carries the disk over the edge, and the cell behind the
edge is one that it does not reach. So no cell holds it, and no search finds it. -/
theorem hidden_disk_is_never_found :
    lastShape? [.place ⟨1, 0⟩ hiddenDisk] ⟨1, 0⟩ = some hiddenDisk ∧
    hiddenDisk.intersects hiddenDisk = true ∧
    ∀ area, ⟨1, 0⟩ ∉ (run narrowCells [.place ⟨1, 0⟩ hiddenDisk]).query area := by
  have size : lastSize narrowCells [.place ⟨1, 0⟩ hiddenDisk] = narrowCells := by decide +kernel
  have extent : narrowCells.extent hiddenDisk.bounds = ⟨8255, 0, 8255, 0⟩ := by decide +kernel
  have missed : narrowCells.reaches hiddenDisk ⟨8255, 0⟩ = false := by decide +kernel
  refine ⟨rfl, by decide +kernel, fun area found => ?_⟩
  obtain ⟨shape, placed, -, ⟨x, y⟩, -, held⟩ := ((run_isOf _ _).mem_query area _).mp found
  cases placed
  obtain ⟨covered, reached⟩ := Bool.and_eq_true_iff.mp held
  rw [size] at covered reached
  rw [extent, Extent.contains, decide_eq_true_iff] at covered
  dsimp only at covered
  obtain ⟨rfl, rfl⟩ : x = 8255 ∧ y = 0 := by omega
  rw [missed] at reached
  cases reached

/-- A disk of radius 256 that ends just before the edge of a standard cell. -/
def shyDisk : Shape := .circle ⟨0xc3400001⟩ .zero ⟨0x43800000⟩

/-- The square that starts on that edge. -/
def borderingSquare : Shape := .rect ⟨⟨0x42800000⟩, ⟨0xbf800000⟩, ⟨0x42a00000⟩, ⟨0x3f800000⟩⟩

/-- The test of the shapes rounds the gap between them away, and the cells do not. -/
theorem bordering_square_is_missed :
    shyDisk.intersects borderingSquare = true ∧
    ⟨1, 0⟩ ∉ (run .standard [.place ⟨1, 0⟩ borderingSquare]).query shyDisk := by
  have size : lastSize .standard [.place ⟨1, 0⟩ borderingSquare] = .standard := by decide +kernel
  have before : (CellSize.standard.extent shyDisk.bounds).maxX = 0 := by decide +kernel
  have behind : (CellSize.standard.extent borderingSquare.bounds).minX = 1 := by decide +kernel
  refine ⟨by decide +kernel, fun found => ?_⟩
  obtain ⟨shape, placed, -, cell, inside, held⟩ := ((run_isOf _ _).mem_query shyDisk _).mp found
  cases placed
  obtain ⟨covered, -⟩ := Bool.and_eq_true_iff.mp held
  rw [size] at inside covered
  rw [Extent.contains, decide_eq_true_iff] at inside covered
  omega

end Grid

end Overworld
