import Overworld.Grid.Index
import Overworld.Proofs.Order.Repetitions

set_option autoImplicit false

/-!
What a query answers: entities that are placed, each of them once, in order.
-/

namespace Overworld

namespace EntityId

theorem precedes_iff {a b : EntityId} :
    a.precedes b = true ↔
      a.index.toNat < b.index.toNat ∨
        a.index.toNat = b.index.toNat ∧ a.generation.toNat ≤ b.generation.toNat := by
  simp [precedes, UInt32.lt_iff_toNat_lt, UInt32.le_iff_toNat_le, ← UInt32.toNat_inj]

theorem precedes_trans (a b c : EntityId) (first : a.precedes b = true)
    (second : b.precedes c = true) : a.precedes c = true := by
  rw [precedes_iff] at *
  omega

theorem precedes_total (a b : EntityId) : (a.precedes b || b.precedes a) = true := by
  rw [Bool.or_eq_true, precedes_iff, precedes_iff]
  omega

theorem precedes_antisymm {a b : EntityId} (first : a.precedes b = true)
    (second : b.precedes a = true) : a = b := by
  rw [precedes_iff] at *
  obtain ⟨index, generation⟩ := a
  obtain ⟨otherIndex, otherGeneration⟩ := b
  rw [EntityId.mk.injEq, ← UInt32.toNat_inj, ← UInt32.toNat_inj]
  dsimp only at first second
  omega

theorem sort_ascending (ids : List EntityId) :
    (sort ids).Pairwise fun a b => a.precedes b = true :=
  List.pairwise_mergeSort precedes_trans precedes_total ids

theorem mem_sort_eraseReps {ids : List EntityId} {id : EntityId} :
    id ∈ (sort ids).eraseReps ↔ id ∈ ids := by
  rw [mem_eraseReps]
  exact List.mem_mergeSort

theorem sort_eraseReps_ascending (ids : List EntityId) :
    (sort ids).eraseReps.Pairwise fun a b => a.precedes b = true ∧ a ≠ b :=
  pairwise_eraseReps (fun _ _ => precedes_antisymm) (sort_ascending ids)

/-- Sorted without repetitions, the same entities are the same list. -/
theorem sort_eraseReps_congr {ids others : List EntityId} (same : ∀ id, id ∈ ids ↔ id ∈ others) :
    (sort ids).eraseReps = (sort others).eraseReps := by
  have first := sort_eraseReps_ascending ids
  have second := sort_eraseReps_ascending others
  have perm : (sort ids).eraseReps.Perm (sort others).eraseReps :=
    (List.perm_ext_iff_of_nodup (first.imp And.right) (second.imp And.right)).mpr fun id => by
      rw [mem_sort_eraseReps, mem_sort_eraseReps, same]
  exact perm.eq_of_pairwise (fun _ _ _ _ before behind => precedes_antisymm before.1 behind.1)
    first second

end EntityId

namespace Grid

theorem query_ascending (grid : Grid) (shape : Shape) :
    (grid.query shape).Pairwise fun a b => a.precedes b = true ∧ a ≠ b :=
  (EntityId.sort_eraseReps_ascending _).filter _

theorem query_nodup (grid : Grid) (shape : Shape) : (grid.query shape).Nodup :=
  (grid.query_ascending shape).imp And.right

theorem isSome_shapeOf?_of_mem_query {grid : Grid} {shape : Shape} {id : EntityId}
    (member : id ∈ grid.query shape) : (grid.shapeOf? id).isSome = true := by
  have passed := (List.mem_filter.mp member).2
  cases placed : grid.shapeOf? id with
  | none =>
      rw [placed] at passed
      cases passed
  | some _ => rfl

end Grid

end Overworld
