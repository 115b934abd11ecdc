set_option autoImplicit false

/-!
Runs of consecutive integers.
-/

namespace Overworld

/-- The integers from `low` to `high`, both included; none where `high` is below `low`. -/
def span (low high : Int) : List Int :=
  (List.range (high - low + 1).toNat).map fun (offset : Nat) => low + offset

theorem mem_span {low high value : Int} : value ∈ span low high ↔ low ≤ value ∧ value ≤ high := by
  simp only [span, List.mem_map, List.mem_range]
  constructor
  · rintro ⟨offset, bounded, rfl⟩
    omega
  · rintro ⟨above, below⟩
    exact ⟨(value - low).toNat, by omega, by omega⟩

theorem length_span (low high : Int) : (span low high).length = (high - low + 1).toNat := by
  rw [span, List.length_map, List.length_range]

theorem nodup_span (low high : Int) : (span low high).Nodup := by
  refine List.Pairwise.map _ ?_ List.nodup_range
  intro first second apart same
  exact apart (Int.ofNat_inj.mp (Int.add_left_cancel same))

end Overworld
