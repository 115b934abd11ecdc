import Overworld.Proofs.Number.Whole
import Overworld.Server.Metrics

set_option autoImplicit false

/-!
Samples in ascending order by their place. The place that a share ends at is a rounded product, which
leaves no more of the samples behind it than the share does.
-/

namespace Overworld

namespace Metrics

/-- How many whole samples so many parts come to, of 2 ^ 24 parts each, with the product rounded. -/
def wholeSamples (parts : Nat) : Nat := (roundInt (parts * 2 ^ 125 * 2 ^ 149) / 2 ^ 149).toNat

theorem wholeSamples_mono {few many : Nat} (order : few ≤ many) :
    wholeSamples few ≤ wholeSamples many := by
  apply Int.toNat_le_toNat
  apply Int.ediv_le_ediv (by decide)
  apply roundInt_mono
  apply Int.mul_le_mul_of_nonneg_right _ (by decide)
  exact Int.mul_le_mul_of_nonneg_right (Int.ofNat_le.mpr order) (by decide)

theorem scaled_samples (samples : Nat) :
    ((samples * 16777216 : Nat) : Int) * 2 ^ 125 = samples * 2 ^ 149 := by
  rw [Nat.cast_mul, Int.mul_assoc]
  rfl

theorem wholeSamples_of_whole {samples : Nat} (short : samples < 16777216) :
    wholeSamples (samples * 16777216) = samples := by
  have small : (samples : Int).natAbs < 16777216 := short
  have whole := roundInt_whole small 149
  unfold wholeSamples
  rw [scaled_samples, whole, Int.mul_ediv_cancel _ (by decide), Int.toNat_natCast]

variable {share other : Single} {parts more length : Nat}

/-- The part of each sample that a share takes, of 2 ^ 24 parts. -/
structure IsShare (share : Single) (parts : Nat) : Prop where
  counts : share.Counts (parts * 2 ^ 125)
  part : parts ≤ 16777216

theorem isShare_share95 : IsShare share95 15938355 := ⟨⟨by decide, by decide⟩, by decide⟩

theorem isShare_share99 : IsShare share99 16609444 := ⟨⟨by decide, by decide⟩, by decide⟩

theorem IsShare.counts_mul (isShare : IsShare share parts) (short : length < 16777216) :
    (Single.ofNat length * share).Counts
      (roundInt ((length * parts : Nat) * 2 ^ 125 * 2 ^ 149)) := by
  have product : (length * 2 ^ 149 : Int) * (parts * 2 ^ 125) =
      (length * parts : Nat) * 2 ^ 125 * 2 ^ 149 := by
    rw [Nat.cast_mul, Int.mul_right_comm, ← Int.mul_assoc]
  have part : (((length * parts : Nat) : Int) * 2 ^ 125).natAbs ≤
      ((length : Int) * 2 ^ 149).natAbs := by
    rw [← scaled_samples, natAbs_mul_two_pow, natAbs_mul_two_pow]
    exact Nat.mul_le_mul_right _ (Nat.mul_le_mul_left _ isShare.part)
  have bounded := natAbs_roundInt_le_whole part short
  rw [← product]
  apply (Single.counts_ofNat short).mul isShare.counts
  rw [product]
  exact Nat.lt_of_le_of_lt bounded (natAbs_lt_unbounded short (by decide))

theorem IsShare.placeOfShare_eq (isShare : IsShare share parts) (short : length < 16777216) :
    placeOfShare share length = min (wholeSamples (length * parts)) (length - 1) := by
  have all : wholeSamples (length * parts) ≤ length :=
    calc wholeSamples (length * parts) ≤ wholeSamples (length * 16777216) :=
          wholeSamples_mono (Nat.mul_le_mul_left _ isShare.part)
      _ = length := wholeSamples_of_whole short
  have nonnegative : 0 ≤ roundInt ((length * parts : Nat) * 2 ^ 125 * 2 ^ 149) :=
    roundInt_nonneg (Int.mul_nonneg (Int.mul_nonneg (Int.natCast_nonneg _) (by decide)) (by decide))
  have truncated : (Single.ofNat length * share).truncateUInt64 = wholeSamples (length * parts) := by
    rw [Single.truncateUInt64_eq, (isShare.counts_mul short).counted,
      Int.tdiv_eq_ediv_of_nonneg nonnegative]
    unfold wholeSamples at all ⊢
    generalize roundInt ((length * parts : Nat) * 2 ^ 125 * 2 ^ 149) = product at *
    rw [Nat.cast_pow]
    change (clampInt _ _ (product / 2 ^ 149)).toNat = _
    unfold clampInt
    omega
  rw [placeOfShare, truncated]

theorem IsShare.placeOfShare_mono (isShare : IsShare share parts) (isOther : IsShare other more)
    (order : parts ≤ more) (short : length < 16777216) :
    placeOfShare share length ≤ placeOfShare other length := by
  have samples := wholeSamples_mono (Nat.mul_le_mul_left length order)
  rw [isShare.placeOfShare_eq short, isOther.placeOfShare_eq short]
  omega

/-- A product is not rounded below a whole number of samples. -/
theorem IsShare.le_placeOfShare (isShare : IsShare share parts) (short : length < 16777216) :
    min (length * parts / 16777216) (length - 1) ≤ placeOfShare share length := by
  have inside : length * parts / 16777216 ≤ length := by
    apply Nat.div_le_of_le_mul
    rw [Nat.mul_comm]
    exact Nat.mul_le_mul_right _ isShare.part
  have samples := wholeSamples_mono (Nat.div_mul_le_self (length * parts) 16777216)
  rw [wholeSamples_of_whole (by omega)] at samples
  rw [isShare.placeOfShare_eq short]
  omega

theorem placeOfShare_lt (share : Single) (some : 0 < length) :
    placeOfShare share length < length := by
  unfold placeOfShare
  omega

/-- The shares are rounded themselves, by too little to count among so few samples. -/
theorem placeOfShare_covers (some : 0 < length) (short : length ≤ windowLength) :
    95 * length ≤ 100 * (placeOfShare share95 length + 1) ∧
      99 * length ≤ 100 * (placeOfShare share99 length + 1) := by
  unfold windowLength at short
  have fewer : length < 16777216 := by omega
  have place95 := isShare_share95.le_placeOfShare fewer
  have place99 := isShare_share99.le_placeOfShare fewer
  omega

/-- The sample of a window at a place, in ascending order. -/
def sampleAt (window : List UInt64) (place : Nat) : UInt64 := window.mergeSort[place]?.getD 0

variable {window : List UInt64} {place next : Nat}

theorem getElem_mergeSort (sorted : place < window.mergeSort.length) :
    window.mergeSort[place] = sampleAt window place := by
  rw [sampleAt, List.getElem?_eq_getElem sorted, Option.getD_some]

theorem sampleAt_mem (inside : place < window.length) : sampleAt window place ∈ window := by
  have sorted : place < window.mergeSort.length := by rwa [List.length_mergeSort]
  rw [← getElem_mergeSort sorted, ← (List.mergeSort_perm window _).mem_iff]
  exact List.getElem_mem sorted

theorem ascending_mergeSort (window : List UInt64) : window.mergeSort.Pairwise (· ≤ ·) := by
  have transitive : ∀ a b c : UInt64, decide (a ≤ b) = true → decide (b ≤ c) = true →
      decide (a ≤ c) = true := by
    simpa using fun a b c => UInt64.le_trans
  have total : ∀ a b : UInt64, (decide (a ≤ b) || decide (b ≤ a)) = true := by
    simpa using UInt64.le_total
  simpa using List.pairwise_mergeSort transitive total window

theorem sampleAt_mono (order : place ≤ next) (inside : next < window.length) :
    sampleAt window place ≤ sampleAt window next := by
  have later : next < window.mergeSort.length := by rwa [List.length_mergeSort]
  rcases Nat.lt_or_eq_of_le order with below | rfl
  · have earlier := Nat.lt_trans below later
    have samples := List.pairwise_iff_getElem.mp (ascending_mergeSort window) place next earlier later
      below
    rwa [getElem_mergeSort, getElem_mergeSort] at samples
  · exact UInt64.le_refl _

theorem le_sampleAt_last {sample : UInt64} (member : sample ∈ window) :
    sample ≤ sampleAt window (window.length - 1) := by
  have among : sample ∈ window.mergeSort := (List.mergeSort_perm window _).mem_iff.mpr member
  obtain ⟨place, sorted, rfl⟩ := List.mem_iff_getElem.mp among
  have inside : place < window.length := by rwa [List.length_mergeSort] at sorted
  rw [getElem_mergeSort]
  exact sampleAt_mono (by omega) (by omega)

/-- The samples up to a place are no greater than the one that stands there. -/
theorem succ_le_countP (inside : place < window.length) :
    place + 1 ≤ window.countP (· ≤ sampleAt window place) := by
  have first : ∀ sample ∈ window.mergeSort.take (place + 1), sample ≤ sampleAt window place := by
    intro sample member
    obtain ⟨earlier, short, rfl⟩ := List.mem_iff_getElem.mp member
    rw [List.length_take, List.length_mergeSort] at short
    rw [List.getElem_take, getElem_mergeSort]
    exact sampleAt_mono (by omega) inside
  calc place + 1 = (window.mergeSort.take (place + 1)).length := by
        rw [List.length_take, List.length_mergeSort]
        omega
    _ = (window.mergeSort.take (place + 1)).countP (· ≤ sampleAt window place) :=
        (List.countP_eq_length.mpr fun sample member => decide_eq_true (first sample member)).symm
    _ ≤ window.mergeSort.countP (· ≤ sampleAt window place) :=
        (List.take_sublist _ _).countP_le
    _ = window.countP (· ≤ sampleAt window place) := (List.mergeSort_perm _ _).countP_eq _

end Metrics

end Overworld
