import Overworld.Proofs.Number.Guarded
import Overworld.Proofs.Sequencer.Drift

set_option autoImplicit false

/-!
The middle of a window whose bounds may be any that are in order. Their sum is taken as a word before it
is halved. If the word holds it, rounding leaves the middle on the same side of a mean as the window, and
every shift goes the way to the window. If it does not, the middle is negative, and the block of a client
level with the server, which is below the window, is shifted back.
-/

namespace Overworld

/-- The bounds of the window have a sum. -/
def SequencerRules.HasMiddle (rules : SequencerRules) : Prop :=
  rules.minLead.toInt + rules.maxLead.toInt ≤ 9223372036854775807

namespace Sequencer

variable {rules : SequencerRules} {sum : Int64}

/-! ### A middle in range -/

section

variable (window : rules.HasWindow) (middle : rules.HasMiddle)

include window middle

theorem toInt_minLead_add_maxLead :
    (rules.minLead + rules.maxLead).toInt = rules.minLead.toInt + rules.maxLead.toInt := by
  have least := window.least
  have ordered := window.ordered
  unfold SequencerRules.HasMiddle at middle
  rw [Int64.toInt_add]
  exact Int.bmod_eq_of_le (by omega) (by omega)

theorem targetLead_eq :
    rules.targetLead = Significand.round (rules.minLead.toInt + rules.maxLead.toInt : Int) / 2 := by
  unfold SequencerRules.targetLead
  rw [toInt_minLead_add_maxLead window middle]

/-- Rounding leaves the middle on the same side of a small mean as the window. -/
theorem targetLead_beyond {mean : Rat} (small : mean ≤ 600) :
    (mean < rules.minLead.toInt → mean < rules.targetLead) ∧
      (rules.maxLead.toInt < mean → rules.targetLead < mean) := by
  have least := window.least
  have ordered : (rules.minLead.toInt : Rat) ≤ rules.maxLead.toInt := by
    exact_mod_cast window.ordered
  have nonneg : 0 ≤ rules.minLead.toInt + rules.maxLead.toInt := by
    have order := window.ordered
    omega
  have twice : 2 * mean ≤ 2 ^ 52 := by linarith
  rw [targetLead_eq window middle]
  constructor
  · intro below
    rw [lt_div_iff₀ two_pos, mul_comm, Significand.lt_round_intCast_iff nonneg twice]
    push_cast
    linarith
  · intro above
    rw [div_lt_iff₀ two_pos, mul_comm, Significand.round_intCast_lt_iff nonneg twice]
    push_cast
    linarith

theorem targetLead_between : 0 ≤ rules.targetLead ∧ rules.targetLead ≤ 2 ^ 62 + 2 ^ 10 := by
  have least := window.least
  have ordered := window.ordered
  have nonneg : (0 : Rat) ≤ (rules.minLead.toInt + rules.maxLead.toInt : Int) := by
    norm_cast
    omega
  have most : ((rules.minLead.toInt + rules.maxLead.toInt : Int) : Rat) ≤ 2 ^ 63 := by
    unfold SequencerRules.HasMiddle at middle
    norm_cast
    omega
  have near := abs_le.mp
    (Significand.abs_round_sub_le (rules.minLead.toInt + rules.maxLead.toInt : Int))
  rw [abs_of_nonneg nonneg] at near
  rw [targetLead_eq window middle]
  constructor <;> linarith

end

section

variable {gap : Rat} {shift : Int} (isShift : IntRounding.nearestAway.quotient
  (Significand.round gap).num (Significand.round gap).den = shift)

include isShift

theorem shift_nonneg (ahead : 0 < gap) : 0 ≤ shift :=
  isShift ▸ IntRounding.quotient_nearestAway_nonneg
    (Rat.num_pos.mpr (Significand.round_pos ahead)).le _

theorem shift_nonpos (behind : gap < 0) : shift ≤ 0 :=
  isShift ▸ IntRounding.quotient_nearestAway_nonpos
    (Rat.num_neg.mpr (Significand.round_neg behind)) _

/-- The shift over a gap that is small enough is a word. -/
theorem shift_fits (near : |gap| ≤ 2 ^ 62 + 2 ^ 11) :
    int64? shift = some (.ofInt shift) ∧
      clampInt (-9223372036854775808) 9223372036854775807 shift = shift := by
  have rounded := abs_le.mp (Significand.abs_round_sub_le gap)
  have nearest := abs_le.mp (IntRounding.abs_quotient_nearestAway_sub_le (Significand.round gap))
  have between := abs_le.mp near
  rw [isShift] at nearest
  have low : (-9223372036854775808 : Rat) ≤ shift := by linarith
  have high : (shift : Rat) ≤ 9223372036854775807 := by linarith
  have bounds : -9223372036854775808 ≤ shift ∧ shift ≤ 9223372036854775807 :=
    ⟨by exact_mod_cast low, by exact_mod_cast high⟩
  refine ⟨if_pos bounds, ?_⟩
  unfold clampInt
  omega

end

theorem ofInt_eq_zero_iff {shift : Int} (fits : int64? shift = some (.ofInt shift)) :
    Int64.ofInt shift = 0 ↔ shift = 0 := by
  have value := int64?_eq_some_iff.mp fits
  constructor
  · intro zero
    rw [← value, zero]
    rfl
  · rintro rfl
    rfl

theorem mean_eight_between (small : sum.toInt.natAbs ≤ 4800) :
    -600 ≤ mean sum 8 ∧ mean sum 8 ≤ 600 := by
  rw [mean_eight (by omega), le_div_iff₀ (by norm_num), div_le_iff₀ (by norm_num)]
  norm_cast
  omega

/-- The shift over the gap that there is between the mean and the middle. -/
theorem correction?_eq (near : |rules.targetLead - mean sum 8| ≤ 2 ^ 62 + 2 ^ 11) :
    ∃ shift, IntRounding.nearestAway.quotient
        (Significand.round (rules.targetLead - mean sum 8)).num
        (Significand.round (rules.targetLead - mean sum 8)).den = shift ∧
      int64? shift = some (.ofInt shift) ∧
      correction? rules sum 8 =
        if mean sum 8 < Significand.round rules.minLead.toInt ∨
            Significand.round rules.maxLead.toInt < mean sum 8 then
          if shift = 0 then none else some (.ofInt shift)
        else none := by
  obtain ⟨fits, within⟩ := shift_fits rfl near
  refine ⟨_, rfl, fits, ?_⟩
  unfold correction?
  dsimp only
  rw [within]

section

variable (window : rules.HasWindow) (middle : rules.HasMiddle) (small : sum.toInt.natAbs ≤ 4800)

include window middle small

theorem abs_targetLead_sub_mean_le : |rules.targetLead - mean sum 8| ≤ 2 ^ 62 + 2 ^ 11 := by
  have target := targetLead_between window middle
  have mean := mean_eight_between small
  rw [abs_le]
  constructor <;> linarith

/-- A shift goes the way to the window. -/
theorem correction?_sign {delta : Int64} (calls : correction? rules sum 8 = some delta) :
    sum.toInt < 8 * rules.minLead.toInt ∧ 0 < delta.toInt ∨
      8 * rules.maxLead.toInt < sum.toInt ∧ delta.toInt < 0 := by
  obtain ⟨shift, isShift, fits, isCorrection⟩ :=
    correction?_eq (abs_targetLead_sub_mean_le window middle small)
  have beyond := targetLead_beyond window middle (mean_eight_between small).2
  have value : mean sum 8 = sum.toInt / 8 := mean_eight (by omega)
  rw [isCorrection] at calls
  split at calls
  · rename_i outside
    rw [outside_iff window small] at outside
    split at calls
    · cases calls
    · rename_i nonzero
      cases calls
      rw [int64?_eq_some_iff.mp fits]
      rcases outside with below | above
      · have short : mean sum 8 < rules.minLead.toInt := by
          rw [value, div_lt_iff₀ (by norm_num), mul_comm]
          exact_mod_cast below
        have forth := shift_nonneg isShift (sub_pos.mpr (beyond.1 short))
        exact Or.inl ⟨below, by omega⟩
      · have long : rules.maxLead.toInt < mean sum 8 := by
          rw [value, lt_div_iff₀ (by norm_num), mul_comm]
          exact_mod_cast above
        have back := shift_nonpos isShift (sub_neg.mpr (beyond.2 long))
        exact Or.inr ⟨above, by omega⟩
  · cases calls

end

/-! ### A middle that wraps -/

theorem minLead_pos (none : ¬ rules.HasMiddle) : 0 < rules.minLead.toInt := by
  have most := rules.maxLead.toInt_lt
  unfold SequencerRules.HasMiddle at none
  omega

section

variable (window : rules.HasWindow) (none : ¬ rules.HasMiddle)

include window none

/-- A client level with the server is below the window. -/
theorem mean_zero_outside : mean 0 8 < Significand.round rules.minLead.toInt ∨
    Significand.round rules.maxLead.toInt < mean 0 8 := by
  have positive := minLead_pos none
  have isZero : (0 : Int64).toInt = 0 := rfl
  exact (outside_iff window (by decide)).mpr (Or.inl (by omega))

/-- The sum of the bounds has wrapped, and its half is negative. -/
theorem targetLead_wrapped : -(2 ^ 62 + 2 ^ 10) ≤ rules.targetLead ∧ rules.targetLead ≤ -3 / 4 := by
  have least := window.least
  have ordered := window.ordered
  have most := rules.maxLead.toInt_lt
  have wrapped : -9223372036854775808 ≤ (rules.minLead + rules.maxLead).toInt ∧
      (rules.minLead + rules.maxLead).toInt ≤ -2 := by
    unfold SequencerRules.HasMiddle at none
    rw [Int64.toInt_add, Int.bmod]
    omega
  have low : (-9223372036854775808 : Rat) ≤ (rules.minLead + rules.maxLead).toInt := by
    exact_mod_cast wrapped.1
  have high : ((rules.minLead + rules.maxLead).toInt : Rat) ≤ -2 := by
    exact_mod_cast wrapped.2
  have near := abs_le.mp (Significand.abs_round_sub_le (rules.minLead + rules.maxLead).toInt)
  rw [abs_of_nonpos (by linarith)] at near
  unfold SequencerRules.targetLead
  constructor <;> linarith

/-- It is shifted back nevertheless. -/
theorem correction?_zero : ∃ delta, correction? rules 0 8 = some delta ∧ delta.toInt < 0 := by
  have target := targetLead_wrapped window none
  have isZero : (0 : Int64).toInt = 0 := rfl
  have zero : mean 0 8 = 0 := by
    rw [mean_eight (by decide), isZero]
    norm_num
  obtain ⟨shift, isShift, fits, isCorrection⟩ := @correction?_eq rules 0 (by
    rw [zero, sub_zero, abs_of_neg (by linarith)]
    linarith)
  have negative : shift < 0 := by
    have rounded := abs_le.mp (Significand.abs_round_sub_le (rules.targetLead - mean 0 8))
    have nearest := abs_le.mp (IntRounding.abs_quotient_nearestAway_sub_le
      (Significand.round (rules.targetLead - mean 0 8)))
    rw [isShift] at nearest
    rw [zero, sub_zero, abs_of_neg (by linarith)] at rounded
    rw [zero, sub_zero] at nearest
    have below : (shift : Rat) < 0 := by linarith
    exact_mod_cast below
  refine ⟨.ofInt shift, ?_, (int64?_eq_some_iff.mp fits).symm ▸ negative⟩
  rw [isCorrection, if_pos (mean_zero_outside window none), if_neg negative.ne]

end

end Sequencer

end Overworld
