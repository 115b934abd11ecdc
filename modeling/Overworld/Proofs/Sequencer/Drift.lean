import Mathlib.Algebra.Order.BigOperators.Group.List
import Mathlib.Algebra.Order.Field.Basic
import Mathlib.Algebra.Order.Ring.Rat
import Mathlib.Tactic.Ring
import Overworld.Proofs.Number.Fractions
import Overworld.Proofs.Number.Precision
import Overworld.Proofs.Sequencer.Ledger
import Overworld.Proofs.Sequencer.Window

set_option autoImplicit false

/-!
Runs of a sequencer with a record of the clock samples that counted and the shifts that were handed
over. Samples are taken in blocks of eight, and every shift is the distance of the middle of the
window from the mean lead of one block.
-/

namespace Overworld

/-- Samples are taken as usual, and the window is any that has no lead behind the server. -/
structure SequencerRules.HasWindow (rules : SequencerRules) : Prop where
  block : rules.minFreshSamples = 8
  limit : rules.desyncLimit = 600
  least : 0 ≤ rules.minLead.toInt
  ordered : rules.minLead.toInt ≤ rules.maxLead.toInt

/-- Rules that differ from the standard ones at most in the window, which lies within the limit. -/
structure SequencerRules.IsUsual (rules : SequencerRules) : Prop where
  block : rules.minFreshSamples = 8
  settle : rules.settleTicks = 10
  limit : rules.desyncLimit = 600
  least : 0 ≤ rules.minLead.toInt
  ordered : rules.minLead.toInt ≤ rules.maxLead.toInt
  most : rules.maxLead.toInt ≤ 600

theorem SequencerRules.IsUsual.hasWindow {rules : SequencerRules} (usual : rules.IsUsual) :
    rules.HasWindow where
  block := usual.block
  limit := usual.limit
  least := usual.least
  ordered := usual.ordered

theorem SequencerRules.standard_isUsual : SequencerRules.standard.IsUsual where
  block := rfl
  settle := rfl
  limit := rfl
  least := by decide
  ordered := by decide
  most := by decide

/-- How far the middle of the window lies from the mean of eight leads, rounded to the nearest whole
number and a half away from zero. -/
def SequencerRules.shift (rules : SequencerRules) (sum : Int) : Int :=
  IntRounding.nearestAway.quotient (4 * (rules.minLead.toInt + rules.maxLead.toInt) - sum) 8

/-- Inputs are counted apart from shifts. -/
theorem SequencerStats.adjustments_record (stats : SequencerStats) (admission : Admission) :
    (stats.record admission).adjustments = stats.adjustments := by
  cases admission with
  | accepted => rfl
  | dropped reason => cases reason <;> rfl

namespace Sequencer

variable {rules : SequencerRules}

theorem mean_eight {sum : Int64} (small : sum.toInt.natAbs < 2 ^ 53) : mean sum 8 = sum.toInt / 8 := by
  have eight : Significand.round ((8 : Nat) : Rat) = 8 :=
    @Significand.round_intCast 8 (by decide)
  have exact := Significand.round_div_two_pow small 3
  unfold mean
  rw [Significand.round_intCast small, eight]
  norm_num at exact
  exact exact

/-- Rounding the bounds of the window does not tell where the mean of eight leads lies. -/
theorem outside_iff (window : rules.HasWindow) {sum : Int64} (small : sum.toInt.natAbs ≤ 4800) :
    (mean sum 8 < Significand.round rules.minLead.toInt ∨
      Significand.round rules.maxLead.toInt < mean sum 8) ↔
        sum.toInt < 8 * rules.minLead.toInt ∨ 8 * rules.maxLead.toInt < sum.toInt := by
  have most : (sum.toInt : Rat) / 8 ≤ 2 ^ 52 := by
    rw [div_le_iff₀ (by norm_num)]
    norm_cast
    omega
  have least := window.least
  have ordered := window.ordered
  rw [mean_eight (by omega), Significand.lt_round_intCast_iff least most,
    Significand.round_intCast_lt_iff (least.trans ordered) most, div_lt_iff₀ (by norm_num),
    lt_div_iff₀ (by norm_num)]
  norm_cast
  omega

theorem targetLead_of_isUsual (usual : rules.IsUsual) :
    rules.targetLead = (rules.minLead.toInt + rules.maxLead.toInt : Int) / 2 := by
  obtain ⟨-, -, -, least, ordered, most⟩ := usual
  have sum : (rules.minLead + rules.maxLead).toInt = rules.minLead.toInt + rules.maxLead.toInt := by
    rw [Int64.toInt_add]
    exact Int.bmod_eq_of_le (by omega) (by omega)
  unfold SequencerRules.targetLead
  rw [sum, Significand.round_intCast (by omega)]

theorem shift_near (rules : SequencerRules) (sum : Int) :
    16 * rules.shift sum ≤ 8 * (rules.minLead.toInt + rules.maxLead.toInt) - 2 * sum + 8 ∧
      8 * (rules.minLead.toInt + rules.maxLead.toInt) - 2 * sum - 8 ≤ 16 * rules.shift sum := by
  unfold SequencerRules.shift IntRounding.quotient
  dsimp only
  split <;> omega

theorem toInt_shift (usual : rules.IsUsual) {sum : Int} (near : -4800 ≤ sum ∧ sum ≤ 4800) :
    (Int64.ofInt (rules.shift sum)).toInt = rules.shift sum := by
  have exact := shift_near rules sum
  obtain ⟨-, -, -, least, ordered, most⟩ := usual
  have small : -9223372036854775808 ≤ rules.shift sum ∧ rules.shift sum < 9223372036854775808 := by
    omega
  exact Int64.toInt_ofInt_of_le small.1 small.2

/-- A block calls for a shift when its mean lies outside the window, unless that rounds to nothing. -/
theorem correction?_eight (usual : rules.IsUsual) {sum : Int64} (small : sum.toInt.natAbs ≤ 4800) :
    correction? rules sum 8 =
      if (sum.toInt < 8 * rules.minLead.toInt ∨ 8 * rules.maxLead.toInt < sum.toInt) ∧
          rules.shift sum.toInt ≠ 0 then
        some (.ofInt (rules.shift sum.toInt))
      else none := by
  have near := shift_near rules sum.toInt
  have target := targetLead_of_isUsual usual
  have outside := outside_iff usual.hasWindow small
  obtain ⟨-, -, -, least, ordered, most⟩ := usual
  have gap : Significand.round (rules.targetLead - mean sum 8) =
      ((4 * (rules.minLead.toInt + rules.maxLead.toInt) - sum.toInt : Int) : Rat) / 8 := by
    have fits : (4 * (rules.minLead.toInt + rules.maxLead.toInt) - sum.toInt).natAbs < 2 ^ 53 := by
      omega
    have exact := Significand.round_div_two_pow fits 3
    have same : rules.targetLead - mean sum 8 =
        ((4 * (rules.minLead.toInt + rules.maxLead.toInt) - sum.toInt : Int) : Rat) / 2 ^ 3 := by
      rw [target, mean_eight (by omega)]
      push_cast
      ring
    rw [same, exact]
    norm_num
  have nearest : IntRounding.nearestAway.quotient
      (Significand.round (rules.targetLead - mean sum 8)).num
      (Significand.round (rules.targetLead - mean sum 8)).den = rules.shift sum.toInt := by
    rw [gap]
    refine IntRounding.quotient_congr .nearestAway (Rat.den_pos _) (by norm_num) ?_
    have value := Rat.num_div_den
      (((4 * (rules.minLead.toInt + rules.maxLead.toInt) - sum.toInt : Int) : Rat) / 8)
    rw [div_eq_div_iff (Nat.cast_ne_zero.mpr (Rat.den_ne_zero _)) (by norm_num)] at value
    exact_mod_cast value
  have within : clampInt (-9223372036854775808) 9223372036854775807 (rules.shift sum.toInt) =
      rules.shift sum.toInt := by
    unfold clampInt
    omega
  unfold correction?
  simp only [outside, nearest, within]
  split
  · rename_i far
    by_cases none : rules.shift sum.toInt = 0
    · simp [none]
    · simp [none, far]
  · rename_i inside
    exact (if_neg fun both => inside both.1).symm

/-- The lead of a message, if it counts: the clocks are not too far apart and no shift is settling. -/
def counts (sequencer : Sequencer) (server client : Tick) : List Int :=
  let lead : Int := client.toNat - server.toNat
  if lead.natAbs ≤ sequencer.rules.desyncLimit.toNat ∧ sequencer.settleUntil ≤ server then [lead]
  else []

theorem counts_of_settling {sequencer : Sequencer} {server : Tick}
    (settles : server < sequencer.settleUntil) (client : Tick) :
    sequencer.counts server client = [] :=
  if_neg fun both => UInt64.not_le.mpr settles both.2

/-- The samples that are waiting for their block to be complete. -/
structure Gathers (sequencer : Sequencer) (block : List Int) : Prop where
  near : ∀ lead ∈ block, -600 ≤ lead ∧ lead ≤ 600
  counted : sequencer.sampleCount = block.length
  summed : sequencer.sampleSum.toInt = block.sum

theorem sum_between {block : List Int} {low high : Int}
    (between : ∀ lead ∈ block, low ≤ lead ∧ lead ≤ high) :
    block.length * low ≤ block.sum ∧ block.sum ≤ block.length * high := by
  have least := block.card_nsmul_le_sum low fun lead member => (between lead member).1
  have most := block.sum_le_card_nsmul high fun lead member => (between lead member).2
  rw [nsmul_eq_mul] at least most
  exact ⟨least, most⟩

/-- No shift is queued. -/
structure IsUnmoved (before after : Sequencer) : Prop where
  settleUntil : after.settleUntil = before.settleUntil
  adjustment : after.adjustment = before.adjustment
  adjustments : after.stats.adjustments = before.stats.adjustments

/-- A shift is queued, and is going to settle. -/
structure Queues (before : Sequencer) (server : Tick) (delta : Int64) (after : Sequencer) : Prop where
  settleUntil : after.settleUntil = server + before.rules.settleTicks
  adjustment : after.adjustment = some delta
  adjustments : after.stats.adjustments = before.stats.adjustments + 1

variable {sequencer : Sequencer} {block : List Int}

/-- A sample is added exactly. -/
theorem Gathers.toInt_add (gathers : sequencer.Gathers block) (few : block.length < 8) {lead : Int64}
    (near : -600 ≤ lead.toInt ∧ lead.toInt ≤ 600) :
    (∀ other ∈ block ++ [lead.toInt], -600 ≤ other ∧ other ≤ 600) ∧
      (sequencer.sampleSum + lead).toInt = (block ++ [lead.toInt]).sum ∧
      (sequencer.sampleSum + lead).toInt.natAbs ≤ 4800 := by
  obtain ⟨bounds, -, summed⟩ := gathers
  have joined : ∀ other ∈ block ++ [lead.toInt], -600 ≤ other ∧ other ≤ 600 := by
    intro other member
    rcases List.mem_append.mp member with earlier | last
    · exact bounds other earlier
    · exact List.mem_singleton.mp last ▸ near
  have small := sum_between joined
  rw [List.length_append, List.length_singleton] at small
  have sum : (sequencer.sampleSum + lead).toInt = (block ++ [lead.toInt]).sum := by
    rw [List.sum_append, List.sum_singleton] at small ⊢
    rw [Int64.toInt_add, summed]
    exact Int.bmod_eq_of_le (by omega) (by omega)
  exact ⟨joined, sum, by omega⟩

/-- A sample is left out while a shift settles, joins the block, or completes it. -/
theorem sample_eight (isBlock : sequencer.rules.minFreshSamples = 8)
    (gathers : sequencer.Gathers block) (few : block.length < 8) (server : Tick) {lead : Int64}
    (near : -600 ≤ lead.toInt ∧ lead.toInt ≤ 600) :
    (server < sequencer.settleUntil ∧ sequencer.sample server lead = sequencer) ∨
    sequencer.settleUntil ≤ server ∧
      ((block.length < 7 ∧ (sequencer.sample server lead).Gathers (block ++ [lead.toInt]) ∧
          sequencer.IsUnmoved (sequencer.sample server lead)) ∨
        block.length = 7 ∧ (sequencer.sample server lead).Gathers [] ∧
          (correction? sequencer.rules (sequencer.sampleSum + lead) 8 = none →
            sequencer.IsUnmoved (sequencer.sample server lead)) ∧
          ∀ delta, correction? sequencer.rules (sequencer.sampleSum + lead) 8 = some delta →
            sequencer.Queues server delta (sequencer.sample server lead)) := by
  obtain ⟨joined, sum, -⟩ := gathers.toInt_add few near
  by_cases settles : server < sequencer.settleUntil
  · exact Or.inl ⟨settles, if_pos settles⟩
  refine Or.inr ⟨UInt64.not_lt.mp settles, ?_⟩
  have size : max sequencer.rules.minFreshSamples 1 = 8 := by rw [isBlock]; rfl
  have isSample : sequencer.sample server lead = _ := if_neg settles
  rw [isSample]
  dsimp only
  rw [size, gathers.counted]
  by_cases more : block.length + 1 < 8
  · rw [if_pos more]
    refine Or.inl ⟨by omega, ⟨joined, ?_, sum⟩, rfl, rfl, rfl⟩
    rw [List.length_append, List.length_singleton]
  · have full : block.length + 1 = 8 := by omega
    rw [if_neg more, full]
    have none : ∀ lead ∈ ([] : List Int), -600 ≤ lead ∧ lead ≤ 600 := fun lead member =>
      absurd member List.not_mem_nil
    refine Or.inr ⟨by omega, ?_, ?_, ?_⟩
    · split <;> exact ⟨none, rfl, rfl⟩
    · intro calm
      rw [calm]
      exact ⟨rfl, rfl, rfl⟩
    · intro delta calls
      rw [calls]
      exact ⟨rfl, rfl, rfl⟩

/-- Under a usual window the sum of the block tells which shift is queued. -/
theorem sample_cases (usual : sequencer.rules.IsUsual) (gathers : sequencer.Gathers block)
    (few : block.length < 8) (server : Tick) {lead : Int64}
    (near : -600 ≤ lead.toInt ∧ lead.toInt ≤ 600) :
    (server < sequencer.settleUntil ∧ sequencer.sample server lead = sequencer) ∨
    sequencer.settleUntil ≤ server ∧
      ((block.length < 7 ∧ (sequencer.sample server lead).Gathers (block ++ [lead.toInt]) ∧
          sequencer.IsUnmoved (sequencer.sample server lead)) ∨
        block.length = 7 ∧ (sequencer.sample server lead).Gathers [] ∧
          let sum := (block ++ [lead.toInt]).sum
          if (sum < 8 * sequencer.rules.minLead.toInt ∨ 8 * sequencer.rules.maxLead.toInt < sum) ∧
              sequencer.rules.shift sum ≠ 0 then
            sequencer.Queues server (.ofInt (sequencer.rules.shift sum))
              (sequencer.sample server lead)
          else sequencer.IsUnmoved (sequencer.sample server lead)) := by
  obtain ⟨-, sum, small⟩ := gathers.toInt_add few near
  have decides := correction?_eight usual small
  rw [sum] at decides
  refine (sample_eight usual.block gathers few server near).imp_right (And.imp_right ?_)
  refine Or.imp_right (And.imp_right (And.imp_right ?_))
  rintro ⟨calm, calls⟩
  dsimp only
  split at decides
  · rename_i outside
    rw [if_pos outside]
    exact calls _ decides
  · rename_i inside
    rw [if_neg inside]
    exact calm decides

/-- What a shift is decided on is alike. -/
structure Matches (first second : Sequencer) : Prop where
  rules : first.rules = second.rules
  sampleSum : first.sampleSum = second.sampleSum
  sampleCount : first.sampleCount = second.sampleCount
  settleUntil : first.settleUntil = second.settleUntil
  adjustment : first.adjustment = second.adjustment
  adjustments : first.stats.adjustments = second.stats.adjustments

/-- Whether an input is admitted is of no account to the samples. -/
theorem receive_matches {sequencer next : Sequencer} {server tick : Tick} {keys : Keys}
    {admission : Admission} (success : sequencer.receive server tick keys = .ok (admission, next)) :
    ∃ ahead, lead sequencer.rules server tick = .ok ahead ∧
      next.Matches (sequencer.sample server ahead) := by
  unfold receive at success
  split at success
  · cases success
  · rename_i ahead near
    dsimp only at success
    split at success <;>
    · cases success
      exact ⟨ahead, near, rfl, rfl, rfl, rfl, rfl, SequencerStats.adjustments_record ..⟩

theorem observe_matches {sequencer next : Sequencer} {server client : Tick}
    (success : sequencer.observe server client = .ok next) :
    ∃ ahead, lead sequencer.rules server client = .ok ahead ∧
      next.Matches (sequencer.sample server ahead) := by
  unfold observe at success
  split at success
  · cases success
  · rename_i ahead near
    cases success
    exact ⟨ahead, near, rfl, rfl, rfl, rfl, rfl, rfl⟩

theorem lead_of_receive_error {sequencer : Sequencer} {server tick : Tick} {keys : Keys}
    {fault : Desync} (failed : sequencer.receive server tick keys = .error fault) :
    lead sequencer.rules server tick = .error fault := by
  unfold receive at failed
  split at failed
  · rename_i gaveUp
    rw [gaveUp]
    exact congrArg _ (Except.error.inj failed)
  · dsimp only at failed
    split at failed <;> cases failed

theorem lead_of_observe_error {sequencer : Sequencer} {server client : Tick} {fault : Desync}
    (failed : sequencer.observe server client = .error fault) :
    lead sequencer.rules server client = .error fault := by
  unfold observe at failed
  split at failed
  · rename_i gaveUp
    rw [gaveUp]
    exact congrArg _ (Except.error.inj failed)
  · cases failed

structure Survey where
  sequencer : Sequencer
  /-- The leads that counted, in the order in which their messages came in. -/
  counted : List Int
  /-- The shifts that were handed over. -/
  handed : List Int64

namespace Survey

def start (rules : SequencerRules) : Survey := ⟨.ofRules rules, [], []⟩

/-- Writes down the lead of a message that left the sequencer as it now is. -/
def hear (survey : Survey) (server client : Tick) (sequencer : Sequencer) : Survey :=
  { survey with sequencer, counted := survey.counted ++ survey.sequencer.counts server client }

/-- A message beyond the desynchronisation limit leaves everything as it is. -/
def call (survey : Survey) : Call → Survey
  | .receive server tick keys =>
    match survey.sequencer.receive server tick keys with
    | .error _ => survey
    | .ok (_, sequencer) => survey.hear server tick sequencer
  | .observe server client =>
    match survey.sequencer.observe server client with
    | .error _ => survey
    | .ok sequencer => survey.hear server client sequencer
  | .release tick => { survey with sequencer := (survey.sequencer.release tick).2 }
  | .takeAdjustment =>
    { survey with
      sequencer := survey.sequencer.takeAdjustment.2
      handed := survey.handed ++ survey.sequencer.takeAdjustment.1.toList }

def run (rules : SequencerRules) (calls : List Call) : Survey := calls.foldl call (start rules)

/-- Eight leads that counted one after the other, behind whole blocks of eight. -/
def IsBlock (counted block : List Int) : Prop :=
  ∃ earlier later, counted = earlier ++ block ++ later ∧ 8 ∣ earlier.length ∧ block.length = 8

/-- A block calls for this shift. -/
def CallsFor (rules : SequencerRules) (counted : List Int) (delta : Int64) : Prop :=
  ∃ block, IsBlock counted block ∧
    (block.sum < 8 * rules.minLead.toInt ∨ 8 * rules.maxLead.toInt < block.sum) ∧
    rules.shift block.sum ≠ 0 ∧ delta.toInt = rules.shift block.sum

theorem CallsFor.append {counted : List Int} {delta : Int64} (calls : CallsFor rules counted delta)
    (more : List Int) : CallsFor rules (counted ++ more) delta := by
  obtain ⟨block, ⟨earlier, later, rfl, whole, size⟩, outside, nonzero, isShift⟩ := calls
  exact ⟨block, ⟨earlier, later ++ more, List.append_assoc _ _ _, whole, size⟩, outside, nonzero,
    isShift⟩

/-- Of eight in a row that counted the sequencer knows the last few, and every shift that is due or was
handed over is what a block called for. -/
structure IsFaithful (rules : SequencerRules) (survey : Survey) : Prop where
  ruled : survey.sequencer.rules = rules
  near : ∀ lead ∈ survey.counted, -600 ≤ lead ∧ lead ≤ 600
  gathers : ∃ whole block, survey.counted = whole ++ block ∧ 8 ∣ whole.length ∧ block.length < 8 ∧
    survey.sequencer.Gathers block
  due : ∀ delta ∈ survey.sequencer.adjustment, CallsFor rules survey.counted delta
  handed : ∀ delta ∈ survey.handed, CallsFor rules survey.counted delta

theorem start_isFaithful (rules : SequencerRules) : (start rules).IsFaithful rules where
  ruled := rfl
  near := fun lead member => absurd member List.not_mem_nil
  gathers := ⟨[], [], rfl, Nat.dvd_zero 8, by decide,
    fun lead member => absurd member List.not_mem_nil, rfl, rfl⟩
  due := fun delta member => by cases member
  handed := fun delta member => absurd member List.not_mem_nil

variable {survey : Survey}

theorem IsFaithful.hear (faithful : survey.IsFaithful rules) (usual : rules.IsUsual)
    {server client : Tick} {ahead : Int64} {sequencer : Sequencer}
    (near : lead rules server client = .ok ahead)
    (isSampled : sequencer.Matches (survey.sequencer.sample server ahead)) :
    (survey.hear server client sequencer).IsFaithful rules := by
  obtain ⟨isRules, bounds, ⟨whole, block, split, full, few, gathers⟩, due, handed⟩ := faithful
  obtain ⟨distance, within⟩ := toInt_lead near (by rw [usual.limit]; decide)
  have limit : rules.desyncLimit.toNat = 600 := by rw [usual.limit]; rfl
  rw [limit] at within
  obtain ⟨rulesOf, sampleSum, sampleCount, -, adjustment, -⟩ := isSampled
  have kept : sequencer.rules = rules := rulesOf.trans ((rules_sample ..).trans isRules)
  have gathering : ∀ block, (survey.sequencer.sample server ahead).Gathers block →
      sequencer.Gathers block := fun block sampled =>
    ⟨sampled.near, sampleCount.trans sampled.counted, sampleSum ▸ sampled.summed⟩
  rcases sample_cases (isRules ▸ usual) gathers few server (by omega : -600 ≤ ahead.toInt ∧
    ahead.toInt ≤ 600) with ⟨settles, same⟩ | ⟨counts, joins⟩
  · -- nothing is written down
    rw [same] at adjustment gathering
    unfold Survey.hear
    rw [counts_of_settling settles, List.append_nil]
    exact ⟨kept, bounds, ⟨whole, block, split, full, few, gathering block gathers⟩,
      fun delta member => due delta (adjustment ▸ member), handed⟩
  · have one : survey.sequencer.counts server client = [ahead.toInt] := by
      unfold Sequencer.counts
      dsimp only
      rw [← distance, isRules, limit]
      exact if_pos ⟨within, counts⟩
    have more : survey.counted ++ [ahead.toInt] = whole ++ (block ++ [ahead.toInt]) := by
      rw [split, List.append_assoc]
    have allNear : ∀ lead ∈ survey.counted ++ [ahead.toInt], -600 ≤ lead ∧ lead ≤ 600 := by
      intro lead member
      rcases List.mem_append.mp member with earlier | last
      · exact bounds lead earlier
      · rw [List.mem_singleton.mp last]
        omega
    have later : ∀ delta ∈ survey.sequencer.adjustment,
        CallsFor rules (survey.counted ++ [ahead.toInt]) delta := fun delta member =>
      (due delta member).append _
    have before : ∀ delta ∈ survey.handed,
        CallsFor rules (survey.counted ++ [ahead.toInt]) delta := fun delta member =>
      (handed delta member).append _
    unfold Survey.hear
    rw [one]
    rcases joins with ⟨some, grown, unmoved⟩ | ⟨last, emptied, decided⟩
    · refine ⟨kept, allNear, ⟨whole, block ++ [ahead.toInt], more, full, ?_, gathering _ grown⟩, ?_,
        before⟩
      · rw [List.length_append, List.length_singleton]
        omega
      · rw [adjustment, unmoved.adjustment]
        exact later
    · have size : (block ++ [ahead.toInt]).length = 8 := by
        rw [List.length_append, List.length_singleton, last]
      refine ⟨kept, allNear, ⟨whole ++ (block ++ [ahead.toInt]), [], ?_, ?_, by decide,
        gathering _ emptied⟩, ?_, before⟩
      · rw [more, List.append_nil]
      · rw [List.length_append, size]
        exact Nat.dvd_add full (Nat.dvd_refl 8)
      · rw [adjustment]
        dsimp only at decided
        rw [isRules] at decided
        split at decided
        · rename_i calls
          obtain ⟨outside, nonzero⟩ := calls
          rw [decided.adjustment]
          intro delta member
          cases member
          refine ⟨block ++ [ahead.toInt], ⟨whole, [], ?_, full, size⟩, outside, nonzero, ?_⟩
          · rw [more, List.append_nil]
          · have sum := @sum_between (block ++ [ahead.toInt]) _ _ fun lead member =>
              allNear lead (more ▸ List.mem_append_right whole member)
            rw [size] at sum
            exact toInt_shift usual (by omega)
        · rw [decided.adjustment]
          exact later

theorem IsFaithful.call (faithful : survey.IsFaithful rules) (usual : rules.IsUsual) (call : Call) :
    (survey.call call).IsFaithful rules := by
  cases call with
  | receive server tick keys =>
      unfold Survey.call
      dsimp only
      split
      · exact faithful
      · rename_i success
        obtain ⟨ahead, near, isSampled⟩ := receive_matches success
        exact faithful.hear usual (faithful.ruled ▸ near) isSampled
  | observe server client =>
      unfold Survey.call
      dsimp only
      split
      · exact faithful
      · rename_i success
        obtain ⟨ahead, near, isSampled⟩ := observe_matches success
        exact faithful.hear usual (faithful.ruled ▸ near) isSampled
  | release tick =>
      obtain ⟨isRules, bounds, ⟨whole, block, split, full, few, gathers⟩, due, handed⟩ := faithful
      exact ⟨isRules, bounds,
        ⟨whole, block, split, full, few, gathers.near, gathers.counted, gathers.summed⟩, due, handed⟩
  | takeAdjustment =>
      obtain ⟨isRules, bounds, ⟨whole, block, split, full, few, gathers⟩, due, handed⟩ := faithful
      refine ⟨isRules, bounds,
        ⟨whole, block, split, full, few, gathers.near, gathers.counted, gathers.summed⟩,
        fun delta member => (by cases member), fun delta member => ?_⟩
      rcases List.mem_append.mp member with earlier | taken
      · exact handed delta earlier
      · exact due delta (Option.mem_toList.mp taken)

theorem run_isFaithful (usual : rules.IsUsual) (calls : List Call) :
    (run rules calls).IsFaithful rules := by
  suffices kept : ∀ survey : Survey, survey.IsFaithful rules →
      (calls.foldl Survey.call survey).IsFaithful rules from kept _ (start_isFaithful rules)
  induction calls with
  | nil => exact fun _ faithful => faithful
  | cons call calls ih => exact fun _ faithful => ih _ (faithful.call usual call)

end Survey

end Sequencer

end Overworld
