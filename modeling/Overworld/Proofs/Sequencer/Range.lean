import Overworld.Proofs.Sequencer.Middle
import Overworld.Proofs.Sequencer.Spacing
import Overworld.Proofs.Settings.Fields

set_option autoImplicit false

/-!
Runs of a sequencer in exact arithmetic, which have no result where a signed word of 64 bits would wrap.
Samples are within the limit of desynchronisation, and their sums are small. The middle of the window is
another matter: the bounds may be any that are in order, and their sum need not be a word. Where it is one,
a run in exact arithmetic is the run of the sequencer itself, and every shift goes the way to the window.
Where it is none, one block below the window is enough for the sequencer to shift the wrong way.
-/

namespace Overworld

/-- The middle of the window, where its bounds have a sum. -/
def SequencerRules.guardedTarget? (rules : SequencerRules) : Option Rat :=
  (int64? (rules.minLead.toInt + rules.maxLead.toInt)).map fun sum =>
    Significand.round sum.toInt / 2

namespace Sequencer

def guardedLead? (rules : SequencerRules) (server client : Tick) : Option (Except Desync Int64) :=
  let difference : Int := client.toNat - server.toNat
  if rules.desyncLimit.toNat < difference.natAbs then some (lead rules server client)
  else (int64? difference).map .ok

def guardedCorrection? (rules : SequencerRules) (sum : Int64) (count : Nat) :
    Option (Option Int64) :=
  let mean := mean sum count
  if mean < Significand.round rules.minLead.toInt ∨ Significand.round rules.maxLead.toInt < mean then do
    let target ← rules.guardedTarget?
    let gap := Significand.round (target - mean)
    let delta ← int64? (IntRounding.nearestAway.quotient gap.num gap.den)
    return if delta = 0 then none else some delta
  else some none

def guardedSample? (sequencer : Sequencer) (server : Tick) (lead : Int64) : Option Sequencer :=
  if server < sequencer.settleUntil then some sequencer
  else do
    let sum ← int64? (sequencer.sampleSum.toInt + lead.toInt)
    let count := sequencer.sampleCount + 1
    if count < max sequencer.rules.minFreshSamples 1 then
      return { sequencer with sampleSum := sum, sampleCount := count }
    else
      let cleared := { sequencer with sampleSum := 0, sampleCount := 0 }
      match ← guardedCorrection? sequencer.rules sum count with
      | none => return cleared
      | some delta =>
        return { cleared with
          adjustment := some delta
          stats := { sequencer.stats with adjustments := sequencer.stats.adjustments + 1 }
          settleUntil := server + sequencer.rules.settleTicks }

/-- What becomes of an input of which the sample was taken. -/
def judge (sampled : Sequencer) (tick : Tick) (keys : Keys) (lead : Int64) : Admission × Sequencer :=
  let admission := sampled.admission tick lead
  let counted := { sampled with stats := sampled.stats.record admission }
  match admission with
  | .accepted =>
    (admission, { counted with pending := insertPending (tick, keys) counted.pending })
  | .dropped _ => (admission, counted)

def guardedReceive? (sequencer : Sequencer) (server tick : Tick) (keys : Keys) :
    Option (Except Desync (Admission × Sequencer)) := do
  match ← guardedLead? sequencer.rules server tick with
  | .error fault => return .error fault
  | .ok lead => return .ok ((← sequencer.guardedSample? server lead).judge tick keys lead)

def guardedObserve? (sequencer : Sequencer) (server client : Tick) :
    Option (Except Desync Sequencer) := do
  match ← guardedLead? sequencer.rules server client with
  | .error fault => return .error fault
  | .ok lead => return .ok (← sequencer.guardedSample? server lead)

theorem receive_eq_judge (sequencer : Sequencer) (server tick : Tick) (keys : Keys) :
    sequencer.receive server tick keys =
      (lead sequencer.rules server tick).map fun lead =>
        (sequencer.sample server lead).judge tick keys lead := by
  unfold receive judge
  cases lead sequencer.rules server tick with
  | error fault => rfl
  | ok lead =>
      dsimp only [Except.map]
      cases (sequencer.sample server lead).admission tick lead <;> rfl

theorem observe_eq_map (sequencer : Sequencer) (server client : Tick) :
    sequencer.observe server client =
      (lead sequencer.rules server client).map (sequencer.sample server) := by
  unfold observe
  cases lead sequencer.rules server client <;> rfl

variable {rules : SequencerRules}

theorem guardedLead?_eq (small : rules.desyncLimit.toNat < 9223372036854775808)
    (server client : Tick) : guardedLead? rules server client = some (lead rules server client) := by
  unfold guardedLead? lead
  dsimp only
  split
  · rfl
  · rename_i near
    have exact : (Int64.ofInt (client.toNat - server.toNat)).toInt = client.toNat - server.toNat :=
      Int64.toInt_ofInt_of_le (by omega) (by omega)
    rw [int64?_eq_some_iff.mpr exact]
    rfl

theorem Gathers.int64?_add {sequencer : Sequencer} {block : List Int}
    (gathers : sequencer.Gathers block) (few : block.length < 8) {lead : Int64}
    (near : -600 ≤ lead.toInt ∧ lead.toInt ≤ 600) :
    int64? (sequencer.sampleSum.toInt + lead.toInt) = some (sequencer.sampleSum + lead) := by
  obtain ⟨-, sum, -⟩ := gathers.toInt_add few near
  rw [int64?_eq_some_iff, sum, List.sum_append, List.sum_singleton, gathers.summed]

/-- Once the decision has a result, so has the sample. -/
theorem guardedSample?_eq {sequencer : Sequencer} {block : List Int}
    (isBlock : sequencer.rules.minFreshSamples = 8) (gathers : sequencer.Gathers block)
    (few : block.length < 8) (server : Tick) {lead : Int64}
    (near : -600 ≤ lead.toInt ∧ lead.toInt ≤ 600)
    (decided : block.length = 7 →
      guardedCorrection? sequencer.rules (sequencer.sampleSum + lead) 8 =
        some (correction? sequencer.rules (sequencer.sampleSum + lead) 8)) :
    sequencer.guardedSample? server lead = some (sequencer.sample server lead) := by
  have size : max sequencer.rules.minFreshSamples 1 = 8 := by rw [isBlock]; rfl
  unfold guardedSample? sample
  split
  · rfl
  · rw [gathers.int64?_add few near, Option.bind_eq_bind, Option.bind_some]
    dsimp only
    rw [size, gathers.counted]
    split
    · rfl
    · have full : block.length + 1 = 8 := by omega
      rw [full, decided (by omega), Option.bind_eq_bind, Option.bind_some]
      cases correction? sequencer.rules (sequencer.sampleSum + lead) 8 <;> rfl

/-- With a sample that has a result, so has a message. -/
theorem guardedReceive?_eq {sequencer : Sequencer} {server tick : Tick}
    (small : sequencer.rules.desyncLimit.toNat < 9223372036854775808)
    (sampled : ∀ ahead, lead sequencer.rules server tick = .ok ahead →
      sequencer.guardedSample? server ahead = some (sequencer.sample server ahead)) (keys : Keys) :
    sequencer.guardedReceive? server tick keys = some (sequencer.receive server tick keys) := by
  unfold guardedReceive?
  rw [guardedLead?_eq small, receive_eq_judge]
  cases near : lead sequencer.rules server tick with
  | error fault => rfl
  | ok ahead =>
      rw [Option.bind_eq_bind, Option.bind_some]
      dsimp only
      rw [sampled ahead near]
      rfl

theorem guardedObserve?_eq {sequencer : Sequencer} {server client : Tick}
    (small : sequencer.rules.desyncLimit.toNat < 9223372036854775808)
    (sampled : ∀ ahead, lead sequencer.rules server client = .ok ahead →
      sequencer.guardedSample? server ahead = some (sequencer.sample server ahead)) :
    sequencer.guardedObserve? server client = some (sequencer.observe server client) := by
  unfold guardedObserve?
  rw [guardedLead?_eq small, observe_eq_map]
  cases near : lead sequencer.rules server client with
  | error fault => rfl
  | ok ahead =>
      rw [Option.bind_eq_bind, Option.bind_some]
      dsimp only
      rw [sampled ahead near]
      rfl

section

variable (window : rules.HasWindow) (middle : rules.HasMiddle)

include window middle

theorem guardedTarget?_eq : rules.guardedTarget? = some rules.targetLead := by
  have sum := toInt_minLead_add_maxLead window middle
  unfold SequencerRules.guardedTarget? SequencerRules.targetLead
  rw [int64?_eq_some_iff.mpr sum]
  rfl

theorem guardedCorrection?_eq {sum : Int64} (small : sum.toInt.natAbs ≤ 4800) :
    guardedCorrection? rules sum 8 = some (correction? rules sum 8) := by
  obtain ⟨shift, isShift, fits, isCorrection⟩ :=
    correction?_eq (abs_targetLead_sub_mean_le window middle small)
  unfold guardedCorrection?
  dsimp only
  rw [isCorrection, guardedTarget?_eq window middle, Option.bind_eq_bind, Option.bind_some, isShift,
    fits, Option.bind_eq_bind, Option.bind_some]
  simp only [ofInt_eq_zero_iff fits]
  split <;> rfl

end

theorem guardedCorrection?_zero (window : rules.HasWindow) (none : ¬ rules.HasMiddle) :
    guardedCorrection? rules 0 8 = .none := by
  have target : rules.guardedTarget? = .none := by
    unfold SequencerRules.HasMiddle at none
    unfold SequencerRules.guardedTarget?
    rw [int64?_eq_none (by omega)]
    rfl
  unfold guardedCorrection?
  dsimp only
  rw [if_pos (mean_zero_outside window none), target]
  rfl

/-- A sequencer that has only heard signs of life of such a client. -/
def level (rules : SequencerRules) (count : Nat) : Sequencer :=
  { ofRules rules with sampleCount := count }

theorem lead_level (rules : SequencerRules) (tick : Tick) : lead rules tick tick = .ok 0 := by
  unfold lead
  dsimp only
  rw [Int.sub_self]
  exact if_neg (Nat.not_lt_zero _)

theorem blockSize_level (window : rules.HasWindow) (count : Nat) :
    max (level rules count).rules.minFreshSamples 1 = 8 := by
  have isBlock : (level rules count).rules.minFreshSamples = 8 := window.block
  rw [isBlock]
  rfl

theorem sample_level (window : rules.HasWindow) (tick : Tick) {count : Nat} (few : count < 7) :
    (level rules count).sample tick 0 = level rules (count + 1) := by
  have unsettled : ¬ tick < (level rules count).settleUntil := UInt64.not_lt_zero
  have more : (level rules count).sampleCount + 1 < 8 := Nat.succ_lt_succ few
  unfold sample
  rw [if_neg unsettled]
  dsimp only
  rw [blockSize_level window, if_pos more]
  rfl

theorem level_gathers (rules : SequencerRules) (count : Nat) :
    (level rules count).Gathers (List.replicate count 0) where
  near lead member := by
    rw [List.eq_of_mem_replicate member]
    decide
  counted := (List.length_replicate ..).symm
  summed := by
    rw [List.sum_replicate, nsmul_zero]
    rfl

theorem guardedSample?_level (window : rules.HasWindow) (tick : Tick) {count : Nat}
    (few : count < 7) :
    (level rules count).guardedSample? tick 0 = some (level rules (count + 1)) := by
  rw [← sample_level window tick few]
  refine guardedSample?_eq window.block (level_gathers rules count) ?_ tick (by decide) fun last => ?_
  · rw [List.length_replicate]
    omega
  · rw [List.length_replicate] at last
    omega

theorem sample_level_last (window : rules.HasWindow) (tick : Tick) {delta : Int64}
    (calls : correction? rules 0 8 = some delta) :
    ((level rules 7).sample tick 0).adjustment = some delta := by
  have unsettled : ¬ tick < (level rules 7).settleUntil := UInt64.not_lt_zero
  have full : ¬ (level rules 7).sampleCount + 1 < 8 := Nat.lt_irrefl 8
  have decided : correction? (level rules 7).rules ((level rules 7).sampleSum + 0)
      ((level rules 7).sampleCount + 1) = some delta := calls
  unfold sample
  rw [if_neg unsettled]
  dsimp only
  rw [blockSize_level window, if_neg full, decided]

theorem guardedSample?_level_last (window : rules.HasWindow) (tick : Tick)
    (wraps : guardedCorrection? rules 0 8 = none) :
    (level rules 7).guardedSample? tick 0 = none := by
  have unsettled : ¬ tick < (level rules 7).settleUntil := UInt64.not_lt_zero
  have full : ¬ (level rules 7).sampleCount + 1 < 8 := Nat.lt_irrefl 8
  have undecided : guardedCorrection? (level rules 7).rules 0 ((level rules 7).sampleCount + 1) =
      none := wraps
  have zero : int64? ((level rules 7).sampleSum.toInt + (0 : Int64).toInt) = some 0 := rfl
  unfold guardedSample?
  rw [if_neg unsettled, zero, Option.bind_eq_bind, Option.bind_some]
  dsimp only
  rw [blockSize_level window, if_neg full, undecided]
  rfl

theorem observe_level (rules : SequencerRules) (count : Nat) (tick : Tick) :
    (level rules count).observe tick tick = .ok ((level rules count).sample tick 0) := by
  have near : lead (level rules count).rules tick tick = .ok 0 := lead_level rules tick
  rw [observe_eq_map, near]
  rfl

theorem guardedObserve?_level (window : rules.HasWindow) (count : Nat) (tick : Tick) :
    (level rules count).guardedObserve? tick tick =
      ((level rules count).guardedSample? tick 0).map .ok := by
  have small : rules.desyncLimit.toNat < 9223372036854775808 := by
    rw [window.limit]
    decide
  have near : guardedLead? (level rules count).rules tick tick = some (.ok 0) :=
    (guardedLead?_eq small tick tick).trans (congrArg some (lead_level rules tick))
  unfold guardedObserve?
  rw [near, Option.bind_eq_bind, Option.bind_some]
  dsimp only
  cases (level rules count).guardedSample? tick 0 <;> rfl

/-- A shift was decided on a block whose mean lies outside the window, and goes the way to it. -/
def Observation.LeadsBack (rules : SequencerRules) (earlier : List Observation)
    (observation : Observation) : Prop :=
  ∀ delta ∈ observation.queued, ∃ block, Observation.Decides earlier observation block ∧
    (Observation.meanLead block < rules.minLead.toInt ∧ 0 < delta.toInt ∨
      rules.maxLead.toInt < Observation.meanLead block ∧ delta.toInt < 0)

namespace Watch

open Observation

def guardedCall? (watch : Watch) : Call → Option Watch
  | .receive server tick keys => do
    match ← watch.sequencer.guardedReceive? server tick keys with
    | .error _ => return watch.read server tick watch.sequencer
    | .ok (_, sequencer) => return watch.read server tick sequencer
  | .observe server client => do
    match ← watch.sequencer.guardedObserve? server client with
    | .error _ => return watch.read server client watch.sequencer
    | .ok sequencer => return watch.read server client sequencer
  | .release tick => some { watch with sequencer := (watch.sequencer.release tick).2 }
  | .takeAdjustment => some { watch with sequencer := watch.sequencer.takeAdjustment.2 }

/-- A run in exact arithmetic. -/
def guardedRun? (rules : SequencerRules) (calls : List Call) : Option Watch :=
  calls.foldlM guardedCall? (start rules)

/-- The samples that wait for their block to be complete are the last that counted, and every shift
goes the way to the window. -/
structure IsGuided (rules : SequencerRules) (watch : Watch) : Prop where
  ruled : watch.sequencer.rules = rules
  gathers : ∃ whole block, countedLeads watch.observations = whole ++ block ∧ 8 ∣ whole.length ∧
    block.length < 8 ∧ watch.sequencer.Gathers block
  leads : ∀ earlier observation later, watch.observations = earlier ++ observation :: later →
    observation.LeadsBack rules earlier

theorem start_isGuided (rules : SequencerRules) : (start rules).IsGuided rules where
  ruled := rfl
  gathers := ⟨[], [], rfl, Nat.dvd_zero 8, by decide,
    fun lead member => absurd member List.not_mem_nil, rfl, rfl⟩
  leads earlier observation later split := by simp [start] at split

variable {watch : Watch}

/-- The inputs held, the counts of them, and a shift that is taken are of no account. -/
theorem IsGuided.of_same (guided : watch.IsGuided rules) {sequencer : Sequencer}
    (ruled : sequencer.rules = watch.sequencer.rules)
    (sum : sequencer.sampleSum = watch.sequencer.sampleSum)
    (count : sequencer.sampleCount = watch.sequencer.sampleCount) :
    ({ watch with sequencer } : Watch).IsGuided rules := by
  obtain ⟨whole, block, split, full, few, near, counted, summed⟩ := guided.gathers
  refine ⟨ruled.trans guided.ruled, ⟨whole, block, split, full, few, near, count.trans counted, ?_⟩,
    guided.leads⟩
  rw [sum]
  exact summed

/-- What is to be shown of one more observation. -/
theorem IsGuided.append (guided : watch.IsGuided rules) {sequencer : Sequencer}
    {observation : Observation} (ruled : sequencer.rules = rules)
    (leads : observation.LeadsBack rules watch.observations)
    (gathers : ∃ whole block, countedLeads (watch.observations ++ [observation]) = whole ++ block ∧
      8 ∣ whole.length ∧ block.length < 8 ∧ sequencer.Gathers block) :
    IsGuided rules ⟨sequencer, watch.observations ++ [observation]⟩ where
  ruled := ruled
  gathers := gathers
  leads := forall_split_concat guided.leads leads

/-- A message that does not count. -/
theorem IsGuided.leaveOut (guided : watch.IsGuided rules) (server client : Tick) :
    (watch.read server client watch.sequencer).IsGuided rules := by
  have isObservation : Observation.between server client watch.sequencer watch.sequencer =
      ⟨server, client, false, none⟩ := by
    rw [between_of_isUnmoved ⟨rfl, rfl, rfl⟩, bne_self_eq_false]
  unfold read
  rw [isObservation]
  refine guided.append guided.ruled (fun delta member => by cases member) ?_
  rw [countedLeads_append, countedLeads_singleton, if_neg Bool.false_ne_true, List.append_nil]
  exact guided.gathers

/-- A message that counts. -/
theorem IsGuided.sample (guided : watch.IsGuided rules) (window : rules.HasWindow)
    (middle : rules.HasMiddle) {server client : Tick} {ahead : Int64}
    (near : lead rules server client = .ok ahead) :
    (watch.read server client (watch.sequencer.sample server ahead)).IsGuided rules ∧
      watch.sequencer.guardedSample? server ahead = some (watch.sequencer.sample server ahead) := by
  obtain ⟨distance, within⟩ := toInt_lead near (by rw [window.limit]; decide)
  have limit : rules.desyncLimit.toNat = 600 := by
    rw [window.limit]
    rfl
  rw [limit] at within
  have bounds : -600 ≤ ahead.toInt ∧ ahead.toInt ≤ 600 := by omega
  obtain ⟨whole, block, split, full, few, gathers⟩ := guided.gathers
  obtain ⟨-, sum, small⟩ := gathers.toInt_add few bounds
  have isBlock : watch.sequencer.rules.minFreshSamples = 8 := guided.ruled ▸ window.block
  refine ⟨?_, guardedSample?_eq isBlock gathers few server bounds fun _ =>
    guided.ruled ▸ guardedCorrection?_eq window middle small⟩
  rcases sample_observed isBlock split full few gathers distance bounds with
    ⟨-, same⟩ | ⟨-, queued, isObservation, more, joins⟩
  · rw [same]
    exact guided.leaveOut server client
  have length : (block ++ [ahead.toInt]).length = block.length + 1 := by
    rw [List.length_append, List.length_singleton]
  have ruled := (rules_sample watch.sequencer server ahead).trans guided.ruled
  unfold read
  rw [isObservation]
  rcases joins with ⟨rfl, fewer, grown, -⟩ | ⟨last, wholeAgain, emptied, decided, -, -⟩
  · exact guided.append ruled (fun delta member => by cases member)
      ⟨whole, _, more, full, by omega, grown⟩
  · have size : (block ++ [ahead.toInt]).length = 8 := by omega
    have gathersNone : countedLeads (watch.observations ++ [⟨server, client, true, queued⟩]) =
        (whole ++ (block ++ [ahead.toInt])) ++ [] := by
      rw [more, List.append_nil]
    refine guided.append ruled ?_ ⟨_, [], gathersNone, wholeAgain, by decide, emptied⟩
    intro delta member
    refine ⟨block ++ [ahead.toInt], ⟨rfl, whole, more, full, size⟩, ?_⟩
    rw [meanLead_lt_iff size, lt_meanLead_iff size, ← sum]
    exact correction?_sign window middle small (guided.ruled ▸ decided.trans member)

/-- Whether an input is admitted is of no account to the observation. -/
theorem IsGuided.hear (guided : watch.IsGuided rules) (window : rules.HasWindow)
    (middle : rules.HasMiddle) {server client : Tick} {ahead : Int64} {sequencer : Sequencer}
    (near : lead watch.sequencer.rules server client = .ok ahead)
    (isSampled : sequencer.Matches (watch.sequencer.sample server ahead)) :
    (watch.read server client sequencer).IsGuided rules := by
  have sampled := (guided.sample window middle (guided.ruled ▸ near)).1
  unfold read at sampled ⊢
  rw [isSampled.between_eq]
  exact sampled.of_same isSampled.rules isSampled.sampleSum isSampled.sampleCount

theorem IsGuided.call (guided : watch.IsGuided rules) (window : rules.HasWindow)
    (middle : rules.HasMiddle) (call : Call) :
    (watch.call call).IsGuided rules ∧ watch.guardedCall? call = some (watch.call call) := by
  have small : watch.sequencer.rules.desyncLimit.toNat < 9223372036854775808 := by
    rw [guided.ruled, window.limit]
    decide
  have sampled : ∀ server client ahead, lead watch.sequencer.rules server client = .ok ahead →
      watch.sequencer.guardedSample? server ahead = some (watch.sequencer.sample server ahead) :=
    fun server client ahead near => (guided.sample window middle (guided.ruled ▸ near)).2
  cases call with
  | receive server tick keys =>
      unfold Watch.call guardedCall?
      dsimp only
      rw [guardedReceive?_eq small (sampled server tick)]
      cases received : watch.sequencer.receive server tick keys with
      | error fault => exact ⟨guided.leaveOut server tick, rfl⟩
      | ok answer =>
          obtain ⟨ahead, near, isSampled⟩ := receive_matches received
          exact ⟨guided.hear window middle near isSampled, rfl⟩
  | observe server client =>
      unfold Watch.call guardedCall?
      dsimp only
      rw [guardedObserve?_eq small (sampled server client)]
      cases observed : watch.sequencer.observe server client with
      | error fault => exact ⟨guided.leaveOut server client, rfl⟩
      | ok sequencer =>
          obtain ⟨ahead, near, isSampled⟩ := observe_matches observed
          exact ⟨guided.hear window middle near isSampled, rfl⟩
  | release tick => exact ⟨guided.of_same rfl rfl rfl, rfl⟩
  | takeAdjustment => exact ⟨guided.of_same rfl rfl rfl, rfl⟩

theorem run_concat (rules : SequencerRules) (calls : List Call) (call : Call) :
    run rules (calls ++ [call]) = (run rules calls).call call :=
  List.foldl_concat ..

theorem guardedRun?_concat (rules : SequencerRules) (calls : List Call) (call : Call) :
    guardedRun? rules (calls ++ [call]) =
      (guardedRun? rules calls).bind fun watch => watch.guardedCall? call := by
  unfold guardedRun?
  rw [List.foldlM_append]
  simp only [List.foldlM_cons, List.foldlM_nil, bind_pure, Option.bind_eq_bind]

theorem run_isGuided (window : rules.HasWindow) (middle : rules.HasMiddle) (calls : List Call) :
    (run rules calls).IsGuided rules ∧ guardedRun? rules calls = some (run rules calls) := by
  induction calls using List.reverseRecOn with
  | nil => exact ⟨start_isGuided rules, rfl⟩
  | append_singleton calls call ih =>
      obtain ⟨guided, exact⟩ := ih
      obtain ⟨next, step⟩ := guided.call window middle call
      rw [run_concat, guardedRun?_concat, exact]
      exact ⟨next, step⟩

theorem call_level {count : Nat} (isLevel : watch.sequencer = level rules count) (tick : Tick) :
    watch.call (.observe tick tick) = watch.read tick tick ((level rules count).sample tick 0) := by
  unfold Watch.call
  dsimp only
  rw [isLevel, observe_level]

theorem guardedCall?_level (window : rules.HasWindow) {count : Nat}
    (isLevel : watch.sequencer = level rules count) (tick : Tick) :
    watch.guardedCall? (.observe tick tick) =
      ((level rules count).guardedSample? tick 0).map (watch.read tick tick) := by
  unfold guardedCall?
  dsimp only
  rw [isLevel, guardedObserve?_level window]
  cases (level rules count).guardedSample? tick 0 <;> rfl

/-- Signs of life of a client level with the server gather, whatever the window is. -/
theorem run_level (window : rules.HasWindow) (tick : Tick) {count : Nat} (few : count < 8) :
    (run rules (List.replicate count (.observe tick tick))).sequencer = level rules count ∧
      guardedRun? rules (List.replicate count (.observe tick tick)) =
        some (run rules (List.replicate count (.observe tick tick))) := by
  induction count with
  | zero => exact ⟨rfl, rfl⟩
  | succ count ih =>
      obtain ⟨isLevel, exact⟩ := ih (by omega)
      rw [List.replicate_succ', run_concat, guardedRun?_concat, exact, Option.bind_some,
        call_level isLevel, guardedCall?_level window isLevel,
        guardedSample?_level window tick (by omega), sample_level window tick (by omega)]
      exact ⟨rfl, rfl⟩

/-- The eighth completes a block. Without a sum of the bounds there is no middle to aim for, and the
sequencer has the client shift back, while its lead is below the window. -/
theorem run_level_last (window : rules.HasWindow) (none : ¬ rules.HasMiddle) (tick : Tick) :
    guardedRun? rules (List.replicate 8 (.observe tick tick)) = .none ∧
      0 < rules.minLead.toInt ∧
      ∃ delta, (run rules (List.replicate 8 (.observe tick tick))).sequencer.adjustment =
        some delta ∧ delta.toInt < 0 := by
  obtain ⟨isLevel, exact⟩ := run_level window tick (show 7 < 8 by decide)
  obtain ⟨delta, calls, negative⟩ := correction?_zero window none
  have wraps := guardedCorrection?_zero window none
  rw [List.replicate_succ', run_concat, guardedRun?_concat, exact, Option.bind_some,
    call_level isLevel, guardedCall?_level window isLevel, guardedSample?_level_last window tick wraps]
  exact ⟨rfl, minLead_pos none, delta, sample_level_last window tick calls, negative⟩

/-- Under valid settings the run of every sequence of calls is the one in exact arithmetic, if the bounds
of the window have a sum, and then every shift that was queued goes the way from the mean of its block
to the window: forth below the window, and back above it. If they have none, the eighth sign of life of a
client level with the server has no result in exact arithmetic; that client is below the window, and the
sequencer shifts it back. -/
theorem run_in_range_iff_middle (settings : Settings) (valid : settings.fault? = none) :
    (settings.sequencerRules.HasMiddle → ∀ calls,
      guardedRun? settings.sequencerRules calls = some (run settings.sequencerRules calls) ∧
      ∀ earlier observation later,
        (run settings.sequencerRules calls).observations = earlier ++ observation :: later →
          observation.LeadsBack settings.sequencerRules earlier) ∧
    (¬ settings.sequencerRules.HasMiddle → ∀ tick,
      guardedRun? settings.sequencerRules (List.replicate 8 (.observe tick tick)) = none ∧
      0 < settings.inputMinLead.toInt ∧
      ∃ delta, (run settings.sequencerRules
        (List.replicate 8 (.observe tick tick))).sequencer.adjustment = some delta ∧
          delta.toInt < 0) := by
  have window : settings.sequencerRules.HasWindow := by
    obtain ⟨fit, ordered, -⟩ := Settings.fault?_eq_none_iff.mp valid
    exact ⟨rfl, rfl, Int64.le_iff_toInt_le.mp fit.inputMinLead, Int64.le_iff_toInt_le.mp ordered⟩
  refine ⟨fun middle calls => ?_, fun none => run_level_last window none⟩
  obtain ⟨guided, exact⟩ := run_isGuided window middle calls
  exact ⟨exact, guided.leads⟩

/-- A client ten ticks ahead is shifted by eight back to the middle of the standard window. -/
theorem early_client_leads_back :
    Settings.standard.fault? = none ∧ Settings.standard.sequencerRules.HasMiddle ∧
    guardedRun? .standard earlyClient = some (run .standard earlyClient) ∧
    LeadsBack .standard (List.replicate 7 ⟨100, 110, true, none⟩)
      ⟨100, 110, true, some (-8)⟩ := by
  have valid : Settings.standard.fault? = none := by decide +kernel
  have middle : Settings.standard.sequencerRules.HasMiddle := by
    unfold SequencerRules.HasMiddle
    decide +kernel
  have observations : (run .standard earlyClient).observations =
      List.replicate 7 ⟨100, 110, true, none⟩ ++ ⟨100, 110, true, some (-8)⟩ ::
        [⟨109, 110, false, none⟩, ⟨110, 112, true, none⟩] := by decide +kernel
  obtain ⟨exact, leads⟩ := (run_in_range_iff_middle .standard valid).1 middle earlyClient
  exact ⟨valid, middle, exact, leads _ _ _ observations⟩

/-- Standard settings but for a window without an upper bound to speak of. -/
def unboundedWindow : Settings := { Settings.standard with inputMaxLead := 9223372036854775807 }

/-- The settings are valid, and eight signs of life below the window queue a shift by 2⁶² back. -/
theorem unbounded_window_shifts_back :
    unboundedWindow.fault? = none ∧
    guardedRun? unboundedWindow.sequencerRules (List.replicate 8 (.observe 100 100)) = none ∧
    (run unboundedWindow.sequencerRules (List.replicate 8 (.observe 100 100))).observations =
      List.replicate 7 ⟨100, 100, true, none⟩ ++
        [⟨100, 100, true, some (-4611686018427387904)⟩] ∧
    meanLead (List.replicate 8 0) < unboundedWindow.sequencerRules.minLead.toInt := by
  refine ⟨by decide +kernel, by decide +kernel, by decide +kernel, ?_⟩
  unfold meanLead
  decide +kernel

end Watch

end Sequencer

end Overworld
