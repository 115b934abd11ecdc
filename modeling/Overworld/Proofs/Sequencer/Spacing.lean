import Mathlib.Data.List.Induction
import Mathlib.Tactic.Linarith
import Overworld.Proofs.Sequencer.Drift

set_option autoImplicit false

/-!
Runs of a sequencer with an observation of every message that came in: whether it counted as a sample
of the client's clock, and the shift that it had queued. A shift is decided on eight samples that no other
decision is taken on, aims for the middle of the window, and is given ten ticks to settle.
-/

namespace Overworld

/-- The middle of the window. -/
def SequencerRules.middle (rules : SequencerRules) : Rat :=
  (rules.minLead.toInt + rules.maxLead.toInt) / 2

namespace Sequencer

/-- What a message did to the sequencer, as seen from outside. -/
structure Observation where
  server : Tick
  client : Tick
  /-- Whether it changed how many samples there are. -/
  counted : Bool
  /-- The shift that it left, if it had one queued. -/
  queued : Option Int64
deriving DecidableEq

namespace Observation

def between (server client : Tick) (before after : Sequencer) : Observation where
  server
  client
  counted := after.sampleCount != before.sampleCount
  queued :=
    if after.adjustment = before.adjustment ∧
        after.stats.adjustments = before.stats.adjustments then none
    else after.adjustment

theorem between_of_isUnmoved {before after : Sequencer} (unmoved : before.IsUnmoved after)
    (server client : Tick) :
    between server client before after =
      ⟨server, client, after.sampleCount != before.sampleCount, none⟩ := by
  simp [between, unmoved.adjustment, unmoved.adjustments]

theorem between_of_queues {before after : Sequencer} {server : Tick} {delta : Int64}
    (queues : before.Queues server delta after) (client : Tick) :
    between server client before after =
      ⟨server, client, after.sampleCount != before.sampleCount, some delta⟩ := by
  simp [between, queues.adjustment, queues.adjustments]

/-- How far the client's clock was ahead of the server's. -/
def lead (observation : Observation) : Int := observation.client.toNat - observation.server.toNat

/-- The leads that counted, in order. -/
def countedLeads (observations : List Observation) : List Int :=
  (observations.filter (·.counted)).map lead

/-- These eight are the last that counted, behind whole blocks of eight. -/
def IsLastBlock (counted block : List Int) : Prop :=
  ∃ earlier, counted = earlier ++ block ∧ 8 ∣ earlier.length ∧ block.length = 8

/-- A message behind earlier ones makes a block complete, on which a decision is taken. -/
def Decides (earlier : List Observation) (observation : Observation) (block : List Int) : Prop :=
  observation.counted = true ∧ IsLastBlock (countedLeads (earlier ++ [observation])) block

/-- The mean of some leads. -/
def meanLead (block : List Int) : Rat := block.sum / block.length

theorem countedLeads_append (observations more : List Observation) :
    countedLeads (observations ++ more) = countedLeads observations ++ countedLeads more := by
  simp [countedLeads]

theorem countedLeads_singleton (observation : Observation) :
    countedLeads [observation] = if observation.counted then [observation.lead] else [] := by
  cases counted : observation.counted <;> simp [countedLeads, counted]

/-- Blocks that two messages make complete have no lead in common: the later one began behind the
earlier message. -/
theorem Decides.isSuffix {before between : List Observation} {other observation : Observation}
    {first second : List Int} (decided : Decides before other first)
    (decides : Decides (before ++ other :: between) observation second) :
    second <:+ countedLeads (between ++ [observation]) := by
  obtain ⟨-, front, isFront, wholeFront, eight⟩ := decided
  obtain ⟨counted, earlier, split, whole, size⟩ := decides
  have all : countedLeads (before ++ other :: between ++ [observation]) =
      countedLeads (before ++ [other]) ++ countedLeads (between ++ [observation]) := by
    rw [← countedLeads_append]
    simp
  have some : 0 < (countedLeads (between ++ [observation])).length := by
    rw [countedLeads_append, countedLeads_singleton, if_pos counted]
    simp
  rw [all, isFront] at split
  have lengths := congrArg List.length split
  simp only [List.length_append] at lengths
  have longer : (front ++ first).length ≤ earlier.length := by
    rw [List.length_append]
    omega
  have laterDecision : second <:+ earlier ++ second := ⟨earlier, rfl⟩
  refine List.suffix_of_suffix_length_le laterDecision ⟨_, split⟩ ?_
  rw [List.length_append] at longer
  omega

variable {rules : SequencerRules} {block : List Int}

/-- The shift is nothing exactly where the mean is next to the middle. -/
theorem shift_eq_zero (rules : SequencerRules) (sum : Int) :
    rules.shift sum = 0 ↔ (sum - 4 * (rules.minLead.toInt + rules.maxLead.toInt)).natAbs < 4 := by
  unfold SequencerRules.shift IntRounding.quotient
  dsimp only
  split <;> omega

theorem meanLead_sub_middle (size : block.length = 8) :
    meanLead block - rules.middle =
      ((block.sum - 4 * (rules.minLead.toInt + rules.maxLead.toInt) : Int) : Rat) / 8 := by
  unfold meanLead SequencerRules.middle
  rw [size]
  push_cast
  ring

theorem meanLead_lt_iff (size : block.length = 8) (bound : Int) :
    meanLead block < bound ↔ block.sum < 8 * bound := by
  unfold meanLead
  rw [size, div_lt_iff₀ (by norm_num), mul_comm]
  exact_mod_cast Iff.rfl

theorem lt_meanLead_iff (size : block.length = 8) (bound : Int) :
    bound < meanLead block ↔ 8 * bound < block.sum := by
  unfold meanLead
  rw [size, lt_div_iff₀ (by norm_num), mul_comm]
  exact_mod_cast Iff.rfl

theorem shift_ne_zero_iff (size : block.length = 8) :
    rules.shift block.sum ≠ 0 ↔ 1 / 2 ≤ |meanLead block - rules.middle| := by
  rw [Ne, shift_eq_zero, meanLead_sub_middle size, abs_div, ← Int.cast_abs, Int.abs_eq_natAbs]
  generalize (block.sum - 4 * (rules.minLead.toInt + rules.maxLead.toInt)).natAbs = distance
  rw [abs_of_pos (by norm_num : (0 : Rat) < 8), div_le_div_iff₀ (by norm_num) (by norm_num)]
  norm_cast
  omega

/-- A shift brings the mean next to the middle, from the side on which it lies. -/
theorem shift_aims (size : block.length = 8) {delta : Int} (isShift : delta = rules.shift block.sum)
    (nonzero : rules.shift block.sum ≠ 0) (ordered : rules.minLead.toInt ≤ rules.maxLead.toInt) :
    (meanLead block < rules.minLead.toInt → 0 < delta) ∧
      (rules.maxLead.toInt < meanLead block → delta < 0) ∧
      |meanLead block + delta - rules.middle| ≤ 1 / 2 ∧
      (rules.minLead.toInt < rules.maxLead.toInt →
        rules.minLead.toInt ≤ meanLead block + delta ∧
          meanLead block + delta ≤ rules.maxLead.toInt) := by
  have near := shift_near rules block.sum
  rw [← isShift] at near nonzero
  have mean : meanLead block = block.sum / 8 := by
    unfold meanLead
    rw [size]
    norm_num
  have above : (16 * delta : Rat) ≤
      8 * (rules.minLead.toInt + rules.maxLead.toInt) - 2 * block.sum + 8 := by
    exact_mod_cast near.1
  have below : (8 * (rules.minLead.toInt + rules.maxLead.toInt) - 2 * block.sum - 8 : Rat) ≤
      16 * delta := by
    exact_mod_cast near.2
  refine ⟨?_, ?_, ?_, ?_⟩
  · intro late
    have sum := (meanLead_lt_iff size _).mp late
    omega
  · intro early
    have sum := (lt_meanLead_iff size _).mp early
    omega
  · rw [mean, abs_le]
    unfold SequencerRules.middle
    constructor <;> linarith
  · intro wide
    have step : (rules.minLead.toInt + 1 : Rat) ≤ rules.maxLead.toInt := by
      exact_mod_cast wide
    rw [mean]
    constructor <;> linarith

/-- Every shift queued earlier has had ten ticks to settle. -/
def HaveSettled (earlier : List Observation) (server : Tick) : Prop :=
  ∀ other ∈ earlier, other.queued.isSome = true → other.server.toNat + 10 ≤ server.toNat

theorem haveSettled_append (earlier : List Observation) (observation : Observation) (server : Tick) :
    HaveSettled (earlier ++ [observation]) server ↔ HaveSettled earlier server ∧
      (observation.queued.isSome = true → observation.server.toNat + 10 ≤ server.toNat) := by
  unfold HaveSettled
  rw [List.forall_mem_append, List.forall_mem_singleton]

/-- What an observation has to say behind earlier ones. A message counts when the clocks are not too far
apart and every shift queued before has had its ticks to settle. It has a shift queued when it completes
a block whose mean lies outside the window and not next to its middle; the shift goes the way to the
window, and as near to its middle as a whole number can. -/
structure Obeys (rules : SequencerRules) (earlier : List Observation)
    (observation : Observation) : Prop where
  counted : observation.counted = true ↔
    observation.lead.natAbs ≤ 600 ∧ HaveSettled earlier observation.server
  queued : observation.queued.isSome = true ↔ ∃ block, Decides earlier observation block ∧
    (meanLead block < rules.minLead.toInt ∨ rules.maxLead.toInt < meanLead block) ∧
      1 / 2 ≤ |meanLead block - rules.middle|
  aims : ∀ delta ∈ observation.queued, ∀ block, Decides earlier observation block →
    delta ≠ 0 ∧
      (meanLead block < rules.minLead.toInt → 0 < delta.toInt) ∧
      (rules.maxLead.toInt < meanLead block → delta.toInt < 0) ∧
      |meanLead block + delta.toInt - rules.middle| ≤ 1 / 2 ∧
      (rules.minLead.toInt < rules.maxLead.toInt →
        rules.minLead.toInt ≤ meanLead block + delta.toInt ∧
          meanLead block + delta.toInt ≤ rules.maxLead.toInt)

variable {earlier : List Observation} {observation : Observation} {whole : List Int}

/-- One that leaves no shift has little to say. -/
theorem obeys_of_none (none : observation.queued = none)
    (counted : observation.counted = true ↔
      observation.lead.natAbs ≤ 600 ∧ HaveSettled earlier observation.server)
    (inside : ∀ block, Decides earlier observation block →
      ¬ ((meanLead block < rules.minLead.toInt ∨ rules.maxLead.toInt < meanLead block) ∧
        1 / 2 ≤ |meanLead block - rules.middle|)) :
    observation.Obeys rules earlier where
  counted := counted
  queued := by
    rw [none]
    constructor
    · intro some
      cases some
    · rintro ⟨block, decides, calls⟩
      exact absurd calls (inside block decides)
  aims delta member := by
    rw [none] at member
    cases member

theorem IsLastBlock.eq {counted other : List Int} (isBlock : IsLastBlock counted other)
    (split : counted = whole ++ block) (size : block.length = 8) : other = block := by
  obtain ⟨front, isFront, -, eight⟩ := isBlock
  exact List.append_inj_right' (isFront.symm.trans split) (eight.trans size.symm)

/-- No decision is taken before the block is complete. -/
theorem obeys_of_incomplete (none : observation.queued = none)
    (counted : observation.counted = true ↔
      observation.lead.natAbs ≤ 600 ∧ HaveSettled earlier observation.server)
    (split : countedLeads (earlier ++ [observation]) = whole ++ block) (full : 8 ∣ whole.length)
    (some : 0 < block.length) (few : block.length < 8) : observation.Obeys rules earlier := by
  refine obeys_of_none none counted ?_
  rintro other ⟨-, front, isFront, wholeFront, eight⟩
  have lengths := congrArg List.length (isFront.symm.trans split)
  rw [List.length_append, List.length_append] at lengths
  omega

/-- A complete block that calls for no shift. -/
theorem obeys_of_calm (none : observation.queued = none)
    (counted : observation.counted = true ↔
      observation.lead.natAbs ≤ 600 ∧ HaveSettled earlier observation.server)
    (split : countedLeads (earlier ++ [observation]) = whole ++ block) (size : block.length = 8)
    (calm : ¬ ((block.sum < 8 * rules.minLead.toInt ∨ 8 * rules.maxLead.toInt < block.sum) ∧
      rules.shift block.sum ≠ 0)) : observation.Obeys rules earlier := by
  refine obeys_of_none none counted ?_
  rintro other decides ⟨outside, far⟩
  have same := decides.2.eq split size
  rw [same, meanLead_lt_iff size, lt_meanLead_iff size] at outside
  rw [same] at far
  exact calm ⟨outside, (shift_ne_zero_iff size).mpr far⟩

/-- A complete block that calls for the shift that was queued. -/
theorem obeys_of_shift {delta : Int64} (some : observation.queued = some delta)
    (isCounted : observation.counted = true)
    (counts : observation.lead.natAbs ≤ 600 ∧ HaveSettled earlier observation.server)
    (split : countedLeads (earlier ++ [observation]) = whole ++ block) (full : 8 ∣ whole.length)
    (size : block.length = 8) (isShift : delta.toInt = rules.shift block.sum)
    (outside : block.sum < 8 * rules.minLead.toInt ∨ 8 * rules.maxLead.toInt < block.sum)
    (nonzero : rules.shift block.sum ≠ 0) (ordered : rules.minLead.toInt ≤ rules.maxLead.toInt) :
    observation.Obeys rules earlier where
  counted := ⟨fun _ => counts, fun _ => isCounted⟩
  queued := by
    rw [some]
    refine ⟨fun _ => ⟨block, ⟨isCounted, whole, split, full, size⟩, ?_, ?_⟩, fun _ => rfl⟩
    · rw [meanLead_lt_iff size, lt_meanLead_iff size]
      exact outside
    · exact (shift_ne_zero_iff size).mp nonzero
  aims other member another decides := by
    rw [some] at member
    cases member
    rw [decides.2.eq split size]
    refine ⟨?_, shift_aims size isShift nonzero ordered⟩
    intro zero
    rw [zero] at isShift
    exact nonzero isShift.symm

end Observation

/-- The server's tick at a message. -/
def Call.server? : Call → Option Tick
  | .receive server _ _ | .observe server _ => some server
  | .release _ | .takeAdjustment => none

/-- What holds of every item behind the earlier ones goes on to do so, if it holds of one more. -/
theorem forall_split_concat {α : Type} {holds : List α → α → Prop} {items : List α} {last : α}
    (all : ∀ earlier item later, items = earlier ++ item :: later → holds earlier item)
    (isLast : holds items last) (earlier : List α) (item : α) (later : List α)
    (split : items ++ [last] = earlier ++ item :: later) : holds earlier item := by
  rcases List.eq_nil_or_concat later with rfl | ⟨between, final, rfl⟩
  · obtain ⟨rfl, same⟩ := List.append_inj' split rfl
    exact List.singleton_inj.mp same ▸ isLast
  · rw [List.concat_eq_append, ← List.cons_append, ← List.append_assoc] at split
    exact all earlier item between (List.append_inj' split rfl).1

/-- What is seen of a message does not depend on the inputs held. -/
theorem Matches.between_eq {before after sampled : Sequencer} (isSampled : after.Matches sampled)
    (server client : Tick) :
    Observation.between server client before after = .between server client before sampled := by
  unfold Observation.between
  rw [isSampled.sampleCount, isSampled.adjustment, isSampled.adjustments]

/-- A sequencer, with an observation of every message that came in. -/
structure Watch where
  sequencer : Sequencer
  observations : List Observation

namespace Watch

open Observation

def start (rules : SequencerRules) : Watch := ⟨.ofRules rules, []⟩

/-- Takes the observation of a message that left the sequencer as it now is. -/
def read (watch : Watch) (server client : Tick) (sequencer : Sequencer) : Watch :=
  ⟨sequencer, watch.observations ++ [.between server client watch.sequencer sequencer]⟩

/-- A message beyond the desynchronisation limit leaves everything as it is. -/
def call (watch : Watch) : Call → Watch
  | .receive server tick keys =>
    match watch.sequencer.receive server tick keys with
    | .error _ => watch.read server tick watch.sequencer
    | .ok (_, sequencer) => watch.read server tick sequencer
  | .observe server client =>
    match watch.sequencer.observe server client with
    | .error _ => watch.read server client watch.sequencer
    | .ok sequencer => watch.read server client sequencer
  | .release tick => { watch with sequencer := (watch.sequencer.release tick).2 }
  | .takeAdjustment => { watch with sequencer := watch.sequencer.takeAdjustment.2 }

def run (rules : SequencerRules) (calls : List Call) : Watch := calls.foldl call (start rules)

variable {rules : SequencerRules} {watch : Watch} {whole block : List Int}

/-- A message whose lead is sampled does not count, or its lead is the last of the block. Where that
completes the block, the shift is the one that the sum of the block calls for. -/
theorem sample_observed (isBlock : watch.sequencer.rules.minFreshSamples = 8)
    (split : countedLeads watch.observations = whole ++ block) (full : 8 ∣ whole.length)
    (few : block.length < 8) (gathers : watch.sequencer.Gathers block) {server client : Tick}
    {ahead : Int64} (distance : ahead.toInt = client.toNat - server.toNat)
    (near : -600 ≤ ahead.toInt ∧ ahead.toInt ≤ 600) :
    (server < watch.sequencer.settleUntil ∧
        watch.sequencer.sample server ahead = watch.sequencer) ∨
    watch.sequencer.settleUntil ≤ server ∧ ∃ queued,
      Observation.between server client watch.sequencer (watch.sequencer.sample server ahead) =
        ⟨server, client, true, queued⟩ ∧
      countedLeads (watch.observations ++ [⟨server, client, true, queued⟩]) =
        whole ++ (block ++ [ahead.toInt]) ∧
      ((queued = none ∧ block.length < 7 ∧
          (watch.sequencer.sample server ahead).Gathers (block ++ [ahead.toInt]) ∧
          watch.sequencer.IsUnmoved (watch.sequencer.sample server ahead)) ∨
        block.length = 7 ∧ 8 ∣ (whole ++ (block ++ [ahead.toInt])).length ∧
          (watch.sequencer.sample server ahead).Gathers [] ∧
          correction? watch.sequencer.rules (watch.sequencer.sampleSum + ahead) 8 = queued ∧
          (queued = none → watch.sequencer.IsUnmoved (watch.sequencer.sample server ahead)) ∧
          ∀ delta, queued = some delta →
            watch.sequencer.Queues server delta (watch.sequencer.sample server ahead)) := by
  refine (sample_eight isBlock gathers few server near).imp_right (And.imp_right ?_)
  have more : ∀ queued, countedLeads (watch.observations ++ [⟨server, client, true, queued⟩]) =
      whole ++ (block ++ [ahead.toInt]) := by
    intro queued
    have isLead : Observation.lead ⟨server, client, true, queued⟩ = ahead.toInt := distance.symm
    rw [countedLeads_append, countedLeads_singleton, if_pos rfl, isLead, split, List.append_assoc]
  have length : (block ++ [ahead.toInt]).length = block.length + 1 := by
    rw [List.length_append, List.length_singleton]
  rintro (⟨fewer, grown, unmoved⟩ | ⟨last, emptied, calm, calls⟩)
  · have moved : ((watch.sequencer.sample server ahead).sampleCount !=
        watch.sequencer.sampleCount) = true := by
      rw [grown.counted, gathers.counted, length]
      simp
    refine ⟨none, ?_, more none, Or.inl ⟨rfl, fewer, grown, unmoved⟩⟩
    rw [between_of_isUnmoved unmoved, moved]
  · have moved : ((watch.sequencer.sample server ahead).sampleCount !=
        watch.sequencer.sampleCount) = true := by
      rw [emptied.counted, gathers.counted, last]
      rfl
    have wholeAgain : 8 ∣ (whole ++ (block ++ [ahead.toInt])).length := by
      rw [List.length_append, length, last]
      exact Nat.dvd_add full (Nat.dvd_refl 8)
    refine ⟨_, ?_, more _, Or.inr ⟨last, wholeAgain, emptied, rfl, calm, calls⟩⟩
    cases decided : correction? watch.sequencer.rules (watch.sequencer.sampleSum + ahead) 8 with
    | none => rw [between_of_isUnmoved (calm decided), moved]
    | some delta => rw [between_of_queues (calls delta decided), moved]

/-- The samples that wait for their block to be complete are the last that counted; samples count from
ten ticks after the shift queued last; and every observation says what it has to. -/
structure IsKept (rules : SequencerRules) (watch : Watch) : Prop where
  ruled : watch.sequencer.rules = rules
  gathers : ∃ whole block, countedLeads watch.observations = whole ++ block ∧ 8 ∣ whole.length ∧
    block.length < 8 ∧ watch.sequencer.Gathers block
  settles : ∀ server : Tick, watch.sequencer.settleUntil ≤ server ↔
    HaveSettled watch.observations server
  obeys : ∀ earlier observation later, watch.observations = earlier ++ observation :: later →
    observation.Obeys rules earlier

theorem start_isKept (rules : SequencerRules) : (start rules).IsKept rules where
  ruled := rfl
  gathers := ⟨[], [], rfl, Nat.dvd_zero 8, by decide,
    fun lead member => absurd member List.not_mem_nil, rfl, rfl⟩
  settles server := by simp [start, ofRules, HaveSettled]
  obeys earlier observation later split := by simp [start] at split

/-- The inputs held, the counts of them, and a shift that is taken are of no account. -/
theorem IsKept.of_same (kept : watch.IsKept rules) {sequencer : Sequencer}
    (ruled : sequencer.rules = watch.sequencer.rules)
    (sum : sequencer.sampleSum = watch.sequencer.sampleSum)
    (count : sequencer.sampleCount = watch.sequencer.sampleCount)
    (settles : sequencer.settleUntil = watch.sequencer.settleUntil) :
    ({ watch with sequencer } : Watch).IsKept rules := by
  obtain ⟨whole, block, split, full, few, near, counted, summed⟩ := kept.gathers
  refine ⟨ruled.trans kept.ruled, ⟨whole, block, split, full, few, near, count.trans counted, ?_⟩, ?_,
    kept.obeys⟩
  · rw [sum]
    exact summed
  · rw [settles]
    exact kept.settles

/-- What is to be shown of one more observation. -/
theorem IsKept.append (kept : watch.IsKept rules) {sequencer : Sequencer} {observation : Observation}
    (ruled : sequencer.rules = rules) (obeys : observation.Obeys rules watch.observations)
    (gathers : ∃ whole block, countedLeads (watch.observations ++ [observation]) = whole ++ block ∧
      8 ∣ whole.length ∧ block.length < 8 ∧ sequencer.Gathers block)
    (settles : ∀ server : Tick, sequencer.settleUntil ≤ server ↔
      HaveSettled (watch.observations ++ [observation]) server) :
    IsKept rules ⟨sequencer, watch.observations ++ [observation]⟩ where
  ruled := ruled
  gathers := gathers
  settles := settles
  obeys := forall_split_concat kept.obeys obeys

/-- A message that does not count, because the clocks are too far apart or a shift settles. -/
theorem IsKept.leaveOut (kept : watch.IsKept rules) (server client : Tick)
    (left : 600 < ((client.toNat : Int) - server.toNat).natAbs ∨
      server < watch.sequencer.settleUntil) :
    (watch.read server client watch.sequencer).IsKept rules := by
  have isObservation : Observation.between server client watch.sequencer watch.sequencer =
      ⟨server, client, false, none⟩ := by
    rw [between_of_isUnmoved ⟨rfl, rfl, rfl⟩, bne_self_eq_false]
  unfold read
  rw [isObservation]
  refine kept.append kept.ruled (obeys_of_none rfl ?_ ?_) ?_ ?_
  · constructor
    · intro impossible
      cases impossible
    · rintro ⟨near, settled⟩
      have waits := (kept.settles server).mpr settled
      rcases left with far | settles
      · exact absurd near (Nat.not_le.mpr far)
      · exact absurd waits (UInt64.not_le.mpr settles)
  · intro block decides
    cases decides.1
  · rw [countedLeads_append, countedLeads_singleton, if_neg Bool.false_ne_true, List.append_nil]
    exact kept.gathers
  · intro later
    rw [kept.settles later, haveSettled_append]
    simp

/-- A message that counts. -/
theorem IsKept.sample (kept : watch.IsKept rules) (usual : rules.IsUsual) {server client : Tick}
    {ahead : Int64} (near : lead rules server client = .ok ahead)
    (early : server.toNat < 9223372036854775808) :
    (watch.read server client (watch.sequencer.sample server ahead)).IsKept rules := by
  obtain ⟨distance, within⟩ := toInt_lead near (by rw [usual.limit]; decide)
  have limit : rules.desyncLimit.toNat = 600 := by
    rw [usual.limit]
    rfl
  rw [limit] at within
  have bounds : -600 ≤ ahead.toInt ∧ ahead.toInt ≤ 600 := by omega
  obtain ⟨whole, block, split, full, few, gathers⟩ := kept.gathers
  obtain ⟨-, sum, small⟩ := gathers.toInt_add few bounds
  rcases sample_observed (kept.ruled ▸ usual.block) split full few gathers distance bounds with
    ⟨settles, same⟩ | ⟨settles, queued, isObservation, more, joins⟩
  · rw [same]
    exact kept.leaveOut server client (Or.inr settles)
  have settled := (kept.settles server).mp settles
  have counts : (Observation.lead ⟨server, client, true, queued⟩).natAbs ≤ 600 ∧
      HaveSettled watch.observations server := by
    rw [distance] at within
    exact ⟨within, settled⟩
  have length : (block ++ [ahead.toInt]).length = block.length + 1 := by
    rw [List.length_append, List.length_singleton]
  have ruled := (rules_sample watch.sequencer server ahead).trans kept.ruled
  unfold read
  rw [isObservation]
  rcases joins with ⟨rfl, fewer, grown, unmoved⟩ | ⟨last, wholeAgain, emptied, decided, calm, calls⟩
  · refine kept.append ruled (obeys_of_incomplete rfl ⟨fun _ => counts, fun _ => rfl⟩ more full
      (by omega) (by omega)) ⟨whole, _, more, full, by omega, grown⟩ ?_
    intro later
    rw [unmoved.settleUntil, kept.settles later, haveSettled_append]
    simp
  have size : (block ++ [ahead.toInt]).length = 8 := by omega
  have gathersNone : countedLeads (watch.observations ++ [⟨server, client, true, queued⟩]) =
      (whole ++ (block ++ [ahead.toInt])) ++ [] := by
    rw [more, List.append_nil]
  rw [kept.ruled, correction?_eight usual small, sum] at decided
  split at decided
  · rename_i outside
    subst decided
    have queues := calls _ rfl
    refine kept.append ruled (obeys_of_shift rfl rfl counts more full size ?_ outside.1 outside.2
      usual.ordered) ⟨_, [], gathersNone, wholeAgain, by decide, emptied⟩ ?_
    · exact toInt_shift usual (by omega)
    · intro later
      have ten : (10 : UInt64).toNat = 10 := rfl
      have settling : (server + 10).toNat = server.toNat + 10 := by
        rw [UInt64.toNat_add, ten]
        exact Nat.mod_eq_of_lt (by omega)
      rw [queues.settleUntil, kept.ruled, usual.settle, UInt64.le_iff_toNat_le, settling,
        haveSettled_append]
      refine ⟨fun after => ⟨?_, fun _ => after⟩, fun both => both.2 rfl⟩
      -- all other shifts were queued ten ticks before this one
      intro other member queued
      have before := settled other member queued
      omega
  · rename_i inside
    subst decided
    refine kept.append ruled (obeys_of_calm rfl ⟨fun _ => counts, fun _ => rfl⟩ more size inside)
      ⟨_, [], gathersNone, wholeAgain, by decide, emptied⟩ ?_
    intro later
    rw [(calm rfl).settleUntil, kept.settles later, haveSettled_append]
    simp

theorem IsKept.giveUp (kept : watch.IsKept rules) (usual : rules.IsUsual) {server client : Tick}
    {fault : Desync} (gaveUp : lead watch.sequencer.rules server client = .error fault) :
    (watch.read server client watch.sequencer).IsKept rules := by
  have far := lt_of_lead_error gaveUp
  rw [kept.ruled, usual.limit] at far
  exact kept.leaveOut server client (Or.inl far)

/-- Whether an input is admitted is of no account to the observation. -/
theorem IsKept.hear (kept : watch.IsKept rules) (usual : rules.IsUsual) {server client : Tick}
    {ahead : Int64} {sequencer : Sequencer}
    (near : lead watch.sequencer.rules server client = .ok ahead)
    (isSampled : sequencer.Matches (watch.sequencer.sample server ahead))
    (early : server.toNat < 9223372036854775808) :
    (watch.read server client sequencer).IsKept rules := by
  have sampled := kept.sample usual (kept.ruled ▸ near) early
  unfold read at sampled ⊢
  rw [isSampled.between_eq]
  exact sampled.of_same isSampled.rules isSampled.sampleSum isSampled.sampleCount
    isSampled.settleUntil

theorem IsKept.call (kept : watch.IsKept rules) (usual : rules.IsUsual) {call : Call}
    (early : ∀ server ∈ call.server?, server.toNat < 9223372036854775808) :
    (watch.call call).IsKept rules := by
  cases call with
  | receive server tick keys =>
      unfold Watch.call
      dsimp only
      split
      · rename_i failed
        exact kept.giveUp usual (lead_of_receive_error failed)
      · rename_i success
        obtain ⟨ahead, near, isSampled⟩ := receive_matches success
        exact kept.hear usual near isSampled (early server rfl)
  | observe server client =>
      unfold Watch.call
      dsimp only
      split
      · rename_i failed
        exact kept.giveUp usual (lead_of_observe_error failed)
      · rename_i success
        obtain ⟨ahead, near, isSampled⟩ := observe_matches success
        exact kept.hear usual near isSampled (early server rfl)
  | release tick => exact kept.of_same rfl rfl rfl rfl
  | takeAdjustment => exact kept.of_same rfl rfl rfl rfl

theorem run_isKept (usual : rules.IsUsual) (calls : List Call)
    (early : ∀ server ∈ calls.filterMap Call.server?, server.toNat < 9223372036854775808) :
    (run rules calls).IsKept rules := by
  induction calls using List.reverseRecOn with
  | nil => exact start_isKept rules
  | append_singleton calls call ih =>
      have before := ih fun server member => early server (by
        rw [List.filterMap_append]
        exact List.mem_append_left _ member)
      unfold run
      rw [List.foldl_append]
      refine before.call usual fun server isServer => early server ?_
      rw [List.filterMap_append]
      exact List.mem_append_right _ (List.mem_filterMap.mpr ⟨call, List.mem_singleton_self call,
        isServer⟩)

/-- In every run under a usual window, while the server counts fewer than 2⁶³ ticks, every observation
says what it has to behind the earlier ones: which messages count, when a shift is queued, and what it
aims for. Shifts are queued ten ticks of the server apart at least, and two decisions are taken on samples
of their own, those of the later one having all come in behind the earlier decision. -/
theorem run_decides_by_blocks (rules : SequencerRules) (usual : rules.IsUsual) (calls : List Call)
    (early : ∀ server ∈ calls.filterMap Call.server?, server.toNat < 9223372036854775808)
    (earlier later : List Observation) (observation : Observation)
    (split : (run rules calls).observations = earlier ++ observation :: later) :
    observation.Obeys rules earlier ∧
    ∀ before other between, earlier = before ++ other :: between →
      (other.queued.isSome = true → observation.queued.isSome = true →
        other.server.toNat + 10 ≤ observation.server.toNat) ∧
      ∀ first second, Decides before other first → Decides earlier observation second →
        second <:+ countedLeads (between ++ [observation]) := by
  have obeys := (run_isKept usual calls early).obeys earlier observation later split
  refine ⟨obeys, ?_⟩
  rintro before other between rfl
  refine ⟨?_, fun first second => Decides.isSuffix⟩
  intro otherQueued queued
  obtain ⟨block, decides, -⟩ := obeys.queued.mp queued
  exact (obeys.counted.mp decides.1).2 other (by simp) otherQueued

/-- Eight signs of life ten ticks ahead, one nine ticks later, and one ten ticks later. -/
def earlyClient : List Call :=
  List.replicate 8 (.observe 100 110) ++ [.observe 109 110, .observe 110 112]

/-- The eighth has a shift queued, and the ninth does not count. -/
def earlyObservations : List Observation :=
  List.replicate 7 ⟨100, 110, true, none⟩ ++
    [⟨100, 110, true, some (-8)⟩, ⟨109, 110, false, none⟩]

theorem shift_settles_for_ten_ticks :
    (∀ server ∈ earlyClient.filterMap Call.server?, server.toNat < 9223372036854775808) ∧
    (run .standard earlyClient).observations = earlyObservations ++ [⟨110, 112, true, none⟩] ∧
    Obeys .standard earlyObservations ⟨110, 112, true, none⟩ := by
  have all : (earlyClient.filterMap Call.server?).all
      (fun server => server.toNat < 9223372036854775808) = true := by decide +kernel
  have early : ∀ server ∈ earlyClient.filterMap Call.server?,
      server.toNat < 9223372036854775808 := fun server member =>
    of_decide_eq_true (List.all_eq_true.mp all server member)
  have observations : (run .standard earlyClient).observations =
      earlyObservations ++ [⟨110, 112, true, none⟩] := by decide +kernel
  exact ⟨early, observations, (run_decides_by_blocks .standard SequencerRules.standard_isUsual
    earlyClient early earlyObservations [] ⟨110, 112, true, none⟩ observations).1⟩

end Watch

end Sequencer

end Overworld
