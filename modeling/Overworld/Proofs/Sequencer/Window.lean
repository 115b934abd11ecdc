import Mathlib.Data.List.Perm.Subperm
import Overworld.Proofs.Motion.History
import Overworld.Proofs.Sequencer.Basic

set_option autoImplicit false

/-!
The window of a sequencer: what it accepts leads the server's clock by as much as its rules ask for,
and nothing that it does changes those rules. So while the clock goes on by one tick after the other,
and inputs are released as their ticks come, all that is held lies within the window; it is no more
than the window has ticks.
-/

namespace Overworld

namespace Sequencer

variable {sequencer next : Sequencer} {server tick : Tick} {keys : Keys}

theorem rules_sample (sequencer : Sequencer) (server : Tick) (lead : Int64) :
    (sequencer.sample server lead).rules = sequencer.rules := by
  unfold sample
  split
  · rfl
  · dsimp only
    split
    · rfl
    · split <;> rfl

theorem rules_receive {admission : Admission}
    (success : sequencer.receive server tick keys = .ok (admission, next)) :
    next.rules = sequencer.rules := by
  unfold receive at success
  split at success
  · cases success
  · dsimp only at success
    split at success <;>
    · cases success
      exact rules_sample _ _ _

theorem rules_observe (success : sequencer.observe server tick = .ok next) :
    next.rules = sequencer.rules := by
  unfold observe at success
  split at success
  · cases success
  · cases success
    exact rules_sample _ _ _

/-- Within a limit that is no larger than a lead can be, the lead is the distance of the clocks. -/
theorem toInt_lead {rules : SequencerRules} {ahead : Int64}
    (near : lead rules server tick = .ok ahead)
    (small : rules.desyncLimit.toNat < 9223372036854775808) :
    ahead.toInt = tick.toNat - server.toNat ∧ ahead.toInt.natAbs ≤ rules.desyncLimit.toNat := by
  unfold lead at near
  dsimp only at near
  split at near
  · cases near
  · rename_i within
    cases near
    have exact : (Int64.ofInt (tick.toNat - server.toNat)).toInt = tick.toNat - server.toNat :=
      Int64.toInt_ofInt_of_le (by omega) (by omega)
    rw [exact]
    exact ⟨rfl, Nat.le_of_not_lt within⟩

/-- Clocks that are given up on are further apart than the limit. -/
theorem lt_of_lead_error {rules : SequencerRules} {fault : Desync}
    (gaveUp : lead rules server tick = .error fault) :
    rules.desyncLimit.toNat < ((tick.toNat : Int) - server.toNat).natAbs := by
  unfold lead at gaveUp
  dsimp only at gaveUp
  split at gaveUp
  · assumption
  · cases gaveUp

theorem lead_of_accepted
    (accepted : sequencer.receive server tick keys = .ok (.accepted, next)) :
    ∃ ahead, lead sequencer.rules server tick = .ok ahead ∧ sequencer.rules.minLead ≤ ahead ∧
      ahead ≤ sequencer.rules.maxLead := by
  unfold receive at accepted
  split at accepted
  · cases accepted
  · rename_i ahead near
    dsimp only at accepted
    split at accepted
    · rename_i within
      unfold admission at within
      rw [rules_sample] at within
      split at within
      · cases within
      · rename_i least
        split at within
        · cases within
        · rename_i greatest
          exact ⟨ahead, near, Int64.not_lt.mp least, Int64.not_lt.mp greatest⟩
    · rename_i reason dropped
      rw [dropped] at accepted
      cases accepted

/-- Where no input may be behind, an accepted one is not. Where it has to be ahead, it is. -/
theorem le_of_accepted (accepted : sequencer.receive server tick keys = .ok (.accepted, next))
    (small : sequencer.rules.desyncLimit.toNat < 9223372036854775808)
    (least : 0 ≤ sequencer.rules.minLead) :
    server ≤ tick ∧ (0 < sequencer.rules.minLead → server < tick) := by
  obtain ⟨ahead, near, enough, -⟩ := lead_of_accepted accepted
  obtain ⟨distance, -⟩ := toInt_lead near small
  rw [Int64.le_iff_toInt_le] at enough least
  have zero : (0 : Int64).toInt = 0 := rfl
  refine ⟨UInt64.le_iff_toNat_le.mpr (by omega), fun positive => UInt64.lt_iff_toNat_lt.mpr ?_⟩
  rw [Int64.lt_iff_toInt_lt] at positive
  omega

/-- An accepted input is no further ahead than the rules allow. -/
theorem le_add_of_accepted (accepted : sequencer.receive server tick keys = .ok (.accepted, next))
    (small : sequencer.rules.desyncLimit.toNat < 9223372036854775808) :
    (tick.toNat : Int) ≤ server.toNat + sequencer.rules.maxLead.toInt := by
  obtain ⟨ahead, near, -, enough⟩ := lead_of_accepted accepted
  obtain ⟨distance, -⟩ := toInt_lead near small
  rw [Int64.le_iff_toInt_le] at enough
  omega

/-- Inputs are held for the tick that was completed last and the ticks after it, as far as the greatest
lead reaches. Where inputs have to be ahead, none is held for the tick itself. -/
structure IsWithin (sequencer : Sequencer) (rules : SequencerRules) (completed : Tick) : Prop where
  rules_eq : sequencer.rules = rules
  ascending : sequencer.pending.Pairwise fun earlier later => earlier.1 < later.1
  least : ∀ entry ∈ sequencer.pending, completed ≤ entry.1
  ahead : 0 < rules.minLead → ∀ entry ∈ sequencer.pending, completed < entry.1
  greatest : ∀ entry ∈ sequencer.pending,
    (entry.1.toNat : Int) ≤ completed.toNat + rules.maxLead.toInt

variable {rules : SequencerRules} {completed : Tick}

theorem isWithin_ofRules (rules : SequencerRules) (completed : Tick) :
    (ofRules rules).IsWithin rules completed where
  rules_eq := rfl
  ascending := .nil
  least _ none := nomatch none
  ahead _ _ none := nomatch none
  greatest _ none := nomatch none

theorem IsWithin.of_same (within : sequencer.IsWithin rules completed)
    (same : next.rules = sequencer.rules) (pending : next.pending = sequencer.pending) :
    next.IsWithin rules completed where
  rules_eq := same.trans within.rules_eq
  ascending := pending ▸ within.ascending
  least := pending ▸ within.least
  ahead := pending ▸ within.ahead
  greatest := pending ▸ within.greatest

theorem IsWithin.observe (within : sequencer.IsWithin rules completed)
    (success : sequencer.observe server tick = .ok next) : next.IsWithin rules completed :=
  within.of_same (rules_observe success) (observe_pending success)

theorem IsWithin.takeAdjustment (within : sequencer.IsWithin rules completed) :
    sequencer.takeAdjustment.2.IsWithin rules completed :=
  within.of_same rfl rfl

/-- An input that comes in while the clock stands is held only if it belongs into the window. -/
theorem IsWithin.receive (within : sequencer.IsWithin rules completed)
    (small : rules.desyncLimit.toNat < 9223372036854775808) (least : 0 ≤ rules.minLead)
    {admission : Admission}
    (success : sequencer.receive completed tick keys = .ok (admission, next)) :
    next.IsWithin rules completed := by
  have same := within.rules_eq
  obtain ⟨-, ⟨rfl, free, pending⟩ | ⟨-, pending⟩⟩ := receive_cases success
  · rw [← same] at small least
    obtain ⟨order, ahead⟩ := le_of_accepted success small least
    have enough := le_add_of_accepted success small
    rw [same] at ahead enough
    refine ⟨(rules_receive success).trans same, ?_, ?_, ?_, ?_⟩ <;> rw [pending]
    · exact insertPending_ascending within.ascending (isTaken_eq_false.mp free).1
    · intro entry member
      rcases mem_insertPending.mp member with rfl | held
      · exact order
      · exact within.least entry held
    · intro positive entry member
      rcases mem_insertPending.mp member with rfl | held
      · exact ahead positive
      · exact within.ahead positive entry held
    · intro entry member
      rcases mem_insertPending.mp member with rfl | held
      · exact enough
      · exact within.greatest entry held
  · exact within.of_same (rules_receive success) pending

/-- Whatever is released, the rest is within the window as before. -/
theorem IsWithin.release (within : sequencer.IsWithin rules completed) (tick : Tick) :
    (sequencer.release tick).2.IsWithin rules completed where
  rules_eq := within.rules_eq
  ascending := within.ascending.filter _
  least entry held := within.least entry (List.mem_of_mem_filter held)
  ahead positive entry held := within.ahead positive entry (List.mem_of_mem_filter held)
  greatest entry held := within.greatest entry (List.mem_of_mem_filter held)

/-- Once the inputs of the next tick are released, what is left is for ticks after it. The clock may
start over only where inputs have to be ahead, for then nothing is held at its last tick. -/
theorem IsWithin.release_next (within : sequencer.IsWithin rules completed)
    (goesOn : 0 < rules.minLead ∨ completed ≠ Tick.last) :
    (sequencer.release (completed + 1)).2.IsWithin rules (completed + 1) := by
  have after : ∀ entry ∈ (sequencer.release (completed + 1)).2.pending,
      completed + 1 < entry.1 := fun entry held => by simpa using (List.mem_filter.mp held).2
  refine ⟨within.rules_eq, within.ascending.filter _,
    fun entry held => UInt64.le_of_lt (after entry held), fun _ => after, fun entry held => ?_⟩
  have known := List.mem_of_mem_filter held
  have enough := within.greatest entry known
  have next : (completed + 1).toNat = completed.toNat + 1 := by
    refine Tick.toNat_add_of_lt completed 1 ?_
    have room := completed.toNat_lt
    have small : completed.toNat ≠ 18446744073709551615 := by
      intro isLast
      rcases goesOn with positive | isEarlier
      · have beyond := UInt64.lt_iff_toNat_lt.mp (within.ahead positive entry known)
        have bound := entry.1.toNat_lt
        omega
      · exact isEarlier (UInt64.toNat_inj.mp isLast)
    rw [UInt64.toNat_one]
    omega
  omega

/-- Inputs are held for different ticks, so no more of them than there are ticks in the window. -/
theorem IsWithin.length_le (within : sequencer.IsWithin rules completed)
    (most : 0 ≤ rules.maxLead) : (sequencer.pending.length : Int) ≤ rules.maxLead.toInt + 1 := by
  obtain ⟨width, isWidth⟩ := Int.eq_ofNat_of_zero_le (Int64.le_iff_toInt_le.mp most)
  have distinct : (sequencer.pending.map (·.1.toNat)).Nodup :=
    List.pairwise_map.mpr (within.ascending.imp fun before =>
      Nat.ne_of_lt (UInt64.lt_iff_toNat_lt.mp before))
  have inside : sequencer.pending.map (·.1.toNat) ⊆
      List.range' completed.toNat (width + 1) := by
    intro number member
    obtain ⟨entry, held, rfl⟩ := List.mem_map.mp member
    have least := UInt64.le_iff_toNat_le.mp (within.least entry held)
    have greatest := within.greatest entry held
    rw [List.mem_range'_1]
    omega
  have count := (List.subperm_of_subset distinct inside).length_le
  rw [List.length_map, List.length_range'] at count
  omega

end Sequencer

end Overworld
