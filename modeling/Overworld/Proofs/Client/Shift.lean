import Overworld.Client.Player
import Overworld.Proofs.Sequencer.Drift

set_option autoImplicit false

/-!
Shifts between the two ends. The server asks for whatever brings the mean lead of a client back to the
middle of its window. The client believes 120 ticks at most, and leaves over a greater shift.
-/

namespace Overworld

/-- A clock that runs believes a shift within its limit, and stays as it is otherwise. -/
theorem Clock.adjust_of_synced {clock : Clock} (rules : clock.rules = .standard)
    (synced : clock.isSynced = true) (delta : Int64) :
    clock.adjust delta =
      if delta.toInt.natAbs ≤ 120 then
        .ok { clock with
          tick := Tick.shiftSaturating clock.tick delta
          adjustments := clock.adjustments + 1 }
      else .error (.excessive delta 120) := by
  have limit : ClockRules.standard.maxAdjustment.toNat = 120 := rfl
  unfold adjust
  rw [synced, rules, limit]
  by_cases small : delta.toInt.natAbs ≤ 120
  · rw [if_pos small]
    exact (if_neg Bool.false_ne_true).trans (if_neg (Nat.not_lt.mpr small))
  · rw [if_neg small]
    exact (if_neg Bool.false_ne_true).trans (if_pos (Nat.lt_of_not_le small))

/-- A client whose clock refuses a shift is at fault with the server, and says that it leaves. -/
theorem Player.handle_of_refused {player : Player} {delta : Int64} {error : ClockError}
    (refused : player.clock.adjust delta = .error error) :
    player.handle (.tickAdjustment delta) =
      (some (.clock error),
        { player with state := .faulted error, outbox := player.outbox.push .disconnect }) := by
  change player.adjust delta = _
  unfold adjust
  rw [refused]
  rfl

namespace Sequencer

namespace Survey

/-- In the standard window the shift that a block calls for lies within the limit of a client exactly
while the mean lead lies between -118.5 and 122.5. -/
theorem natAbs_shift_standard (sum : Int) :
    (SequencerRules.standard.shift sum).natAbs ≤ 120 ↔ -948 < sum ∧ sum < 980 := by
  unfold SequencerRules.shift IntRounding.quotient
  have middle : 4 * (SequencerRules.standard.minLead.toInt +
    SequencerRules.standard.maxLead.toInt) = 16 := by decide
  rw [middle]
  dsimp only
  split <;> omega

/-- Every shift that a standard sequencer hands over, in whatever run, brings the mean lead of a block
of eight messages back to two ticks, as nearly as a whole number can. It is no more than 598 ticks back
and 602 ahead. A client follows it when it is one of at most 120 ticks, as it is while no lead of the
block is off by more than 120, and else leaves over it with its clock untouched. -/
theorem run_shifts_followed (calls : List Call) (delta : Int64)
    (handed : delta ∈ (run .standard calls).handed) :
    ∃ block, IsBlock (run .standard calls).counted block ∧
      delta.toInt = IntRounding.nearestAway.quotient (16 - block.sum) 8 ∧
      (delta ≠ 0 ∧ -598 ≤ delta.toInt ∧ delta.toInt ≤ 602) ∧
      (delta.toInt.natAbs ≤ 120 ↔ -948 < block.sum ∧ block.sum < 980) ∧
      ((∀ lead ∈ block, -118 ≤ lead ∧ lead ≤ 122) → delta.toInt.natAbs ≤ 120) ∧
      (∀ clock : Clock, clock.rules = .standard → clock.isSynced = true →
        clock.adjust delta =
          if delta.toInt.natAbs ≤ 120 then
            .ok { clock with
              tick := Tick.shiftSaturating clock.tick delta
              adjustments := clock.adjustments + 1 }
          else .error (.excessive delta 120)) ∧
      ∀ player : Player, player.clock.rules = .standard → player.clock.isSynced = true →
        120 < delta.toInt.natAbs →
          player.handle (.tickAdjustment delta) =
            (some (.clock (.excessive delta 120)),
              { player with
                state := .faulted (.excessive delta 120)
                outbox := player.outbox.push .disconnect }) := by
  have faithful := run_isFaithful SequencerRules.standard_isUsual calls
  obtain ⟨block, isBlock, -, nonzero, isShift⟩ := faithful.handed delta handed
  have size := isBlock.choose_spec.choose_spec.2.2
  have near := shift_near .standard block.sum
  have bounds := natAbs_shift_standard block.sum
  rw [← isShift] at near bounds nonzero
  have least : SequencerRules.standard.minLead.toInt = 1 := rfl
  have most : SequencerRules.standard.maxLead.toInt = 3 := rfl
  rw [least, most] at near
  refine ⟨block, isBlock, isShift, ⟨?_, ?_⟩, bounds, ?_, ?_, ?_⟩
  · rintro rfl
    exact nonzero rfl
  · have sum := @sum_between block _ _ fun lead member => faithful.near lead <| by
      obtain ⟨earlier, later, split, -, -⟩ := isBlock
      rw [split]
      exact List.mem_append_left _ (List.mem_append_right _ member)
    rw [size] at sum
    omega
  · intro little
    have sum := sum_between little
    rw [size] at sum
    exact bounds.mpr (by omega)
  · exact fun clock rules synced => Clock.adjust_of_synced rules synced delta
  · intro player rules synced great
    refine Player.handle_of_refused ?_
    rw [Clock.adjust_of_synced rules synced, if_neg (Nat.not_le.mpr great)]

/-- Signs of life with these ticks, all at one tick of the server, and the shift they call for. -/
def heartbeats (server : Tick) (clients : List Tick) : List Call :=
  clients.map (.observe server) ++ [.takeAdjustment]

/-- Eight signs of life that are ten ticks ahead bring a clock eight ticks back. -/
theorem early_client_is_brought_back :
    (run .standard (heartbeats 100 (List.replicate 8 110))).handed = [-8] ∧
      ((Clock.ofRules .standard).synchronize 108).adjust (-8) =
        .ok { (Clock.ofRules .standard).synchronize 100 with adjustments := 1 } := by
  have handed : (run .standard (heartbeats 100 (List.replicate 8 110))).handed = [-8] := by
    decide +kernel
  refine ⟨handed, ?_⟩
  obtain ⟨-, -, -, -, -, -, clocks, -⟩ := run_shifts_followed
    (heartbeats 100 (List.replicate 8 110)) (-8) (handed ▸ List.mem_singleton_self _)
  rw [clocks _ rfl rfl]
  rfl

/-- A client that made no step while the server made two hundred is told to go 197 ticks ahead once it
has spoken eight times, and leaves. -/
theorem late_client_leaves :
    (run .standard (heartbeats 201 [3, 4, 5, 6, 7, 8, 9, 10])).handed = [197] ∧
      ((Player.ofRules .standard).welcome 0 ⟨0, 0⟩ .zero).clock.adjust 197 =
        .error (.excessive 197 120) ∧
      (((Player.ofRules .standard).welcome 0 ⟨0, 0⟩ .zero).handle (.tickAdjustment 197)).2.state =
        .faulted (.excessive 197 120) := by
  have refused : ((Player.ofRules .standard).welcome 0 ⟨0, 0⟩ .zero).clock.adjust 197 =
      .error (.excessive 197 120) := rfl
  refine ⟨by decide +kernel, refused, ?_⟩
  rw [Player.handle_of_refused refused]

end Survey

end Sequencer

end Overworld
