import Overworld.Proofs.Sequencer.Basic

set_option autoImplicit false

/-!
The sequencer of a client whose clock is ahead of the server's by two ticks all the time. It accepts
every input, hands each over at its tick and never asks for a shift.
-/

namespace Overworld

namespace Sequencer

/-- Nothing was dropped, every sample showed a lead of two, and `pending` is held. -/
structure IsCalm (sequencer : Sequencer) (tick : Tick) (pending : List (Tick × Keys)) : Prop where
  rules : sequencer.rules = .standard
  holds : sequencer.pending = pending
  released : ∀ last ∈ sequencer.lastReleased, last ≤ tick
  unsettled : sequencer.settleUntil = 0
  counted : sequencer.sampleCount < 8
  summed : sequencer.sampleSum = Int64.ofNat (2 * sequencer.sampleCount)
  content : sequencer.adjustment = none
  kept : sequencer.stats.late = 0 ∧ sequencer.stats.early = 0 ∧ sequencer.stats.duplicate = 0
  unshifted : sequencer.stats.adjustments = 0

variable {sequencer : Sequencer} {tick : Tick} {pending : List (Tick × Keys)}

theorem isCalm_ofRules (tick : Tick) : (ofRules .standard).IsCalm tick [] where
  rules := rfl
  holds := rfl
  released := by simp [ofRules]
  unsettled := rfl
  counted := by decide
  summed := by decide
  content := rfl
  kept := ⟨rfl, rfl, rfl⟩
  unshifted := rfl

theorem IsCalm.later (calm : sequencer.IsCalm tick pending) {later : Tick} (order : tick ≤ later) :
    sequencer.IsCalm later pending :=
  { calm with released := fun last member => UInt64.le_trans (calm.released last member) order }

theorem lead_two (tick : Tick) (room : tick.toNat + 2 < 18446744073709551616) :
    lead .standard tick (tick + 2) = .ok 2 := by
  have ahead : (tick + 2).toNat = tick.toNat + 2 := by
    have two : (2 : UInt64).toNat = 2 := rfl
    rw [UInt64.toNat_add, two]
    omega
  have difference : (((tick + 2).toNat : Int) - tick.toNat) = 2 := by
    rw [ahead]
    omega
  have near : ¬ SequencerRules.standard.desyncLimit.toNat < Int.natAbs 2 := by decide
  unfold lead
  simp only [difference]
  rw [if_neg near]
  rfl

/-- A block of such samples ends inside the window. -/
theorem correction?_of_twos : correction? .standard 16 8 = none := by
  decide +kernel

theorem sum_twos {count : Nat} (counted : count < 8) :
    Int64.ofNat (2 * count) + 2 = Int64.ofNat (2 * (count + 1)) := by
  have all : ∀ count < 8, Int64.ofNat (2 * count) + 2 = Int64.ofNat (2 * (count + 1)) := by decide
  exact all count counted

theorem IsCalm.sample (calm : sequencer.IsCalm tick pending) :
    (sequencer.sample tick 2).IsCalm tick pending := by
  obtain ⟨rules, holds, released, unsettled, counted, summed, content, kept, unshifted⟩ := calm
  have early : ¬ tick < sequencer.settleUntil := by
    rw [unsettled]
    exact UInt64.not_lt_zero
  have block : max sequencer.rules.minFreshSamples 1 = 8 := by rw [rules]; rfl
  have sum := sum_twos counted
  rw [← summed] at sum
  unfold Sequencer.sample
  rw [if_neg early]
  dsimp only
  by_cases more : sequencer.sampleCount + 1 < 8
  · rw [block, if_pos more]
    exact ⟨rules, holds, released, unsettled, more, sum, content, kept, unshifted⟩
  · have full : sequencer.sampleCount + 1 = 8 := by omega
    rw [full] at sum
    have none : correction? sequencer.rules (sequencer.sampleSum + 2) (sequencer.sampleCount + 1) =
        none := by
      rw [rules, sum, full]
      exact correction?_of_twos
    rw [block, if_neg more, none]
    refine ⟨rules, holds, released, unsettled, ?_, ?_, content, kept, unshifted⟩
    · change 0 < 8
      omega
    · change (0 : Int64) = Int64.ofNat (2 * 0)
      decide

theorem IsCalm.observe (calm : sequencer.IsCalm tick pending)
    (room : tick.toNat + 2 < 18446744073709551616) :
    ∃ after, sequencer.observe tick (tick + 2) = .ok after ∧ after.IsCalm tick pending := by
  refine ⟨sequencer.sample tick 2, ?_, calm.sample⟩
  unfold Sequencer.observe
  rw [calm.rules, lead_two tick room]

theorem insertPending_last {entry : Tick × Keys} {held : List (Tick × Keys)}
    (before : ∀ other ∈ held, other.1 < entry.1) : insertPending entry held = held ++ [entry] := by
  induction held with
  | nil => rfl
  | cons first rest ih =>
      have later := UInt64.lt_asymm (before first List.mem_cons_self)
      have more := ih fun other member => before other (List.mem_cons_of_mem _ member)
      rw [insertPending, if_neg later, more, List.cons_append]

theorem IsCalm.receive (calm : sequencer.IsCalm tick pending)
    (room : tick.toNat + 2 < 18446744073709551616) (keys : Keys)
    (before : ∀ entry ∈ pending, entry.1 < tick + 2) :
    ∃ after, sequencer.receive tick (tick + 2) keys = .ok (.accepted, after) ∧
      after.IsCalm tick (pending ++ [(tick + 2, keys)]) := by
  have sampled := calm.sample
  have next : tick < tick + 2 := by
    have two : (2 : UInt64).toNat = 2 := rfl
    rw [UInt64.lt_iff_toNat_lt, UInt64.toNat_add, two]
    omega
  have free : (sequencer.sample tick 2).isTaken (tick + 2) = false := by
    refine isTaken_eq_false.mpr ⟨?_, ?_⟩
    · intro entry member
      rw [sampled.holds] at member
      exact UInt64.ne_of_lt (before entry member)
    · intro last member
      exact UInt64.lt_of_le_of_lt (sampled.released last member) next
  have accepted : (sequencer.sample tick 2).admission (tick + 2) 2 = .accepted := by
    unfold Sequencer.admission
    rw [sampled.rules, free]
    decide
  have inserted : insertPending (tick + 2, keys) (sequencer.sample tick 2).pending =
      pending ++ [(tick + 2, keys)] := by
    rw [sampled.holds]
    exact insertPending_last before
  unfold Sequencer.receive
  rw [calm.rules, lead_two tick room]
  dsimp only
  rw [accepted]
  refine ⟨_, rfl, ?_⟩
  exact
    { rules := sampled.rules
      holds := inserted
      released := sampled.released
      unsettled := sampled.unsettled
      counted := sampled.counted
      summed := sampled.summed
      content := sampled.content
      kept := sampled.kept
      unshifted := sampled.unshifted }

/-- What is due goes out, and what comes later stays. -/
theorem IsCalm.release {due later : List (Tick × Keys)} {now : Tick}
    (calm : sequencer.IsCalm tick (due ++ later)) (order : tick ≤ now)
    (isDue : ∀ entry ∈ due, entry.1 ≤ now) (isLater : ∀ entry ∈ later, now < entry.1) :
    (sequencer.release now).1 = due ∧ (sequencer.release now).2.IsCalm now later := by
  have out : (sequencer.release now).1 = due := by
    rw [release_fst, calm.holds, List.filter_append, List.filter_eq_self.mpr,
      List.filter_eq_nil_iff.mpr, List.append_nil]
    · intro entry member
      simpa using UInt64.not_le.mpr (isLater entry member)
    · intro entry member
      simpa using isDue entry member
  have held : (sequencer.release now).2.pending = later := by
    rw [release_pending, calm.holds, List.filter_append, List.filter_eq_nil_iff.mpr,
      List.filter_eq_self.mpr, List.nil_append]
    · intro entry member
      simpa using isLater entry member
    · intro entry member
      simpa using UInt64.not_lt.mpr (isDue entry member)
  refine ⟨out, ?_⟩
  refine ⟨calm.rules, held, ?_, calm.unsettled, calm.counted, calm.summed, calm.content, calm.kept,
    calm.unshifted⟩
  intro last member
  rw [release_lastReleased, out] at member
  cases final : due.getLast? with
  | none =>
      rw [final] at member
      exact UInt64.le_trans (calm.released last member) order
  | some entry =>
      rw [final] at member
      have isLast : entry.1 = last := by simpa using member
      rw [← isLast]
      exact isDue entry (List.mem_of_getLast? final)

end Sequencer

end Overworld
