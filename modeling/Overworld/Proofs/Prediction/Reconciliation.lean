import Overworld.Client.Predictor
import Overworld.Proofs.Motion.History

set_option autoImplicit false

/-!
What the operations of a predictor do, field by field. A correction that is taken either replays
over the whole record or ends it; a prediction adds one entry.
-/

namespace Overworld

namespace Predictor

theorem queueCorrection_of_isNews {predictor : Predictor} {correction : Correction}
    (news : predictor.isNews correction = true) :
    predictor.queueCorrection correction = (true, { predictor with pending := some correction }) := by
  unfold queueCorrection
  rw [if_pos news]

/-- The answer to a correction is whether it is news. -/
theorem fst_queueCorrection (predictor : Predictor) (correction : Correction) :
    (predictor.queueCorrection correction).1 = predictor.isNews correction := by
  unfold queueCorrection
  cases predictor.isNews correction <;> rfl

/-- Beyond the last tick there is none that the record could lack. -/
theorem isReplayable_iff_oldest {history : KeyHistory} {oldest : Tick}
    (found : history.oldest? = some oldest) (tick : Tick) :
    isReplayable history tick = true ↔ oldest.toNat ≤ tick.toNat + 1 := by
  unfold isReplayable
  rw [found]
  simp only [decide_eq_true_eq, UInt64.le_iff_toNat_le]
  by_cases fits : tick.toNat + 1 < 18446744073709551616
  · have next := Tick.toNat_addSaturating tick 1 fits
    rw [UInt64.toNat_one] at next
    rw [next]
  · have bound := oldest.toNat_lt
    have final : Tick.addSaturating tick 1 = Tick.last := by
      unfold Tick.addSaturating
      rw [UInt64.toNat_one, if_neg fits]
    have value : Tick.last.toNat = 18446744073709551615 := rfl
    rw [final, value]
    omega

/-- Whether the record reaches back far enough is a matter of its newest tick and its length. -/
theorem isReplayable_iff {history : KeyHistory} {newest tick : Tick}
    (held : history.newest? = some newest) :
    isReplayable history tick = true ↔ newest.toNat ≤ tick.toNat + history.entries.length := by
  obtain ⟨oldest, found, place⟩ := KeyHistory.oldest?_of_newest? held
  rw [isReplayable_iff_oldest found]
  omega

theorem isReplayable_of_newest?_eq_none {history : KeyHistory} {tick : Tick}
    (blank : history.newest? = none) : isReplayable history tick = false := by
  simp [isReplayable, KeyHistory.oldest?, KeyHistory.entries_eq_nil blank]

/-- Corrects to the word of the server and replays what came after it. -/
theorem apply_of_isReplayable {predictor : Predictor} (correction : Correction)
    (replayable : isReplayable predictor.history correction.tick = true) :
    ∃ error,
      predictor.apply correction =
        (.replayed correction.tick (predictor.history.after correction.tick).length error
          ((predictor.history.keysAt? correction.tick).all (· = correction.keys)),
          { predictor with
            pending := none
            lastCorrected := some correction.tick
            motion := correction.motion.simulate
              ((predictor.history.after correction.tick).map (·.2)) predictor.gait predictor.dt }) := by
  unfold apply
  simp only [if_pos replayable, List.length_map]
  exact ⟨_, rfl⟩

theorem apply_of_not_isReplayable {predictor : Predictor} (correction : Correction)
    (lost : isReplayable predictor.history correction.tick = false) :
    ∃ error,
      predictor.apply correction =
        (.snapped correction.tick error,
          { predictor with
            pending := none
            lastCorrected := some correction.tick
            motion := correction.motion
            history := predictor.history.clear }) := by
  unfold apply
  rw [if_neg (by simp [lost])]
  exact ⟨_, rfl⟩

/-- What a correction leaves alone, and that it is the one applied last. -/
theorem apply_frame (predictor : Predictor) (correction : Correction) :
    (predictor.apply correction).2.gait = predictor.gait ∧
      (predictor.apply correction).2.dt = predictor.dt ∧
      (predictor.apply correction).2.pending = none ∧
      (predictor.apply correction).2.lastCorrected = some correction.tick ∧
      (predictor.apply correction).2.history.entries <+: predictor.history.entries := by
  cases replayable : isReplayable predictor.history correction.tick with
  | true =>
      obtain ⟨error, applied⟩ := apply_of_isReplayable correction replayable
      rw [applied]
      exact ⟨rfl, rfl, rfl, rfl, List.prefix_refl _⟩
  | false =>
      obtain ⟨error, applied⟩ := apply_of_not_isReplayable correction replayable
      rw [applied]
      exact ⟨rfl, rfl, rfl, rfl, List.nil_prefix⟩

theorem reconcile_of_pending_eq_none {predictor : Predictor} (idle : predictor.pending = none) :
    predictor.reconcile = (none, predictor) := by
  unfold reconcile
  rw [idle]

theorem reconcile_of_pending_eq_some {predictor : Predictor} {correction : Correction}
    (waiting : predictor.pending = some correction) :
    predictor.reconcile =
      (some (predictor.apply correction).1, (predictor.apply correction).2) := by
  unfold reconcile
  rw [waiting]

/-- A reconciliation changes neither the way of moving nor the record, which it may only end. -/
theorem reconcile_frame (predictor : Predictor) :
    predictor.reconcile.2.gait = predictor.gait ∧
      predictor.reconcile.2.dt = predictor.dt ∧
      predictor.reconcile.2.pending = none ∧
      predictor.reconcile.2.history.entries <+: predictor.history.entries := by
  cases waiting : predictor.pending with
  | none =>
      rw [reconcile_of_pending_eq_none waiting]
      exact ⟨rfl, rfl, waiting, List.prefix_refl _⟩
  | some correction =>
      rw [reconcile_of_pending_eq_some waiting]
      obtain ⟨gait, dt, pending, -, record⟩ := predictor.apply_frame correction
      exact ⟨gait, dt, pending, record⟩

/-- Without a correction that waits, a prediction is one step and one entry. -/
theorem predict_of_pending_eq_none {predictor : Predictor} (idle : predictor.pending = none)
    (tick : Tick) (keys : Keys) :
    predictor.predict tick keys =
      { predictor with
        motion := predictor.motion.step keys predictor.gait predictor.dt
        history := predictor.history.push tick keys } := by
  unfold predict
  rw [reconcile_of_pending_eq_none idle]

/-- A prediction is a reconciliation and then a prediction. -/
theorem predict_eq_predict_reconcile (predictor : Predictor) (tick : Tick) (keys : Keys) :
    predictor.predict tick keys = predictor.reconcile.2.predict tick keys := by
  rw [predict_of_pending_eq_none predictor.reconcile_frame.2.2.1]
  rfl

end Predictor

end Overworld
