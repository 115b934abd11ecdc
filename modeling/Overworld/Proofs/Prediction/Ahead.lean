import Overworld.Proofs.Prediction.Reconciliation

set_option autoImplicit false

/-!
A predictor that runs two ticks ahead of the server. Each word of the server finds the keys of its
own tick and of the tick after on record, replays the latter and leaves the prediction where it was.
-/

namespace Overworld

namespace Tick

theorem toNat_add_two (tick : Tick) (room : tick.toNat + 2 < 18446744073709551616) :
    (tick + 2).toNat = tick.toNat + 2 := by
  have two : (2 : UInt64).toNat = 2 := rfl
  have sum := toNat_add_of_lt tick 2 (by omega)
  omega

theorem toNat_add_one (tick : Tick) (room : tick.toNat + 1 < 18446744073709551616) :
    (tick + 1).toNat = tick.toNat + 1 := by
  have one : (1 : UInt64).toNat = 1 := rfl
  have sum := toNat_add_of_lt tick 1 (by omega)
  omega

/-- A clock two ticks ahead stays so when both sides step. -/
theorem addSaturating_two_one {tick : Tick} (room : tick.toNat + 3 < 18446744073709551616) :
    addSaturating (tick + 2) 1 = tick + 1 + 2 := by
  have one : (1 : UInt64).toNat = 1 := rfl
  have two := toNat_add_two tick (by omega)
  have sum := toNat_addSaturating (tick + 2) 1 (by omega)
  have first := toNat_add_one tick (by omega)
  have second := toNat_add_two (tick + 1) (by omega)
  apply UInt64.toNat_inj.mp
  omega

end Tick

namespace KeyHistory

/-- A push right behind the newest entry keeps at least that one. -/
theorem entries_push {history : KeyHistory} {newest : Tick} {last : Keys}
    {older : List (Tick × Keys)} (held : history.entries = (newest, last) :: older)
    (room : 2 ≤ history.capacity.count) (tick : Tick) (next : newest.toNat + 1 = tick.toNat)
    (keys : Keys) :
    ∃ rest, (history.push tick keys).entries = (tick, keys) :: (newest, last) :: rest := by
  have found : history.newest? = some newest := newest?_eq_some_iff.mpr ⟨last, older, held⟩
  have continued : history.continues tick = true := (continues_iff found tick).mpr next
  obtain ⟨more, enough⟩ : ∃ more, history.capacity.count = more + 2 :=
    ⟨history.capacity.count - 2, by omega⟩
  refine ⟨older.take more, ?_⟩
  simp only [push, kept, if_pos continued, held, enough, List.take_succ_cons]

theorem entries_push_of_blank (history : KeyHistory) (blank : history.entries = []) (tick : Tick)
    (keys : Keys) : (history.push tick keys).entries = [(tick, keys)] := by
  obtain ⟨more, enough⟩ : ∃ more, history.capacity.count = more + 1 :=
    ⟨history.capacity.count - 1, by have := history.capacity.pos; omega⟩
  have nothing : history.kept tick = [] := by
    unfold kept
    rw [blank, ite_self]
  simp only [push, nothing, enough, List.take_succ_cons, List.take_nil]

end KeyHistory

namespace Predictor

/-- The predictor has recorded the keys of the two ticks after `tick`, the first of them `next` and
the second `last`; where it has both, it stands where they lead from `motion`. -/
structure IsAhead (predictor : Predictor) (tick : Tick) (next last : Keys) (motion : Motion) :
    Prop where
  gait : predictor.gait = .standard
  dt : predictor.dt = standardStep
  idle : predictor.pending = none
  corrected : ∀ word ∈ predictor.lastCorrected, word ≤ tick
  room : 2 ≤ predictor.history.capacity.count
  recorded : ∃ older, predictor.history.entries = (tick + 2, last) :: older ∧
    (∀ entry ∈ older.head?, entry.2 = next) ∧
    (older ≠ [] →
      predictor.motion =
        (motion.step next .standard standardStep).step last .standard standardStep)

/-- Nothing is recorded and no word has come yet. -/
structure IsBlank (predictor : Predictor) : Prop where
  gait : predictor.gait = .standard
  dt : predictor.dt = standardStep
  idle : predictor.pending = none
  corrected : predictor.lastCorrected = none
  room : 2 ≤ predictor.history.capacity.count
  blank : predictor.history.entries = []

variable {predictor : Predictor} {tick : Tick} {next last : Keys} {motion : Motion}

/-- A word that is news is applied by the next reconciliation. -/
theorem reconcile_queueCorrection (idle : predictor.pending = none) {correction : Correction}
    (corrected : ∀ word ∈ predictor.lastCorrected, word ≤ correction.tick) :
    (predictor.queueCorrection correction).2.reconcile =
      (some (predictor.apply correction).1, (predictor.apply correction).2) := by
  have news : predictor.isNews correction = true := by
    unfold isNews
    rw [idle, Option.all_none, Bool.true_and]
    cases found : predictor.lastCorrected with
    | none => rfl
    | some word => simpa using corrected word (by simp [found])
  rw [queueCorrection_of_isNews news]
  rfl

/-- The record answers the word on the next tick: it has the keys of that tick, and one entry after
it. -/
theorem IsAhead.answers (ahead : predictor.IsAhead tick next last motion)
    (room : tick.toNat + 3 < 18446744073709551616) :
    isReplayable predictor.history (tick + 1) = true ∧
      predictor.history.after (tick + 1) = [(tick + 2, last)] ∧
      (predictor.history.keysAt? (tick + 1)).all (· = next) = true := by
  obtain ⟨older, entries, second, -⟩ := ahead.recorded
  have one := Tick.toNat_add_one tick (by omega)
  have two := Tick.toNat_add_two tick (by omega)
  have newest : predictor.history.newest? = some (tick + 2) :=
    KeyHistory.newest?_eq_some_iff.mpr ⟨last, older, entries⟩
  have gap : (tick + 2).toNat - (tick + 1).toNat = 1 := by omega
  refine ⟨?_, ?_, ?_⟩
  · apply (isReplayable_iff newest).mpr
    rw [entries, List.length_cons]
    omega
  · rw [KeyHistory.after_eq newest, gap, entries]
    rfl
  · have order : tick + 1 ≤ tick + 2 := UInt64.le_iff_toNat_le.mpr (by omega)
    unfold KeyHistory.keysAt?
    rw [newest]
    dsimp only
    rw [if_pos order, gap, KeyHistory.get?, entries]
    cases older with
    | nil => rfl
    | cons entry rest => simpa using second entry (by simp)

/-- The word on the next tick is what the record says, and replays the one entry after it. -/
theorem IsAhead.turn (ahead : predictor.IsAhead tick next last motion)
    (room : tick.toNat + 3 < 18446744073709551616) (keys : Keys) :
    ∃ error corrected,
      (predictor.queueCorrection ⟨tick + 1, motion.step next .standard standardStep, next⟩).2.reconcile =
        (some (.replayed (tick + 1) 1 error true), corrected) ∧
      (corrected.predict (tick + 1 + 2) keys).IsAhead (tick + 1) last keys
        (motion.step next .standard standardStep) ∧
      ∃ older, (corrected.predict (tick + 1 + 2) keys).history.entries =
        (tick + 1 + 2, keys) :: (tick + 2, last) :: older := by
  obtain ⟨older, entries, -, -⟩ := ahead.recorded
  obtain ⟨replayable, after, matched⟩ := ahead.answers room
  have one := Tick.toNat_add_one tick (by omega)
  have two := Tick.toNat_add_two tick (by omega)
  have three := Tick.toNat_add_two (tick + 1) (by omega)
  have order : ∀ word ∈ predictor.lastCorrected, word ≤ tick + 1 := by
    intro word member
    have before := UInt64.le_iff_toNat_le.mp (ahead.corrected word member)
    apply UInt64.le_iff_toNat_le.mpr
    omega
  obtain ⟨error, applied⟩ := apply_of_isReplayable
    ⟨tick + 1, motion.step next .standard standardStep, next⟩ replayable
  simp only [after, matched] at applied
  rw [reconcile_queueCorrection ahead.idle order, applied]
  refine ⟨error, _, rfl, ?_⟩
  rw [predict_of_pending_eq_none rfl]
  obtain ⟨rest, pushed⟩ := KeyHistory.entries_push entries ahead.room
    (tick + 1 + 2) (by omega) keys
  refine ⟨⟨ahead.gait, ahead.dt, rfl, ?_, ahead.room, _, pushed, ?_, ?_⟩, rest, pushed⟩
  · intro word member
    cases member
    exact UInt64.le_refl _
  · intro entry member
    cases member
    rfl
  · intro _
    simp only [ahead.gait, ahead.dt]
    rfl

/-- The first word finds no record and is taken as it is. -/
theorem IsBlank.turn (blank : predictor.IsBlank) (word : Motion) (held keys : Keys) (tick : Tick) :
    ∃ outcome corrected,
      (predictor.queueCorrection ⟨tick, word, held⟩).2.reconcile = (some outcome, corrected) ∧
      (∀ tick count error, outcome ≠ .replayed tick count error false) ∧
      (corrected.predict (tick + 2) keys).IsAhead tick held keys word := by
  have lost : isReplayable predictor.history tick = false := by
    apply isReplayable_of_newest?_eq_none
    simp [KeyHistory.newest?, blank.blank]
  obtain ⟨error, applied⟩ := apply_of_not_isReplayable ⟨tick, word, held⟩ lost
  rw [reconcile_queueCorrection blank.idle (by simp [blank.corrected]), applied]
  refine ⟨_, _, rfl, (fun _ _ _ impossible => by cases impossible), ?_⟩
  rw [predict_of_pending_eq_none rfl]
  have pushed := KeyHistory.entries_push_of_blank predictor.history.clear rfl
    (tick + 2) keys
  refine ⟨blank.gait, blank.dt, rfl, ?_, blank.room, [], pushed, ?_, ?_⟩
  · intro last member
    cases member
    exact UInt64.le_refl _
  · intro entry member
    cases member
  · intro some
    exact absurd rfl some

end Predictor

end Overworld
