import Overworld.Proofs.Prediction.Reconciliation

set_option autoImplicit false

/-!
A client whose corrections trail its predictions by a fixed lag: in each turn it takes the word on
one tick and predicts the tick that lies the lag beyond it. Corrections replay for good where the
record covers the ticks between from the start, and in any case for a lag of at most two ticks.
Otherwise each correction finds a record that the one before it has ended, and snaps again.
-/

namespace Overworld

/-- The word of the server in a turn, and the keys of the tick predicted after it. -/
structure LaggedTurn where
  motion : Motion
  held : Keys
  keys : Keys
deriving DecidableEq

namespace Predictor

/-- Nothing waits, and nothing newer than `tick` was applied. -/
def IsIdle (predictor : Predictor) (tick : Tick) : Prop :=
  predictor.pending = none ∧ predictor.lastCorrected.all (· ≤ tick) = true

def takeTurn (predictor : Predictor) (lag tick : Tick) (turn : LaggedTurn) :
    Option Outcome × Predictor :=
  let queued := (predictor.queueCorrection ⟨tick, turn.motion, turn.held⟩).2
  let (outcome, corrected) := queued.reconcile
  (outcome, corrected.predict (tick + lag) turn.keys)

/-- The outcomes of a run of turns, the first one with the word on `tick`. -/
def takeTurns (lag : Tick) : Predictor → Tick → List LaggedTurn → List (Option Outcome)
  | _, _, [] => []
  | predictor, tick, turn :: turns =>
    (predictor.takeTurn lag tick turn).1 ::
      takeTurns lag (predictor.takeTurn lag tick turn).2 (tick + 1) turns

theorem takeTurn_eq_apply {predictor : Predictor} {tick : Tick} (idle : predictor.IsIdle tick)
    (lag : Tick) (turn : LaggedTurn) :
    predictor.takeTurn lag tick turn =
      (some (predictor.apply ⟨tick, turn.motion, turn.held⟩).1,
        (predictor.apply ⟨tick, turn.motion, turn.held⟩).2.predict (tick + lag) turn.keys) := by
  have news : predictor.isNews ⟨tick, turn.motion, turn.held⟩ = true := by
    unfold isNews
    rw [idle.1]
    exact idle.2
  unfold takeTurn
  rw [queueCorrection_of_isNews news]
  rfl

/-- A turn that replays keeps the record; one that does not starts it over. Either way the tick
predicted is then the newest one. -/
theorem takeTurn_cases {predictor : Predictor} {tick : Tick} (idle : predictor.IsIdle tick)
    (lag : Tick) (turn : LaggedTurn) :
    (isReplayable predictor.history tick = true ∧
      (∃ error matched, (predictor.takeTurn lag tick turn).1 =
        some (.replayed tick (predictor.history.after tick).length error matched)) ∧
      (predictor.takeTurn lag tick turn).2.history =
        predictor.history.push (tick + lag) turn.keys ∨
    isReplayable predictor.history tick = false ∧
      (∃ error, (predictor.takeTurn lag tick turn).1 = some (.snapped tick error)) ∧
      (predictor.takeTurn lag tick turn).2.history =
        predictor.history.clear.push (tick + lag) turn.keys) ∧
    (predictor.takeTurn lag tick turn).2.pending = none ∧
    (predictor.takeTurn lag tick turn).2.lastCorrected = some tick := by
  rw [takeTurn_eq_apply idle]
  cases replayable : isReplayable predictor.history tick with
  | true =>
      obtain ⟨error, applied⟩ :=
        apply_of_isReplayable ⟨tick, turn.motion, turn.held⟩ replayable
      rw [applied, predict_of_pending_eq_none rfl]
      exact ⟨Or.inl ⟨rfl, ⟨error, _, rfl⟩, rfl⟩, rfl, rfl⟩
  | false =>
      obtain ⟨error, applied⟩ :=
        apply_of_not_isReplayable ⟨tick, turn.motion, turn.held⟩ replayable
      rw [applied, predict_of_pending_eq_none rfl]
      exact ⟨Or.inr ⟨rfl, ⟨error, rfl⟩, rfl⟩, rfl, rfl⟩

theorem takeTurn_capacity {predictor : Predictor} {tick : Tick} (idle : predictor.IsIdle tick)
    (lag : Tick) (turn : LaggedTurn) :
    (predictor.takeTurn lag tick turn).2.history.capacity = predictor.history.capacity := by
  obtain ⟨⟨-, -, record⟩ | ⟨-, -, record⟩, -, -⟩ := takeTurn_cases idle lag turn <;>
    rw [record] <;> rfl

theorem takeTurn_newest? {predictor : Predictor} {tick : Tick} (idle : predictor.IsIdle tick)
    (lag : Tick) (turn : LaggedTurn) :
    (predictor.takeTurn lag tick turn).2.history.newest? = some (tick + lag) := by
  obtain ⟨⟨-, -, record⟩ | ⟨-, -, record⟩, -, -⟩ := takeTurn_cases idle lag turn <;>
    rw [record, KeyHistory.newest?_push]

theorem takeTurn_isIdle {predictor : Predictor} {tick : Tick} (idle : predictor.IsIdle tick)
    (room : tick.toNat + 1 < 18446744073709551616) (lag : Tick) (turn : LaggedTurn) :
    (predictor.takeTurn lag tick turn).2.IsIdle (tick + 1) := by
  obtain ⟨-, waiting, last⟩ := takeTurn_cases idle lag turn
  refine ⟨waiting, ?_⟩
  rw [last, Option.all_some, decide_eq_true_eq, UInt64.le_iff_toNat_le, UInt64.toNat_add,
    UInt64.toNat_one]
  omega

/-! ### A record that covers the lag -/

/-- The record ends right before the tick that is predicted next, and reaches back to the tick after
the one that is corrected next. -/
def Covers (history : KeyHistory) (lag tick : Tick) : Prop :=
  ∃ newest oldest, history.newest? = some newest ∧ history.oldest? = some oldest ∧
    newest.toNat + 1 = tick.toNat + lag.toNat ∧ oldest.toNat ≤ tick.toNat + 1

theorem covers_iff {history : KeyHistory} {lag tick newest : Tick}
    (held : history.newest? = some newest) :
    Covers history lag tick ↔
      newest.toNat + 1 = tick.toNat + lag.toNat ∧ lag.toNat ≤ history.entries.length + 1 := by
  obtain ⟨oldest, found, place⟩ := KeyHistory.oldest?_of_newest? held
  unfold Covers
  rw [held, found]
  constructor
  · rintro ⟨_, _, ⟨⟩, ⟨⟩, ends, reaches⟩
    omega
  · rintro ⟨ends, long⟩
    exact ⟨newest, oldest, rfl, rfl, ends, by omega⟩

theorem Covers.isReplayable {history : KeyHistory} {lag tick : Tick}
    (covered : Covers history lag tick) :
    Predictor.isReplayable history tick = true := by
  have ⟨newest, _, held, _⟩ := covered
  obtain ⟨ends, long⟩ := (covers_iff held).mp covered
  refine (isReplayable_iff held).mpr ?_
  omega

theorem Covers.length_after {history : KeyHistory} {lag tick : Tick}
    (covered : Covers history lag tick) (behind : 1 ≤ lag.toNat) :
    (history.after tick).length = lag.toNat - 1 := by
  have ⟨newest, _, held, _⟩ := covered
  obtain ⟨ends, long⟩ := (covers_iff held).mp covered
  rw [KeyHistory.length_after held]
  omega

theorem Covers.next {predictor : Predictor} {lag tick : Tick} (idle : predictor.IsIdle tick)
    (covered : Covers predictor.history lag tick)
    (short : lag.toNat ≤ predictor.history.capacity.count) (behind : 1 ≤ lag.toNat)
    (room : tick.toNat + lag.toNat < 18446744073709551616) (turn : LaggedTurn) :
    Covers (predictor.takeTurn lag tick turn).2.history lag (tick + 1) := by
  have predicted := Tick.toNat_add_of_lt _ _ room
  have next := Tick.toNat_add_of_lt tick 1 (by rw [UInt64.toNat_one]; omega)
  rw [UInt64.toNat_one] at next
  have ⟨newest, _, held, _⟩ := covered
  obtain ⟨ends, long⟩ := (covers_iff held).mp covered
  have continued : predictor.history.continues (tick + lag) = true :=
    (KeyHistory.continues_iff held _).mpr (by omega)
  refine (covers_iff (takeTurn_newest? idle lag turn)).mpr ⟨by omega, ?_⟩
  obtain ⟨⟨-, -, record⟩ | ⟨lost, -, -⟩, -, -⟩ := takeTurn_cases idle lag turn
  · rw [record, KeyHistory.length_push_of_continues _ continued]
    omega
  · rw [covered.isReplayable] at lost
    cases lost

/-- Once the record covers the lag, every correction is replayed over the ticks between. -/
theorem takeTurns_of_covers {lag : Tick} (behind : 1 ≤ lag.toNat) (turns : List LaggedTurn)
    {predictor : Predictor} {tick : Tick} (idle : predictor.IsIdle tick)
    (covered : Covers predictor.history lag tick)
    (short : lag.toNat ≤ predictor.history.capacity.count)
    (room : tick.toNat + lag.toNat + turns.length ≤ 18446744073709551616) (i : Nat) (inside : i < turns.length) :
    ∃ error matched, (takeTurns lag predictor tick turns)[i]? =
      some (some (.replayed (tick + .ofNat i) (lag.toNat - 1) error matched)) := by
  induction turns generalizing predictor tick i with
  | nil => cases inside
  | cons turn turns ih =>
      rw [List.length_cons] at room inside
      cases i with
      | zero =>
          obtain ⟨⟨-, ⟨error, matched, outcome⟩, -⟩ | ⟨lost, -, -⟩, -, -⟩ :=
            takeTurn_cases idle lag turn
          · rw [covered.length_after behind] at outcome
            refine ⟨error, matched, ?_⟩
            simp only [takeTurns, List.getElem?_cons_zero, outcome, Tick.add_ofNat_zero]
          · rw [covered.isReplayable] at lost
            cases lost
      | succ i =>
          have next := Tick.toNat_add_of_lt tick 1
            (by rw [UInt64.toNat_one]; omega)
          rw [UInt64.toNat_one] at next
          have later := ih (takeTurn_isIdle idle (by omega) lag turn)
            (covered.next idle short behind (by omega) turn)
            (by rw [takeTurn_capacity idle]; exact short) (by omega) i (by omega)
          simpa only [takeTurns, List.getElem?_cons_succ, Tick.add_one_add] using later

/-! ### A record that every correction ends -/

/-- With a lag beyond two ticks, a record of the newest tick alone is too young for the next
correction, which therefore ends it again. -/
theorem takeTurns_of_single {lag : Tick} (far : 2 < lag.toNat) (turns : List LaggedTurn)
    {predictor : Predictor} {tick newest : Tick} (idle : predictor.IsIdle tick)
    (held : predictor.history.newest? = some newest)
    (ends : newest.toNat + 1 = tick.toNat + lag.toNat)
    (single : predictor.history.entries.length = 1)
    (room : tick.toNat + lag.toNat + turns.length ≤ 18446744073709551616) (i : Nat) (inside : i < turns.length) :
    ∃ error, (takeTurns lag predictor tick turns)[i]? =
      some (some (.snapped (tick + .ofNat i) error)) := by
  induction turns generalizing predictor tick newest i with
  | nil => cases inside
  | cons turn turns ih =>
      rw [List.length_cons] at room inside
      have lost : isReplayable predictor.history tick = false := by
        rw [← Bool.not_eq_true, isReplayable_iff held]
        omega
      obtain ⟨⟨kept, -, -⟩ | ⟨-, ⟨error, outcome⟩, record⟩, -, -⟩ := takeTurn_cases idle lag turn
      · rw [lost] at kept
        cases kept
      · cases i with
        | zero =>
            refine ⟨error, ?_⟩
            simp only [takeTurns, List.getElem?_cons_zero, outcome, Tick.add_ofNat_zero]
        | succ i =>
            have predicted := Tick.toNat_add_of_lt tick lag (by omega)
            have next := Tick.toNat_add_of_lt tick 1
              (by rw [UInt64.toNat_one]; omega)
            rw [UInt64.toNat_one] at next
            have later := ih (takeTurn_isIdle idle (by omega) lag turn)
              (takeTurn_newest? idle lag turn) (by omega)
              (by rw [record]; exact KeyHistory.length_push_clear _ _ _) (by omega) i (by omega)
            simpa only [takeTurns, List.getElem?_cons_succ, Tick.add_one_add] using later

/-! ### Which of the two it is -/

/-- The first turn starts the record over unless the record covers the lag. -/
theorem length_takeTurn_of_not_covers {predictor : Predictor} {lag tick : Tick}
    (idle : predictor.IsIdle tick) (open' : ¬ Covers predictor.history lag tick)
    (room : tick.toNat + lag.toNat < 18446744073709551616) (turn : LaggedTurn) :
    (predictor.takeTurn lag tick turn).2.history.entries.length = 1 := by
  have predicted := Tick.toNat_add_of_lt _ _ room
  obtain ⟨⟨replayable, -, record⟩ | ⟨-, -, record⟩, -, -⟩ := takeTurn_cases idle lag turn
  · cases held : predictor.history.newest? with
    | none =>
        rw [isReplayable_of_newest?_eq_none held] at replayable
        cases replayable
    | some newest =>
        rw [isReplayable_iff held] at replayable
        rw [covers_iff held] at open'
        have broken : predictor.history.continues (tick + lag) = false := by
          rw [← Bool.not_eq_true, KeyHistory.continues_iff held]
          omega
        rw [record, KeyHistory.length_push_of_not_continues _ broken]
  · rw [record, KeyHistory.length_push_clear]

/-- With a lag of one or two ticks, or a record that covers the lag from the start, every correction
after the first is replayed over the ticks between. Otherwise every correction after the first snaps,
in however long a run. -/
theorem lagging_corrections_replay_or_snap (predictor : Predictor) (lag tick : Tick)
    (turns : List LaggedTurn) (idle : predictor.IsIdle tick) (behind : 1 ≤ lag.toNat)
    (short : lag.toNat ≤ predictor.history.capacity.count)
    (room : tick.toNat + lag.toNat + turns.length ≤ 18446744073709551616) :
    (lag.toNat ≤ 2 ∨ Covers predictor.history lag tick →
      ∀ i, 1 ≤ i → i < turns.length →
        ∃ error matched, (takeTurns lag predictor tick turns)[i]? =
          some (some (.replayed (tick + .ofNat i) (lag.toNat - 1) error matched))) ∧
    (¬ (lag.toNat ≤ 2 ∨ Covers predictor.history lag tick) →
      ∀ i, 1 ≤ i → i < turns.length →
        ∃ error, (takeTurns lag predictor tick turns)[i]? =
          some (some (.snapped (tick + .ofNat i) error))) := by
  cases turns with
  | nil => exact ⟨fun _ _ _ inside => absurd inside (Nat.not_lt_zero _),
      fun _ _ _ inside => absurd inside (Nat.not_lt_zero _)⟩
  | cons turn turns =>
      rw [List.length_cons] at room
      have predicted := Tick.toNat_add_of_lt tick lag (by omega)
      have next := Tick.toNat_add_of_lt tick 1 (by rw [UInt64.toNat_one]; omega)
      rw [UInt64.toNat_one] at next
      have rest := takeTurn_isIdle idle (by omega) lag turn
      have newest := takeTurn_newest? idle lag turn
      have capacity := takeTurn_capacity idle lag turn
      constructor
      · intro steady i positive inside
        obtain ⟨i, rfl⟩ : ∃ j, i = j + 1 := ⟨i - 1, by omega⟩
        have covered : Covers (predictor.takeTurn lag tick turn).2.history lag (tick + 1) := by
          rcases steady with near | covered
          · have held := KeyHistory.length_pos_of_newest? newest
            exact (covers_iff newest).mpr ⟨by omega, by omega⟩
          · exact covered.next idle short behind (by omega) turn
        have later := takeTurns_of_covers behind turns rest covered (by rw [capacity]; exact short)
          (by omega) i (by rw [List.length_cons] at inside; omega)
        simpa only [takeTurns, List.getElem?_cons_succ, Tick.add_one_add] using later
      · intro unsteady i positive inside
        obtain ⟨i, rfl⟩ : ∃ j, i = j + 1 := ⟨i - 1, by omega⟩
        have far : 2 < lag.toNat := Nat.lt_of_not_le fun near => unsteady (Or.inl near)
        have single := length_takeTurn_of_not_covers idle (fun covered => unsteady (Or.inr covered))
          (by omega) turn
        have later := takeTurns_of_single far turns rest newest (by omega) single (by omega) i
          (by rw [List.length_cons] at inside; omega)
        simpa only [takeTurns, List.getElem?_cons_succ, Tick.add_one_add] using later

/-- A client that joins three ticks ahead of the words it gets never replays. -/
theorem joining_three_ahead_never_replays :
    ¬ (((3 : Tick).toNat ≤ 2) ∨ Covers (create .standard standardStep standardHistory).history 3 10) ∧
    ∀ i, 1 ≤ i → i < 40 →
      ∃ error, (takeTurns 3 (create .standard standardStep standardHistory) 10
          (List.replicate 40 ⟨.atRest .zero, .neutral, .neutral⟩))[i]? =
        some (some (.snapped (10 + .ofNat i) error)) := by
  have uncovered : ¬ (((3 : Tick).toNat ≤ 2) ∨
      Covers (create .standard standardStep standardHistory).history 3 10) := by
    rintro (near | ⟨_, _, held, _⟩)
    · exact absurd near (by decide)
    · cases held
  refine ⟨uncovered, ?_⟩
  exact (lagging_corrections_replay_or_snap (create .standard standardStep standardHistory) 3 10
    (List.replicate 40 ⟨.atRest .zero, .neutral, .neutral⟩) ⟨rfl, rfl⟩ (by decide) (by decide)
    (by rw [List.length_replicate]; decide)).2 uncovered

/-- Three ticks of lag are fewer than the twenty kept, and the correction of the fourth turn snaps all
the same. -/
theorem fourth_correction_snaps :
    (takeTurns 3 (create .standard standardStep standardHistory) 10
      (List.replicate 4 ⟨.atRest .zero, .neutral, .neutral⟩))[3]? =
      some (some (.snapped 13 .zero)) := by
  decide +kernel

end Predictor

end Overworld
