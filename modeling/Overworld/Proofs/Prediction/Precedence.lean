import Mathlib.Data.List.Pairwise
import Overworld.Proofs.Prediction.Journal

set_option autoImplicit false

/-!
Corrections never go back in time. Those applied, and after them those that are news since, stand in
ascending order of their ticks, so the one that waits is the newest of those that are news.
-/

namespace Overworld

/-- The newest correction of a list, the last one of those on its tick. -/
def Correction.IsNewestOf (correction : Correction) (corrections : List Correction) : Prop :=
  ∃ before after, corrections = before ++ correction :: after ∧
    (∀ other ∈ before, other.tick ≤ correction.tick) ∧
    ∀ other ∈ after, other.tick < correction.tick

def Correction.AreAscending (corrections : List Correction) : Prop :=
  corrections.Pairwise fun earlier later => earlier.tick ≤ later.tick

namespace Correction

variable {corrections : List Correction} {correction : Correction} {tick : Tick}

/-- In ascending order the last one bounds them all. -/
theorem AreAscending.le_of_getLast? (ascending : AreAscending corrections)
    (bound : ∀ last ∈ corrections.getLast?, last.tick ≤ tick) :
    ∀ correction ∈ corrections, correction.tick ≤ tick := by
  intro correction member
  have held := List.ne_nil_of_mem member
  have order := List.Pairwise.rel_getLast_of_rel_getLast_getLast ascending member (UInt64.le_refl _)
  exact UInt64.le_trans order (bound _ (List.getLast?_eq_some_getLast held))

theorem AreAscending.append_singleton (ascending : AreAscending corrections)
    (late : ∀ earlier ∈ corrections, earlier.tick ≤ correction.tick) :
    AreAscending (corrections ++ [correction]) := by
  refine List.pairwise_append.mpr ⟨ascending, List.pairwise_singleton _ _, ?_⟩
  intro earlier member later isLater
  rw [List.mem_singleton.mp isLater]
  exact late earlier member

/-- In ascending order the last one is the newest. -/
theorem AreAscending.isNewestOf (ascending : AreAscending corrections)
    (last : corrections.getLast? = some correction) : correction.IsNewestOf corrections := by
  obtain ⟨front, rfl⟩ := List.getLast?_eq_some_iff.mp last
  refine ⟨front, [], rfl, ?_, by simp⟩
  intro other member
  exact (List.pairwise_append.mp ascending).2.2 other member correction (by simp)

end Correction

namespace Predictor

theorem isNews_eq_true_iff {predictor : Predictor} {correction : Correction} :
    predictor.isNews correction = true ↔
      (∀ waiting ∈ predictor.pending, waiting.tick ≤ correction.tick) ∧
        ∀ last ∈ predictor.lastCorrected, last ≤ correction.tick := by
  unfold isNews
  rw [Bool.and_eq_true, Option.all_eq_true, Option.all_eq_true]
  simp

namespace Journal

variable {journal : Journal} {correction : Correction}

/-- The two ticks that the predictor compares with are those of the last correction that was applied and
of the last one that is news since. No correction that is news lies below either. -/
structure IsOrderly (journal : Journal) : Prop where
  waiting : journal.predictor.pending = journal.fresh.getLast?
  last : journal.predictor.lastCorrected = journal.applied.getLast?.map (·.tick)
  ascending : Correction.AreAscending (journal.applied ++ journal.fresh)
  drawn : (journal.applied ++ journal.fresh).Sublist journal.accepted

theorem IsOrderly.isNews_iff (orderly : journal.IsOrderly) :
    journal.predictor.isNews correction = true ↔
      (∀ waiting ∈ journal.fresh.getLast?, waiting.tick ≤ correction.tick) ∧
        ∀ last ∈ journal.applied.getLast?, last.tick ≤ correction.tick := by
  rw [isNews_eq_true_iff, orderly.waiting, orderly.last]
  simp

/-- What is news is no older than anything applied before, or news before. -/
theorem IsOrderly.le_of_isNews (orderly : journal.IsOrderly)
    (news : journal.predictor.isNews correction = true) :
    ∀ earlier ∈ journal.applied ++ journal.fresh, earlier.tick ≤ correction.tick := by
  obtain ⟨recent, past⟩ := orderly.isNews_iff.mp news
  obtain ⟨applied, fresh, -⟩ := List.pairwise_append.mp orderly.ascending
  intro earlier member
  rcases List.mem_append.mp member with isApplied | isFresh
  · exact Correction.AreAscending.le_of_getLast? applied past earlier isApplied
  · exact Correction.AreAscending.le_of_getLast? fresh recent earlier isFresh

theorem start_isOrderly (gait : Gait) (dt : Single) (historyLength : Nat) :
    (start gait dt historyLength).IsOrderly :=
  ⟨rfl, rfl, List.Pairwise.nil, List.Sublist.refl _⟩

theorem IsOrderly.queueCorrection (orderly : journal.IsOrderly) (correction : Correction) :
    (journal.queueCorrection correction).IsOrderly := by
  cases news : journal.predictor.isNews correction with
  | true =>
      rw [queueCorrection_of_isNews news]
      refine ⟨List.getLast?_concat.symm, orderly.last, ?_, ?_⟩
      · rw [← List.append_assoc]
        exact orderly.ascending.append_singleton (orderly.le_of_isNews news)
      · rw [← List.append_assoc]
        exact orderly.drawn.append (List.Sublist.refl _)
  | false =>
      rw [queueCorrection_of_not_isNews news]
      exact orderly

theorem IsOrderly.reconcile (orderly : journal.IsOrderly) : journal.reconcile.IsOrderly := by
  have few : (journal.applied ++ journal.predictor.pending.toList).Sublist
      (journal.applied ++ journal.fresh) := by
    apply List.Sublist.append (List.Sublist.refl _)
    rw [orderly.waiting]
    cases found : journal.fresh.getLast? with
    | none => exact List.nil_sublist _
    | some correction => exact List.singleton_sublist.mpr (List.mem_of_getLast? found)
  refine ⟨journal.predictor.reconcile_frame.2.2.1, ?_, ?_, ?_⟩
  · unfold Journal.reconcile
    cases waiting : journal.predictor.pending with
    | none =>
        rw [reconcile_of_pending_eq_none waiting, Option.toList_none, List.append_nil]
        exact orderly.last
    | some correction =>
        rw [reconcile_of_pending_eq_some waiting, Option.toList_some, List.getLast?_concat]
        exact (journal.predictor.apply_frame correction).2.2.2.1
  · unfold Journal.reconcile
    rw [List.append_nil]
    exact orderly.ascending.sublist few
  · unfold Journal.reconcile
    rw [List.append_nil]
    exact few.trans orderly.drawn

theorem IsOrderly.call (orderly : journal.IsOrderly) (call : Call) :
    (journal.call call).IsOrderly := by
  cases call with
  | reset motion => exact ⟨rfl, rfl, List.Pairwise.nil, List.Sublist.refl _⟩
  | predict tick keys =>
      have settled := orderly.reconcile
      exact ⟨settled.waiting, settled.last, settled.ascending, settled.drawn⟩
  | queueCorrection correction => exact orderly.queueCorrection correction
  | reconcile => exact orderly.reconcile

theorem run_isOrderly (gait : Gait) (dt : Single) (historyLength : Nat) (calls : List Call) :
    (run gait dt historyLength calls).IsOrderly := by
  induction calls using List.reverseRecOn with
  | nil => exact start_isOrderly gait dt historyLength
  | append_singleton calls call ih =>
      unfold run
      rw [List.foldl_append]
      exact ih.call call

/-- In every run, since the predictor last started over: corrections are applied in ascending order of
their ticks, and each one that is news once at most. A correction is news exactly where it is no older
than the one that waits and the one applied last. A reconciliation, and so also a prediction, applies the
newest of those that were news since the one before, and nothing where there were none. -/
theorem run_applies_newest (gait : Gait) (dt : Single) (historyLength : Nat) (calls : List Call) :
    let journal := run gait dt historyLength calls
    let predictor := journal.predictor
    journal.applied.Pairwise (fun earlier later => earlier.tick ≤ later.tick) ∧
    journal.applied.Sublist journal.accepted ∧
    (∀ correction, (predictor.queueCorrection correction).1 = true ↔
      (∀ waiting ∈ predictor.pending, waiting.tick ≤ correction.tick) ∧
        ∀ last ∈ journal.applied.getLast?, last.tick ≤ correction.tick) ∧
    (journal.fresh = [] →
      predictor.reconcile = (none, predictor) ∧ journal.reconcile.applied = journal.applied) ∧
    (journal.fresh ≠ [] → ∃ correction, correction.IsNewestOf journal.fresh ∧
      predictor.reconcile =
        (some (predictor.apply correction).1, (predictor.apply correction).2) ∧
      journal.reconcile.applied = journal.applied ++ [correction]) ∧
    ∀ tick keys, predictor.predict tick keys = predictor.reconcile.2.predict tick keys ∧
      (journal.predict tick keys).applied = journal.reconcile.applied := by
  intro journal predictor
  have orderly : journal.IsOrderly := run_isOrderly gait dt historyLength calls
  obtain ⟨ascending, fresh, -⟩ := List.pairwise_append.mp orderly.ascending
  refine ⟨ascending, (List.sublist_append_left _ _).trans orderly.drawn, ?_, ?_, ?_,
    fun tick keys => ⟨predictor.predict_eq_predict_reconcile tick keys, rfl⟩⟩
  · intro correction
    rw [fst_queueCorrection, orderly.isNews_iff, orderly.waiting]
  · intro quiet
    have idle : predictor.pending = none := by
      rw [orderly.waiting, quiet]
      rfl
    refine ⟨reconcile_of_pending_eq_none idle, ?_⟩
    change journal.applied ++ predictor.pending.toList = journal.applied
    rw [idle, Option.toList_none, List.append_nil]
  · intro heard
    have found := List.getLast?_eq_some_getLast heard
    have waiting := orderly.waiting.trans found
    refine ⟨_, Correction.AreAscending.isNewestOf fresh found,
      reconcile_of_pending_eq_some waiting, ?_⟩
    change journal.applied ++ journal.predictor.pending.toList = _
    rw [waiting, Option.toList_some]

end Journal

end Predictor

end Overworld
