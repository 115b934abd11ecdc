import Mathlib.Data.List.Induction
import Overworld.Proofs.Prediction.Reconciliation

set_option autoImplicit false

/-!
Runs of a predictor with a journal beside it: the keys of every prediction, the corrections that were
news, and those that were applied. What the predictor has on record are the last pages of the journal.
-/

namespace Overworld

namespace Predictor

inductive Call
  | reset (motion : Motion)
  | predict (tick : Tick) (keys : Keys)
  | queueCorrection (correction : Correction)
  | reconcile
deriving DecidableEq

structure Journal where
  predictor : Predictor
  /-- Every prediction, oldest first. -/
  predicted : List (Tick × Keys)
  /-- Corrections that were news, since the predictor last started over. -/
  accepted : List Correction
  /-- Those of them that came after the last reconciliation. -/
  fresh : List Correction
  /-- Corrections that were applied, since the predictor last started over. -/
  applied : List Correction

namespace Journal

def start (gait : Gait) (dt : Single) (historyLength : Nat) : Journal :=
  ⟨.create gait dt historyLength, [], [], [], []⟩

def reset (journal : Journal) (motion : Motion) : Journal :=
  { journal with
    predictor := journal.predictor.reset motion
    accepted := []
    fresh := []
    applied := [] }

def queueCorrection (journal : Journal) (correction : Correction) : Journal :=
  match journal.predictor.queueCorrection correction with
  | (true, predictor) =>
    { journal with
      predictor
      accepted := journal.accepted ++ [correction]
      fresh := journal.fresh ++ [correction] }
  | (false, predictor) => { journal with predictor }

/-- A reconciliation applies the correction that waits. -/
def reconcile (journal : Journal) : Journal :=
  { journal with
    predictor := journal.predictor.reconcile.2
    fresh := []
    applied := journal.applied ++ journal.predictor.pending.toList }

/-- A prediction reconciles first. -/
def predict (journal : Journal) (tick : Tick) (keys : Keys) : Journal :=
  { journal.reconcile with
    predictor := journal.predictor.predict tick keys
    predicted := journal.predicted ++ [(tick, keys)] }

def call (journal : Journal) : Call → Journal
  | .reset motion => journal.reset motion
  | .predict tick keys => journal.predict tick keys
  | .queueCorrection correction => journal.queueCorrection correction
  | .reconcile => journal.reconcile

def run (gait : Gait) (dt : Single) (historyLength : Nat) (calls : List Call) : Journal :=
  calls.foldl call (start gait dt historyLength)

/-- The keys last predicted for a tick. -/
def lastKeys? (journal : Journal) (tick : Tick) : Option Keys :=
  journal.predicted.reverse.lookup tick

variable {journal : Journal} {gait : Gait} {dt : Single}

theorem queueCorrection_of_isNews {correction : Correction}
    (news : journal.predictor.isNews correction = true) :
    journal.queueCorrection correction =
      { journal with
        predictor := { journal.predictor with pending := some correction }
        accepted := journal.accepted ++ [correction]
        fresh := journal.fresh ++ [correction] } := by
  unfold Journal.queueCorrection
  rw [Predictor.queueCorrection_of_isNews news]

theorem queueCorrection_of_not_isNews {correction : Correction}
    (old : journal.predictor.isNews correction = false) :
    journal.queueCorrection correction = journal := by
  unfold Journal.queueCorrection Predictor.queueCorrection
  rw [old]
  rfl

/-- The predictor moves as it did from the start, and its record is the end of the journal. -/
structure IsKept (gait : Gait) (dt : Single) (journal : Journal) : Prop where
  gait : journal.predictor.gait = gait
  dt : journal.predictor.dt = dt
  recorded : journal.predictor.history.entries <+: journal.predicted.reverse

theorem start_isKept (gait : Gait) (dt : Single) (historyLength : Nat) :
    (start gait dt historyLength).IsKept gait dt :=
  ⟨rfl, rfl, List.prefix_refl _⟩

theorem IsKept.queueCorrection (kept : journal.IsKept gait dt) (correction : Correction) :
    (journal.queueCorrection correction).IsKept gait dt := by
  cases news : journal.predictor.isNews correction with
  | true =>
      rw [queueCorrection_of_isNews news]
      exact ⟨kept.gait, kept.dt, kept.recorded⟩
  | false =>
      rw [queueCorrection_of_not_isNews news]
      exact kept

theorem IsKept.reconcile (kept : journal.IsKept gait dt) : journal.reconcile.IsKept gait dt := by
  obtain ⟨sameGait, sameDt, -, record⟩ := journal.predictor.reconcile_frame
  exact ⟨sameGait.trans kept.gait, sameDt.trans kept.dt, record.trans kept.recorded⟩

theorem IsKept.predict (kept : journal.IsKept gait dt) (tick : Tick) (keys : Keys) :
    (journal.predict tick keys).IsKept gait dt := by
  have settled := kept.reconcile
  refine ⟨settled.gait, settled.dt, ?_⟩
  change (journal.predictor.reconcile.2.history.push tick keys).entries <+:
    (journal.predicted ++ [(tick, keys)]).reverse
  rw [List.reverse_append]
  exact (KeyHistory.entries_push_isPrefix _ tick keys).trans
    ((List.prefix_cons_inj _).mpr settled.recorded)

theorem IsKept.call (kept : journal.IsKept gait dt) (call : Call) :
    (journal.call call).IsKept gait dt := by
  cases call with
  | reset motion => exact ⟨kept.gait, kept.dt, List.nil_prefix⟩
  | predict tick keys => exact kept.predict tick keys
  | queueCorrection correction => exact kept.queueCorrection correction
  | reconcile => exact kept.reconcile

theorem run_isKept (gait : Gait) (dt : Single) (historyLength : Nat) (calls : List Call) :
    (run gait dt historyLength calls).IsKept gait dt := by
  induction calls using List.reverseRecOn with
  | nil => exact start_isKept gait dt historyLength
  | append_singleton calls call ih =>
      unfold run
      rw [List.foldl_append]
      exact ih.call call

/-- What is on record for a tick is what was last predicted for it. -/
theorem IsKept.lastKeys?_of_mem (kept : journal.IsKept gait dt) {tick : Tick} {keys : Keys}
    (member : (tick, keys) ∈ journal.predictor.history.entries) :
    journal.lastKeys? tick = some keys :=
  KeyHistory.lookup_of_mem kept.recorded member

end Journal

end Predictor

end Overworld
