import Mathlib.Data.List.Basic
import Mathlib.Data.Option.Basic
import Overworld.Proofs.Prediction.Journal
import Overworld.Proofs.World.Index

set_option autoImplicit false

/-!
A correction within the reach of the record is replayed over the keys that were last predicted for the
ticks after it, and that is where the same keys bring the entity in the world of the server.
-/

namespace Overworld

namespace World

/-- The world after a step for each of the keys, which an entity holds one after the other. -/
def holdInTurn (world : World) (id : EntityId) (inputs : List Keys) : World :=
  inputs.foldl (fun world keys => (world.setKeys id keys).step) world

theorem get?_step_setKeys {world : World} {id : EntityId} {entity : Entity}
    (lives : world.get? id = some entity) (keys : Keys) :
    (world.setKeys id keys).step.get? id =
      some (({ entity with keys } : Entity).step world.gait world.dt) := by
  rw [get?_step]
  unfold setKeys
  rw [get?_modify, if_pos rfl, lives]
  rfl

/-- An entity that a player controls moves by the keys that it is made to hold. -/
theorem get?_holdInTurn {world : World} {id : EntityId} {entity : Entity}
    (lives : world.get? id = some entity) (controlled : entity.behavior = .controlled)
    (inputs : List Keys) :
    ((world.holdInTurn id inputs).get? id).map (·.motion) =
      some (entity.motion.simulate inputs world.gait world.dt) := by
  unfold holdInTurn
  induction inputs generalizing world entity with
  | nil =>
      rw [List.foldl_nil, lives]
      rfl
  | cons keys rest ih =>
      have moved : (({ entity with keys } : Entity).step world.gait world.dt).motion =
          entity.motion.step keys world.gait world.dt := by
        simp [Entity.step, Behavior.advance, controlled]
      have conduct : (({ entity with keys } : Entity).step world.gait world.dt).behavior =
          .controlled := by
        simp [Entity.step, Behavior.advance, controlled]
      rw [List.foldl_cons, ih (get?_step_setKeys lives keys) conduct, moved]
      rfl

end World

namespace KeyHistory

/-- Keys contradict the record where it has other ones for the tick. -/
theorem all_keysAt?_eq_false_iff {history : KeyHistory} {tick : Tick} {held : Keys} :
    (history.keysAt? tick).all (· = held) = false ↔
      ∃ keys, (tick, keys) ∈ history.entries ∧ keys ≠ held := by
  simp only [← keysAt?_eq_some_iff]
  cases history.keysAt? tick <;> simp

end KeyHistory

namespace Predictor

namespace Journal

variable {journal : Journal} {gait : Gait} {dt : Single}

/-- The keys that a correction replays are those last predicted for the ticks after it. -/
theorem IsKept.map_some_after (kept : journal.IsKept gait dt) {tick newest : Tick}
    (held : journal.predictor.history.newest? = some newest)
    (reaches : newest.toNat ≤ tick.toNat + journal.predictor.history.entries.length) :
    ((journal.predictor.history.after tick).map (·.2)).map some =
      (Tick.between tick newest).map journal.lastKeys? := by
  rw [← KeyHistory.ticks_after held reaches, List.map_map, List.map_map]
  apply List.map_congr_left
  intro entry member
  exact (kept.lastKeys?_of_mem (KeyHistory.mem_after.mp member).1).symm

/-- A correction that the record reaches is replayed over the keys last predicted since. -/
theorem IsKept.replays (kept : journal.IsKept gait dt) {correction : Correction}
    {oldest newest : Tick} (waiting : journal.predictor.pending = some correction)
    (first : journal.predictor.history.oldest? = some oldest)
    (last : journal.predictor.history.newest? = some newest)
    (reaches : oldest.toNat ≤ correction.tick.toNat + 1) :
    ∃ inputs error matched,
      inputs.map some = (Tick.between correction.tick newest).map journal.lastKeys? ∧
      journal.predictor.reconcile =
        (some (.replayed correction.tick inputs.length error matched),
          { journal.predictor with
            pending := none
            lastCorrected := some correction.tick
            motion := correction.motion.simulate inputs gait dt }) ∧
      (matched = false ↔ ∃ keys, (correction.tick, keys) ∈ journal.predictor.history.entries ∧
        keys ≠ correction.keys) := by
  have covered : newest.toNat ≤
      correction.tick.toNat + journal.predictor.history.entries.length := by
    obtain ⟨_, found, place⟩ := KeyHistory.oldest?_of_newest? last
    rw [first] at found
    cases found
    omega
  have replayable := (isReplayable_iff_oldest first correction.tick).mpr reaches
  obtain ⟨error, applied⟩ := apply_of_isReplayable correction replayable
  refine ⟨_, error, _, kept.map_some_after last covered, ?_, KeyHistory.all_keysAt?_eq_false_iff⟩
  rw [reconcile_of_pending_eq_some waiting, applied, List.length_map, ← kept.gait, ← kept.dt]

/-- In every run, a correction that waits while the record reaches back to the tick after it has the
predictor stand where the keys last predicted for all later ticks lead from the word of the server. An
entity of the server that was there, and holds the same keys in turn, comes to the same place. The
record stays as it is; it contradicts the correction where it has other keys for the corrected tick. -/
theorem run_replays_record (gait : Gait) (dt : Single) (historyLength : Nat) (calls : List Call) :
    let journal := run gait dt historyLength calls
    let predictor := journal.predictor
    ∀ correction oldest newest, predictor.pending = some correction →
      predictor.history.oldest? = some oldest → predictor.history.newest? = some newest →
      oldest.toNat ≤ correction.tick.toNat + 1 →
      ∃ inputs error matched,
        inputs.map some = (Tick.between correction.tick newest).map journal.lastKeys? ∧
        predictor.reconcile =
          (some (.replayed correction.tick inputs.length error matched),
            { predictor with
              pending := none
              lastCorrected := some correction.tick
              motion := correction.motion.simulate inputs gait dt }) ∧
        (matched = false ↔
          ∃ keys, (correction.tick, keys) ∈ predictor.history.entries ∧ keys ≠ correction.keys) ∧
        ∀ (world : World) id entity, world.gait = gait → world.dt = dt →
          world.get? id = some entity → entity.behavior = .controlled →
          entity.motion = correction.motion →
          ((world.holdInTurn id inputs).get? id).map (·.motion) =
            some predictor.reconcile.2.motion := by
  intro journal predictor correction oldest newest waiting first last reaches
  obtain ⟨inputs, error, matched, areLast, reconciled, contradicts⟩ :=
    (run_isKept gait dt historyLength calls).replays waiting first last reaches
  refine ⟨inputs, error, matched, areLast, reconciled, contradicts, ?_⟩
  rintro world id entity rfl rfl lives controlled stood
  rw [World.get?_holdInTurn lives controlled, reconciled, stood]

/-- Tick 6 is predicted a second time, so the record starts over there, and then comes the word on
tick 5. -/
def rewound : List Call :=
  [.predict 5 .neutral, .predict 6 .neutral, .predict 7 .neutral,
    .predict 6 (Keys.neutral.press .right), .predict 7 (Keys.neutral.press .down),
    .queueCorrection ⟨5, .atRest .zero, .neutral⟩]

theorem rewound_record_is_replayed :
    let predictor := (run .standard standardStep standardHistory rewound).predictor
    predictor.pending = some ⟨5, .atRest .zero, .neutral⟩ ∧
    predictor.history.oldest? = some 6 ∧ predictor.history.newest? = some 7 ∧
    ∃ error matched,
      predictor.reconcile.1 = some (.replayed 5 2 error matched) ∧
      predictor.reconcile.2.motion = (Motion.atRest .zero).simulate
        [Keys.neutral.press .right, Keys.neutral.press .down] .standard standardStep := by
  intro predictor
  have waiting : predictor.pending = some ⟨5, .atRest .zero, .neutral⟩ := rfl
  have first : predictor.history.oldest? = some 6 := rfl
  have last : predictor.history.newest? = some 7 := rfl
  refine ⟨waiting, first, last, ?_⟩
  obtain ⟨inputs, error, matched, areLast, reconciled, -, -⟩ := run_replays_record .standard
    standardStep standardHistory rewound _ _ _ waiting first last (by decide)
  have known : inputs.map some = [Keys.neutral.press .right, Keys.neutral.press .down].map some :=
    areLast.trans rfl
  have same := List.map_injective_iff.mpr (Option.some_injective Keys) known
  rw [same] at reconciled
  refine ⟨error, matched, ?_, ?_⟩
  · exact congrArg Prod.fst reconciled
  · change (run .standard standardStep standardHistory rewound).predictor.reconcile.2.motion = _
    rw [reconciled]

end Journal

end Predictor

end Overworld
