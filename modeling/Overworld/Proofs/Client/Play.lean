import Overworld.Client.Player
import Overworld.Proofs.Replication.Feed

set_option autoImplicit false

/-!
A client that hears messages and takes local steps in any order. Its own entity is settled by the
welcome it hears first, and its replicas follow the messages alone.
-/

namespace Overworld

namespace Player

inductive Call
  | hear (message : ServerMessage)
  | step
  | setKeys (keys : Keys)
deriving DecidableEq

def call (player : Player) : Call → Player
  | .hear message => (player.handle message).2
  | .step => player.step.2
  | .setKeys keys => player.setKeys keys

/-- The messages heard in a run of calls, in order. -/
def Call.heard (calls : List Call) : List ServerMessage :=
  calls.filterMap fun
    | .hear message => some message
    | _ => none

/-- The client knows its entity and will not take another. -/
def HasJoined (player : Player) (own : EntityId) : Prop :=
  player.entity = some own ∧ player.state ≠ .connecting

/-- The client waits for its welcome. -/
def IsWaiting (player : Player) : Prop :=
  player.state = .connecting ∧ player.replicas = .empty

variable {player : Player} {own : EntityId}

theorem report_frame (player : Player) (tick : Tick) :
    (player.report tick).entity = player.entity ∧ (player.report tick).state = player.state ∧
      (player.report tick).replicas = player.replicas := by
  unfold report
  split <;> exact ⟨rfl, rfl, rfl⟩

theorem step_frame (player : Player) :
    player.step.2.entity = player.entity ∧ player.step.2.state = player.state ∧
      player.step.2.replicas = player.replicas := by
  unfold step
  split
  · exact report_frame _ _
  · exact ⟨rfl, rfl, rfl⟩

/-! ### After the welcome -/

theorem HasJoined.handle (joined : player.HasJoined own) (message : ServerMessage) :
    (player.handle message).2.HasJoined own ∧
      (player.handle message).2.replicas = player.replicas.follow own message := by
  obtain ⟨entity, state⟩ := joined
  cases message with
  | connectionResponse tick other spawn =>
      simp only [Player.handle, welcome, if_neg state]
      exact ⟨⟨entity, state⟩, rfl⟩
  | entityUpdate snapshot =>
      change (player.update snapshot).HasJoined own ∧ (player.update snapshot).replicas =
        if snapshot.entity = own then player.replicas
        else (player.replicas.update? snapshot).getD player.replicas
      unfold Player.update
      by_cases mine : snapshot.entity = own
      · rw [if_pos (by rw [entity, mine]), if_pos mine]
        exact ⟨⟨entity, state⟩, rfl⟩
      · rw [if_neg (by simpa [entity, eq_comm] using mine), if_neg mine]
        exact ⟨⟨entity, state⟩, rfl⟩
  | entityEntered snapshot =>
      change (player.enter snapshot).HasJoined own ∧ (player.enter snapshot).replicas =
        if snapshot.entity = own then player.replicas else player.replicas.enter snapshot
      unfold Player.enter
      by_cases mine : snapshot.entity = own
      · rw [if_pos (by rw [entity, mine]), if_pos mine]
        exact ⟨⟨entity, state⟩, rfl⟩
      · rw [if_neg (by simpa [entity, eq_comm] using mine), if_neg mine]
        exact ⟨⟨entity, state⟩, rfl⟩
  | entityLeft tick other => exact ⟨⟨entity, state⟩, rfl⟩
  | chunkData chunk =>
      unfold Player.handle
      dsimp only
      split <;> exact ⟨⟨entity, state⟩, rfl⟩
  | tickAdjustment delta =>
      unfold Player.handle Player.adjust
      dsimp only
      split
      · exact ⟨⟨entity, state⟩, rfl⟩
      · exact ⟨⟨entity, by simp [say]⟩, rfl⟩
  | kicked reason => exact ⟨⟨entity, by simp [Player.handle]⟩, rfl⟩

theorem HasJoined.foldl (joined : player.HasJoined own) (calls : List Call) :
    (calls.foldl Player.call player).replicas =
      (Call.heard calls).foldl (Replicas.follow own) player.replicas := by
  induction calls generalizing player with
  | nil => rfl
  | cons first rest ih =>
      cases first with
      | hear message =>
          obtain ⟨after, replicas⟩ := joined.handle message
          exact (ih after).trans
            (congrArg (List.foldl (Replicas.follow own) · (Call.heard rest)) replicas)
      | step =>
          obtain ⟨entity, state, replicas⟩ := player.step_frame
          have after : player.step.2.HasJoined own :=
            ⟨entity.trans joined.1, fun same => joined.2 (state.symm.trans same)⟩
          exact (ih after).trans
            (congrArg (List.foldl (Replicas.follow own) · (Call.heard rest)) replicas)
      | setKeys keys => exact ih joined

/-! ### Before the welcome -/

theorem IsWaiting.welcome (waiting : player.IsWaiting) (tick : Tick) (own : EntityId)
    (spawn : Vec3) :
    (player.welcome tick own spawn).HasJoined own ∧
      (player.welcome tick own spawn).replicas = .empty := by
  unfold Player.welcome
  rw [if_pos waiting.1]
  exact ⟨⟨rfl, by simp⟩, waiting.2⟩

theorem IsWaiting.step (waiting : player.IsWaiting) : player.step.2 = player := by
  unfold Player.step
  rw [if_neg]
  simp [waiting.1]

/-- Whatever steps lie between the messages, the replicas are those the messages lead to. -/
theorem IsWaiting.replicas_foldl (waiting : player.IsWaiting) {calls : List Call} {tick : Tick}
    {spawn : Vec3} {rest : List ServerMessage}
    (heard : Call.heard calls = .connectionResponse tick own spawn :: rest) :
    (calls.foldl Player.call player).replicas =
      (Call.heard calls).foldl (Replicas.follow own) .empty := by
  induction calls generalizing player with
  | nil => cases heard
  | cons first later ih =>
      cases first with
      | hear message =>
          obtain ⟨rfl, same⟩ := List.cons.inj heard
          obtain ⟨joined, none⟩ := waiting.welcome tick own spawn
          rw [List.foldl_cons]
          have follows := joined.foldl later
          rw [none] at follows
          exact follows
      | step =>
          rw [List.foldl_cons]
          change (later.foldl Player.call player.step.2).replicas = _
          rw [waiting.step]
          exact ih waiting heard
      | setKeys keys => exact ih waiting heard

theorem isWaiting_ofRules (rules : PlayerRules) : (ofRules rules).IsWaiting := ⟨rfl, rfl⟩

end Player

end Overworld
