import Overworld.Proofs.Replication.Connection
import Overworld.Proofs.Session.Service

set_option autoImplicit false

/-!
The phases of a tick after the events, for one client: its input reaches its entity, the entity
moves, and the client is told of it.
-/

namespace Overworld

namespace Session

variable {session : Session} {now : Nat} {tick : Tick} {client : ClientId}
  {standing : Standing}

theorem get?_setKeys_foldl {entity id : EntityId} (different : id ≠ entity)
    (ready : List (Tick × Keys)) (world : World) :
    (ready.foldl (fun world entry => world.setKeys entity entry.2) world).get? id =
      world.get? id := by
  induction ready generalizing world with
  | nil => rfl
  | cons entry rest ih =>
      have one : (world.setKeys entity entry.2).get? id = world.get? id := by
        unfold World.setKeys
        rw [World.get?_modify, if_neg different]
      exact (ih (world.setKeys entity entry.2)).trans one

theorem world_releaseFor {connection : Connection}
    (found : session.connection? client = some connection) :
    (session.releaseFor client).world =
        (connection.sequencer.release session.tick).1.foldl
          (fun world entry => world.setKeys connection.entity entry.2) session.world ∧
      (session.releaseFor client).outbound = session.outbound := by
  unfold releaseFor
  rw [found]
  exact ⟨rfl, rfl⟩

variable {own : EntityId} {held next last : Keys} {motion : Motion} {letters : List ServerMessage}

theorem spares_releaseFor (serves : session.Serves now tick client standing) :
    session.Spares (session.releaseFor client) client standing.own := by
  obtain ⟨connection, found, entity, -⟩ := serves.connected
  obtain ⟨world, outbound⟩ := world_releaseFor found
  refine ⟨?_, ?_, ?_⟩
  · intro other different
    rw [connection?_releaseFor, if_neg different]
  · intro id different
    rw [world]
    exact get?_setKeys_foldl (entity ▸ different) _ _
  · intro other _
    rw [outbound]

/-- The input that is due reaches the entity, and the one after it waits. -/
theorem Serves.releaseFor
    (serves : session.Serves now tick client
      ⟨own, due (tick + 1) held next ++ due (tick + 2) next last, held, motion, letters⟩)
    (begun : session.tick = tick + 1) (room : tick.toNat + 2 < 18446744073709551616) :
    (session.releaseFor client).Serves now (tick + 1) client
      ⟨own, due (tick + 2) next last, next, motion, letters⟩ := by
  obtain ⟨connection, found, entity, active, calm⟩ := serves.connected
  obtain ⟨owner, lives, controlled, keys, moving⟩ := serves.controls
  obtain ⟨world, outbound⟩ := world_releaseFor found
  have one := Tick.toNat_add_one tick (by omega)
  have two := Tick.toNat_add_two tick room
  have soon : tick ≤ tick + 1 := UInt64.le_iff_toNat_le.mpr (by omega)
  have later : tick + 1 < tick + 2 := UInt64.lt_iff_toNat_lt.mpr (by omega)
  have isDue : ∀ entry ∈ due (tick + 1) held next, entry.1 ≤ tick + 1 := by
    intro entry member
    unfold due at member
    split at member
    · cases member
    · rw [List.mem_singleton.mp member]
      exact UInt64.le_refl _
  have isLater : ∀ entry ∈ due (tick + 2) next last, tick + 1 < entry.1 := by
    intro entry member
    unfold due at member
    split at member
    · cases member
    · rw [List.mem_singleton.mp member]
      exact later
  obtain ⟨out, calmAfter⟩ := calm.release soon isDue isLater
  rw [begun, out, entity] at world
  refine ⟨⟨{ connection with sequencer := (connection.sequencer.release (tick + 1)).2 }, ?_, entity,
    active, calmAfter⟩, ?_, ?_⟩
  · rw [connection?_releaseFor, if_pos rfl, found, begun]
    rfl
  · rw [world]
    unfold due
    by_cases same : next = held
    · rw [if_pos same]
      exact ⟨owner, lives, controlled, keys.trans same.symm, moving⟩
    · rw [if_neg same]
      refine ⟨{ owner with keys := next }, ?_, controlled, rfl, moving⟩
      change (session.world.setKeys own next).get? own = _
      unfold World.setKeys
      rw [World.get?_modify, if_pos rfl, lives, Option.map_some]
  · rw [outbound]
    exact serves.queued

theorem Serves.move (serves : session.Serves now tick client standing)
    (gait : session.world.gait = .standard) (dt : session.world.dt = standardStep) :
    (session.onWorld fun world => world.step.syncGrid).Serves now tick client
      { standing with motion := standing.motion.step standing.keys .standard standardStep } := by
  obtain ⟨owner, lives, controlled, keys, moving⟩ := serves.controls
  refine ⟨serves.connected, ⟨owner.step session.world.gait session.world.dt, ?_, ?_, ?_, ?_⟩,
    serves.queued⟩
  · change session.world.step.get? standing.own = _
    rw [World.get?_step, lives, Option.map_some]
  · simp [Entity.step, Behavior.advance, controlled]
  · simp [Entity.step, Behavior.advance, controlled, keys]
  · simp [Entity.step, Behavior.advance, controlled, keys, moving, gait, dt]

theorem Serves.endTick (serves : session.Serves now tick client standing) :
    (session.onWorld World.clearDirty).recordLevels.Serves now tick client standing := by
  obtain ⟨owner, lives, controlled, keys, moving⟩ := serves.controls
  refine ⟨serves.connected, ⟨{ owner with dirty := false }, ?_, controlled, keys, moving⟩,
    serves.queued⟩
  change session.world.clearDirty.get? standing.own = _
  rw [World.get?_clearDirty, lives, Option.map_some]

/-- Among all that a client is told is one word on its own entity. -/
theorem carry_replicate {connection : Connection} {world : World} {owner : Entity}
    (found : world.get? connection.entity = some owner) (map : TileMap) :
    ServerMessage.Carry (.ofEntity world.tick connection.entity owner)
      (connection.replicate world map).messages := by
  obtain ⟨visible, looked⟩ : ∃ visible, (connection.interest.update connection.entity
    owner.motion.position world.grid).2.visible = visible := ⟨_, rfl⟩
  obtain ⟨interest, streamer, chunks, updates, -, isUpdates, replicated, -⟩ :=
    connection.replicate_eq found map looked
  rw [replicated]
  refine ⟨_, updates.map .entityUpdate, List.append_assoc .., ?_, ?_⟩
  · intro message member
    simp only [List.mem_append, List.mem_map] at member
    rcases member with (⟨id, -, rfl⟩ | ⟨arrival, -, rfl⟩) | ⟨chunk, -, rfl⟩ <;> rfl
  · intro message member
    obtain ⟨update, isUpdate, rfl⟩ := List.mem_map.mp member
    rw [isUpdates] at isUpdate
    have seen := (Connection.mem_updates isUpdate).1
    rw [← looked] at seen
    have foreign : update.entity ≠ connection.entity := Interest.ne_of_mem_visible_update seen
    simpa [ServerMessage.isForeign, Snapshot.ofEntity] using foreign

theorem frame_replicateFor {connection : Connection}
    (found : session.connection? client = some connection) :
    (session.replicateFor client).world = session.world ∧
      (session.replicateFor client).outbound.toList = session.outbound.toList ++
        (connection.replicate session.world session.map).messages.map fun message =>
          ⟨client, .message message⟩ := by
  unfold replicateFor
  rw [found]
  exact ⟨world_sendAll _ client _, outbound_sendAll _ client _⟩

theorem spares_replicateFor (serves : session.Serves now tick client standing) :
    session.Spares (session.replicateFor client) client standing.own := by
  obtain ⟨connection, found, -⟩ := serves.connected
  obtain ⟨world, outbound⟩ := frame_replicateFor found
  refine ⟨?_, ?_, ?_⟩
  · intro other different
    rw [connection?_replicateFor, if_neg different]
  · intro id _
    rw [world]
  · intro other different
    rw [outbound, dispatchesTo_append, dispatchesTo_messages, if_neg different, List.append_nil]

theorem replicate_frame (connection : Connection) (world : World) (map : TileMap) :
    (connection.replicate world map).connection.entity = connection.entity ∧
      (connection.replicate world map).connection.sequencer = connection.sequencer ∧
      (connection.replicate world map).connection.lastActivity = connection.lastActivity := by
  unfold Connection.replicate
  split <;> exact ⟨rfl, rfl, rfl⟩

/-- A turn of replication ends with one word on the client's own entity, as it stands. -/
theorem Serves.replicateFor (serves : session.Serves now tick client standing) :
    ∃ batch snapshot,
      (session.replicateFor client).Serves now tick client
        { standing with letters := standing.letters ++ batch } ∧
      ServerMessage.Carry snapshot batch ∧ snapshot.entity = standing.own ∧
      snapshot.tick = session.tick ∧ snapshot.motion = standing.motion ∧
      snapshot.keys = standing.keys := by
  obtain ⟨connection, found, entity, active, calm⟩ := serves.connected
  obtain ⟨owner, lives, controlled, keys, moving⟩ := serves.controls
  obtain ⟨world, outbound⟩ := frame_replicateFor found
  obtain ⟨sameEntity, sameSequencer, sameActivity⟩ :=
    replicate_frame connection session.world session.map
  obtain ⟨sent, counted⟩ := exists_recordSents (connection.replicate session.world session.map).messages
    (connection.replicate session.world session.map).connection
  have carry := carry_replicate (entity ▸ lives) session.map
  have kept := session.connection?_replicateFor client client
  rw [if_pos rfl, found, Option.map_some, counted] at kept
  refine ⟨(connection.replicate session.world session.map).messages, _, ⟨⟨_, kept, ?_, ?_, ?_⟩, ?_, ?_⟩,
    carry, entity, rfl, moving, keys⟩
  · exact sameEntity.trans entity
  · exact sameActivity.trans active
  · rw [sameSequencer]
    exact calm
  · rw [world]
    exact serves.controls
  · rw [outbound, dispatchesTo_append, dispatchesTo_messages, if_pos rfl, serves.queued,
      List.map_append]

end Session

end Overworld
