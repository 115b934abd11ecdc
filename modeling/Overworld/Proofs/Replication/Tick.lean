import Overworld.Proofs.Replication.Session
import Overworld.Proofs.Session.Frame

set_option autoImplicit false

/-!
Clients stay told through everything that a session does: those that come and go within one tick,
and all that happens between ticks.
-/

namespace Overworld

namespace Session

variable {session : Session} {earlier : List Outbound} {tick : Tick}

theorem KeepsTold.tellLeft (keeps : session.KeepsTold earlier tick) (gone : EntityId)
    (client : ClientId) : (session.tellLeft gone client).KeepsTold earlier tick := by
  unfold Session.tellLeft
  cases held : session.connection? client with
  | none => exact keeps
  | some connection =>
      dsimp only
      by_cases seen : connection.interest.isVisible gone = true
      · rw [if_pos seen]
        apply KeepsTold.onMetrics
        intro numbered
        have agrees := keeps numbered
        refine ⟨agrees.tick_eq, agrees.indexed, ?_⟩
        intro other found isFound
        rw [connection?_send, connection?_modifyConnection] at isFound
        rw [feed_send _ _ _ _ rfl]
        by_cases isClient : client = other
        · subst isClient
          rw [if_pos rfl, if_pos rfl, held, Option.map_some, Option.map_some] at isFound
          cases isFound
          rw [if_pos rfl]
          have visible : gone ∈ connection.interest.visible := by
            simpa [Interest.isVisible] using seen
          have told := (agrees.told client connection held).forget visible
          rw [show session.tick = tick from agrees.tick_eq]
          exact told.of_hasSameView (hasSameView_recordSent _)
        · rw [if_neg isClient, if_neg isClient] at isFound
          rw [if_neg isClient]
          exact agrees.told other found isFound
      · rw [if_neg seen]
        exact keeps

theorem KeepsTold.disconnect (keeps : session.KeepsTold earlier tick) (visiting : Visiting)
    (client : ClientId) (fault : Option ConnectionFault) :
    (session.disconnect visiting client fault).KeepsTold earlier tick := by
  cases found : session.connection? client with
  | none =>
      unfold Session.disconnect
      rw [found]
      exact keeps
  | some connection =>
      obtain ⟨parted, told, removed, isParted, isTold, isRemoved, left⟩ :=
        disconnect_cases found visiting fault
      rw [left]
      have partedKeeps : parted.KeepsTold earlier tick := by
        rw [isParted]
        exact keeps.erase client
      have toldKeeps : told.KeepsTold earlier tick := by
        rcases isTold with ⟨-, rfl⟩ | ⟨reason, -, rfl⟩
        · exact partedKeeps
        · exact (partedKeeps.onMetrics _).sendAside client rfl
      have removedKeeps : removed.KeepsTold earlier tick := by
        rcases isRemoved with ⟨-, rfl⟩ | ⟨entity, world, gone, rfl⟩
        · exact toldKeeps.close client
        · exact (toldKeeps.close client).withWorld (World.despawn_frame gone).1
            (World.places_despawn gone) fun indexed => indexed.despawn gone
      exact KeepsTold.foldl _ (fun _ other keeps => keeps.tellLeft connection.entity other)
        removedKeeps

theorem KeepsTold.connect (keeps : session.KeepsTold earlier tick) (client : ClientId)
    (endpoint : Endpoint) (now : Nat) :
    (session.connect client endpoint now).KeepsTold earlier tick := by
  obtain ⟨-, same⟩ | ⟨-, -, refused⟩ |
    ⟨-, -, place, random, entity, world, joined, -, came, isJoined, accepted⟩ :=
    session.connect_cases client endpoint now
  · rw [same]
    exact keeps
  · rw [refused]
    exact ((keeps.sendAside client rfl).close client).onMetrics _
  · rw [accepted]
    intro numbered
    have sameWorld : joined.world = world := by rw [isJoined]
    have queued : joined.outbound = session.outbound := by rw [isJoined]
    have members := connection?_of_insert (congrArg Session.connections isJoined)
    change joined.world.places ≤ 4294967296 at numbered
    rw [sameWorld] at numbered
    have grown := World.places_spawn came
    have agrees := keeps (by omega)
    refine ⟨?_, ?_, ?_⟩
    · change joined.world.tick = tick
      rw [sameWorld, World.tick_spawn came]
      exact agrees.tick_eq
    · change joined.world.IndexesEntities
      rw [sameWorld]
      exact agrees.indexed.spawn came numbered
    · intro other connection found
      rw [connection?_send, members] at found
      rw [feed_welcome]
      by_cases isClient : client = other
      · rw [if_pos isClient, if_pos isClient, Option.map_some] at found
        rw [if_pos isClient, World.tick_spawn came, agrees.tick_eq]
        cases found
        exact (Connection.isTold_opened ..).of_hasSameView (hasSameView_recordSent _)
      · rw [if_neg isClient, if_neg isClient] at found
        rw [if_neg isClient]
        have told := agrees.told other connection found
        unfold feed at told ⊢
        rw [queued]
        exact told

theorem KeepsTold.withSequencer (keeps : session.KeepsTold earlier tick) (client : ClientId)
    (sequencer : Sequencer) :
    (session.modifyConnection client fun connection =>
      { connection with sequencer }).KeepsTold earlier tick :=
  keeps.modifyConnection client fun _ _ => ⟨rfl, rfl, rfl⟩

theorem KeepsTold.sendAdjustment (keeps : session.KeepsTold earlier tick) (client : ClientId) :
    (session.sendAdjustment client).KeepsTold earlier tick := by
  unfold Session.sendAdjustment
  cases session.connection? client with
  | none => exact keeps
  | some connection =>
      have taken := keeps.withSequencer client connection.sequencer.takeAdjustment.2
      dsimp only
      cases connection.sequencer.takeAdjustment.1 with
      | none => exact taken
      | some delta => exact (taken.onMetrics _).sendAside client rfl

theorem KeepsTold.recordAdmission (keeps : session.KeepsTold earlier tick) (entity : EntityId)
    (admission : Admission) : (session.recordAdmission entity admission).KeepsTold earlier tick := by
  cases admission with
  | accepted => exact keeps.onMetrics _
  | dropped reason =>
      have neutral : ({ session with world := session.world.neutralize entity } :
          Session).KeepsTold earlier tick :=
        keeps.withWorld rfl (World.places_modify ..) fun indexed => indexed.modify entity _
      exact neutral.of_same rfl rfl rfl

theorem KeepsTold.receiveInput (keeps : session.KeepsTold earlier tick) (visiting : Visiting)
    (client : ClientId) (tagged : Tick) (keys : Keys) :
    (session.receiveInput visiting client tagged keys).KeepsTold earlier tick := by
  unfold Session.receiveInput
  split
  · exact keeps
  · split
    · exact keeps.disconnect visiting client _
    · exact ((keeps.withSequencer client _).recordAdmission _ _).sendAdjustment client

theorem KeepsTold.receiveHeartbeat (keeps : session.KeepsTold earlier tick) (visiting : Visiting)
    (client : ClientId) (shown : Tick) :
    (session.receiveHeartbeat visiting client shown).KeepsTold earlier tick := by
  unfold Session.receiveHeartbeat
  split
  · exact keeps
  · split
    · exact keeps.disconnect visiting client _
    · exact (keeps.withSequencer client _).sendAdjustment client

theorem KeepsTold.handle (keeps : session.KeepsTold earlier tick) (visiting : Visiting) (now : Nat)
    (event : InboundEvent) : (session.handle visiting now event).KeepsTold earlier tick := by
  unfold Session.handle
  split
  · exact keeps.connect event.client _ now
  · exact keeps.disconnect visiting event.client none
  · rename_i message _
    split
    · have received : (session.modifyConnection event.client
          (·.recordReceived event.bytes now)).KeepsTold earlier tick :=
        keeps.modifyConnection event.client fun _ _ => ⟨rfl, rfl, rfl⟩
      have counted : ({ session.modifyConnection event.client
            (·.recordReceived event.bytes now) with
          metrics := session.metrics.recordReceived event.bytes } :
          Session).KeepsTold earlier tick := received.of_same rfl rfl rfl
      cases message with
      | input tagged keys => exact counted.receiveInput visiting event.client tagged keys
      | heartbeat shown => exact counted.receiveHeartbeat visiting event.client shown
      | disconnect => exact counted.disconnect visiting event.client none
    · exact keeps

theorem KeepsTold.handleAll (keeps : session.KeepsTold earlier tick) (visiting : Visiting)
    (now : Nat) : (session.handleAll visiting now).KeepsTold earlier tick :=
  KeepsTold.foldl _ (fun _ event keeps => keeps.handle visiting now event)
    (keeps.of_same rfl rfl rfl)

theorem KeepsTold.dropSilent (keeps : session.KeepsTold earlier tick) (visiting : Visiting)
    (now : Nat) : (session.dropSilent visiting now).KeepsTold earlier tick := by
  exact KeepsTold.foldl _ (fun _ _ keeps => (keeps.onMetrics _).disconnect visiting _ _) keeps

theorem indexesEntities_setKeys_foldl (entity : EntityId) (ready : List (Tick × Keys))
    {world : World} (indexed : world.IndexesEntities) :
    (ready.foldl (fun world (_, keys) => world.setKeys entity keys) world).IndexesEntities := by
  induction ready generalizing world with
  | nil => exact indexed
  | cons entry rest ih => exact ih (indexed.modify entity _)

theorem KeepsTold.releaseFor (keeps : session.KeepsTold earlier tick) (client : ClientId) :
    (session.releaseFor client).KeepsTold earlier tick := by
  unfold Session.releaseFor
  split
  · exact keeps
  · rename_i connection _
    obtain ⟨sameTick, -, -, places⟩ := setKeys_foldl_frame connection.entity
      (connection.sequencer.release session.tick).1 session.world
    exact (keeps.withSequencer client _).withWorld sameTick places
      (indexesEntities_setKeys_foldl connection.entity _)

theorem KeepsTold.replicateFor (keeps : session.KeepsTold earlier tick) (client : ClientId) :
    (session.replicateFor client).KeepsTold earlier tick := by
  unfold Session.replicateFor
  cases held : session.connection? client with
  | none => exact keeps
  | some connection =>
      dsimp only
      intro numbered
      rw [world_sendAll, world_modifyConnection, world_onMetrics] at numbered
      have agrees := keeps numbered
      refine ⟨?_, ?_, ?_⟩
      · rw [world_sendAll, world_modifyConnection, world_onMetrics]
        exact agrees.tick_eq
      · rw [world_sendAll, world_modifyConnection, world_onMetrics]
        exact agrees.indexed
      · intro other found isFound
        rw [connection?_sendAll, connection?_modifyConnection, connection?_onMetrics] at isFound
        rw [feed_sendAll _ _ _ _ (connection.isWelcome_of_mem_replicate session.world session.map)]
        by_cases isClient : client = other
        · subst isClient
          rw [if_pos rfl, if_pos rfl, held, Option.map_some, Option.map_some] at isFound
          rw [if_pos rfl]
          have told := agrees.told client connection held
          rw [← agrees.tick_eq] at told ⊢
          cases isFound
          exact (told.replicate agrees.indexed session.map).of_hasSameView
            (hasSameView_recordSents _ _)
        · rw [if_neg isClient, if_neg isClient] at isFound
          rw [if_neg isClient]
          exact agrees.told other found isFound

theorem KeepsTold.releaseInputs (keeps : session.KeepsTold earlier tick) (visiting : Visiting) :
    (session.releaseInputs visiting).KeepsTold earlier tick :=
  KeepsTold.foldl _ (fun _ client keeps => keeps.releaseFor client) keeps

theorem KeepsTold.replicate (keeps : session.KeepsTold earlier tick) (visiting : Visiting) :
    (session.replicate visiting).KeepsTold earlier tick :=
  KeepsTold.foldl _ (fun _ client keeps => keeps.replicateFor client) keeps

theorem KeepsTold.move (keeps : session.KeepsTold earlier tick) :
    (session.onWorld fun world => world.step.syncGrid).KeepsTold earlier tick := by
  intro numbered
  change session.world.step.places ≤ 4294967296 at numbered
  have agrees := keeps (session.world.places_step ▸ numbered)
  exact ⟨agrees.tick_eq, agrees.indexed.step.syncGrid numbered, agrees.told⟩

theorem KeepsTold.endTick (keeps : session.KeepsTold earlier tick) :
    ((session.onWorld World.clearDirty).recordLevels).KeepsTold earlier tick := by
  have cleared : (session.onWorld World.clearDirty).KeepsTold earlier tick :=
    keeps.withWorld rfl session.world.places_clearDirty World.IndexesEntities.clearDirty
  exact cleared.of_same rfl rfl rfl

theorem KeepsTold.runTick (keeps : session.KeepsTold earlier tick) (visiting : Visiting) (now : Nat)
    (room : tick.toNat + 1 < 18446744073709551616) :
    (session.runTick visiting now).KeepsTold earlier (tick + 1) := by
  have present := (keeps.handleAll visiting now).dropSilent visiting now
  have ready := (present.beginTick room).releaseInputs visiting
  exact (ready.move.replicate visiting).endTick

theorem KeepsTold.teleport? (keeps : session.KeepsTold earlier tick) {client : ClientId}
    {position : Vec3} {after : Session} (moved : session.teleport? client position = some after) :
    after.KeepsTold earlier tick := by
  unfold Session.teleport? at moved
  split at moved
  · cases moved
  · split at moved
    · cases moved
    · rename_i world movedWorld
      cases moved
      have places : world.places = session.world.places := by
        obtain ⟨_, -, -, rfl⟩ := World.teleport?_cases movedWorld
        exact World.places_modify ..
      have sameTick : world.tick = session.world.tick := by
        obtain ⟨_, -, -, rfl⟩ := World.teleport?_cases movedWorld
        rfl
      exact (keeps.withWorld sameTick places fun indexed =>
        indexed.teleport? movedWorld).modifyConnection client fun _ _ => ⟨rfl, rfl, rfl⟩

theorem KeepsTold.invalidateChunk (keeps : session.KeepsTold earlier tick) (chunk : ChunkPosition) :
    (session.invalidateChunk chunk).KeepsTold earlier tick := by
  intro numbered
  have agrees := keeps numbered
  refine ⟨agrees.tick_eq, agrees.indexed, ?_⟩
  intro client connection found
  unfold connection? Session.invalidateChunk at found
  rw [Std.HashMap.getElem?_map] at found
  obtain ⟨before, held, rfl⟩ := Option.map_eq_some_iff.mp found
  exact (agrees.told client before held).of_hasSameView ⟨rfl, rfl, rfl⟩

theorem KeepsTold.submit (keeps : session.KeepsTold earlier tick) {event : InboundEvent}
    {after : Session} (taken : session.submit event = .ok after) :
    after.KeepsTold earlier tick := by
  unfold Session.submit at taken
  cases queued : session.inbox.submit event with
  | error _ =>
      rw [queued] at taken
      cases taken
  | ok inbox =>
      rw [queued] at taken
      cases taken
      exact keeps.of_same rfl rfl rfl

end Session

end Overworld
