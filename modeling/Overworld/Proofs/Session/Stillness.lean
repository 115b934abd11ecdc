import Overworld.Proofs.Session.Run
import Overworld.Proofs.World.Upkeep

set_option autoImplicit false

/-!
What a session does without anyone joining or leaving. Clients keep their entities, and until they
are told something about others, what they see as well.
-/

namespace Overworld

namespace Session

def entityOf? (session : Session) (client : ClientId) : Option EntityId :=
  (session.connection? client).map (·.entity)

/-- No one joins or leaves. -/
structure Stays (before after : Session) : Prop where
  settings : after.settings = before.settings
  npcCount : after.npcCount = before.npcCount
  world : before.world.Remains after.world
  size : after.connections.size = before.connections.size
  entity : ∀ client, after.entityOf? client = before.entityOf? client

/-- No one joins or leaves, and no one's view changes. -/
structure Rests (before after : Session) : Prop extends Stays before after where
  interest : ∀ client, (after.connection? client).map (·.interest) =
    (before.connection? client).map (·.interest)

variable {session before middle after : Session}

theorem Stays.refl (session : Session) : session.Stays session :=
  ⟨rfl, rfl, .refl _, rfl, fun _ => rfl⟩

theorem Stays.trans (first : before.Stays middle) (second : middle.Stays after) :
    before.Stays after where
  settings := second.settings.trans first.settings
  npcCount := second.npcCount.trans first.npcCount
  world := first.world.trans second.world
  size := second.size.trans first.size
  entity client := (second.entity client).trans (first.entity client)

theorem Rests.refl (session : Session) : session.Rests session :=
  ⟨.refl session, fun _ => rfl⟩

theorem Rests.trans (first : before.Rests middle) (second : middle.Rests after) :
    before.Rests after :=
  ⟨first.toStays.trans second.toStays,
    fun client => (second.interest client).trans (first.interest client)⟩

theorem stays_foldl {α : Type} {step : Session → α → Session}
    (one : ∀ (session : Session) item, session.Stays (step session item)) (items : List α)
    (session : Session) : session.Stays (items.foldl step session) := by
  induction items generalizing session with
  | nil => exact Stays.refl session
  | cons item rest ih => exact (one session item).trans (ih (step session item))

theorem rests_foldl {α : Type} {step : Session → α → Session}
    (one : ∀ (session : Session) item, session.Rests (step session item)) (items : List α)
    (session : Session) : session.Rests (items.foldl step session) := by
  induction items generalizing session with
  | nil => exact Rests.refl session
  | cons item rest ih => exact (one session item).trans (ih (step session item))

theorem rests_withWorld (session : Session) {world : World}
    (remains : session.world.Remains world) : session.Rests { session with world } :=
  ⟨⟨rfl, rfl, remains, rfl, fun _ => rfl⟩, fun _ => rfl⟩

theorem rests_onWorld (session : Session) {change : World → World}
    (remains : session.world.Remains (change session.world)) :
    session.Rests (session.onWorld change) :=
  session.rests_withWorld remains

/-- Nothing that counts is any different. -/
theorem rests_of_same (settings : after.settings = before.settings)
    (npcCount : after.npcCount = before.npcCount) (world : after.world = before.world)
    (connections : after.connections = before.connections) : before.Rests after := by
  have same : ∀ client, after.connection? client = before.connection? client := by
    intro client
    unfold connection?
    rw [connections]
  exact ⟨⟨settings, npcCount, world ▸ .refl _, congrArg _ connections,
    fun client => congrArg _ (same client)⟩, fun client => congrArg _ (same client)⟩

theorem rests_withMetrics (session : Session) (metrics : Metrics) :
    session.Rests { session with metrics } :=
  rests_of_same rfl rfl rfl rfl

theorem rests_onMetrics (session : Session) (change : Metrics → Metrics) :
    session.Rests (session.onMetrics change) :=
  session.rests_withMetrics _

theorem rests_recordLevels (session : Session) : session.Rests session.recordLevels :=
  session.rests_withMetrics _

/-- A part of each connection that a change of one connection leaves as it is. -/
theorem map_modifyConnection {β : Type} (session : Session) (client : ClientId)
    (change : Connection → Connection) (part : Connection → β)
    (same : ∀ connection, session.connection? client = some connection →
      part (change connection) = part connection) (other : ClientId) :
    ((session.modifyConnection client change).connection? other).map part =
      (session.connection? other).map part := by
  rw [connection?_modifyConnection]
  split
  · rename_i isClient
    rw [← isClient]
    cases held : session.connection? client with
    | none => rfl
    | some connection => exact congrArg some (same connection held)
  · rfl

theorem stays_modifyConnection (session : Session) (client : ClientId)
    (change : Connection → Connection)
    (same : ∀ connection, session.connection? client = some connection →
      (change connection).entity = connection.entity) :
    session.Stays (session.modifyConnection client change) :=
  ⟨rfl, rfl, .refl _, Std.HashMap.size_modify,
    session.map_modifyConnection client change (·.entity) same⟩

theorem rests_modifyConnection (session : Session) (client : ClientId)
    (change : Connection → Connection)
    (entity : ∀ connection, (change connection).entity = connection.entity)
    (interest : ∀ connection, (change connection).interest = connection.interest) :
    session.Rests (session.modifyConnection client change) :=
  ⟨session.stays_modifyConnection client change fun connection _ => entity connection,
    session.map_modifyConnection client change (·.interest) fun connection _ => interest connection⟩

theorem rests_send (session : Session) (client : ClientId) (message : ServerMessage) :
    session.Rests (session.send client message) :=
  (session.rests_modifyConnection client Connection.recordSent (fun _ => rfl) fun _ => rfl).trans
    (rests_of_same rfl rfl rfl rfl)

theorem rests_sendAll (session : Session) (client : ClientId) (messages : List ServerMessage) :
    session.Rests (session.sendAll client messages) :=
  rests_foldl (fun session => session.rests_send client) messages session

theorem rests_close (session : Session) (client : ClientId) : session.Rests (session.close client) :=
  rests_of_same rfl rfl rfl rfl

theorem stays_tellLeft (session : Session) (gone : EntityId) (client : ClientId) :
    session.Stays (session.tellLeft gone client) := by
  unfold tellLeft
  split
  · exact Stays.refl session
  · split
    · refine Stays.trans (Stays.trans ?_ (rests_send ..).toStays) (rests_onMetrics ..).toStays
      exact session.stays_modifyConnection client _ fun _ _ => rfl
    · exact Stays.refl session

theorem rests_withSequencer (session : Session) (client : ClientId) (sequencer : Sequencer) :
    session.Rests (session.modifyConnection client fun connection =>
      { connection with sequencer }) :=
  session.rests_modifyConnection client _ (fun _ => rfl) fun _ => rfl

theorem rests_sendAdjustment (session : Session) (client : ClientId) :
    session.Rests (session.sendAdjustment client) := by
  unfold sendAdjustment
  split
  · exact Rests.refl session
  · dsimp only
    split
    · exact session.rests_withSequencer client _
    · exact ((session.rests_withSequencer client _).trans (rests_onMetrics ..)).trans
        (rests_send ..)

theorem rests_recordAdmission (session : Session) (entity : EntityId) (admission : Admission) :
    session.Rests (session.recordAdmission entity admission) := by
  cases admission with
  | accepted => exact session.rests_withMetrics _
  | dropped reason =>
      have neutral : session.Rests { session with world := session.world.neutralize entity } :=
        session.rests_withWorld (World.remains_modify _ entity fun _ _ => rfl)
      exact neutral.trans (rests_withMetrics _ _)

theorem remains_setKeys_foldl (entity : EntityId) (ready : List (Tick × Keys)) (world : World) :
    world.Remains (ready.foldl (fun world (_, keys) => world.setKeys entity keys) world) := by
  induction ready generalizing world with
  | nil => exact .refl world
  | cons entry rest ih =>
      refine World.Remains.trans ?_ (ih (world.setKeys entity entry.2))
      exact world.remains_modify entity fun _ _ => rfl

theorem rests_releaseFor (session : Session) (client : ClientId) :
    session.Rests (session.releaseFor client) := by
  unfold releaseFor
  split
  · exact Rests.refl session
  · rename_i connection _
    have handed := remains_setKeys_foldl connection.entity
      (connection.sequencer.release session.tick).1 session.world
    exact (session.rests_withSequencer client _).trans (rests_withWorld _ handed)

theorem rests_releaseInputs (session : Session) (visiting : Visiting) :
    session.Rests (session.releaseInputs visiting) :=
  rests_foldl rests_releaseFor _ _

theorem entity_replicate (connection : Connection) (world : World) (map : TileMap) :
    (connection.replicate world map).connection.entity = connection.entity := by
  unfold Connection.replicate
  split <;> rfl

theorem stays_replicateFor (session : Session) (client : ClientId) :
    session.Stays (session.replicateFor client) := by
  unfold replicateFor
  cases held : session.connection? client with
  | none => exact Stays.refl session
  | some connection =>
      have counted := session.rests_onMetrics
        (·.recordReplication (connection.replicate session.world session.map))
      refine (counted.toStays.trans (stays_modifyConnection _ client _ fun found isFound =>
        ?_)).trans (rests_sendAll ..).toStays
      rw [connection?_onMetrics, held] at isFound
      cases isFound
      exact entity_replicate connection session.world session.map

theorem stays_replicate (session : Session) (visiting : Visiting) :
    session.Stays (session.replicate visiting) :=
  stays_foldl stays_replicateFor _ _

/-- A session within a tick, once everything has moved and before anyone is told. -/
def moved (session : Session) (visiting : Visiting) (now : Nat) : Session :=
  (releaseInputs visiting ((dropSilent visiting now (handleAll visiting now session)).onWorld
    World.beginTick)).onWorld fun world => world.step.syncGrid

theorem runTick_eq (session : Session) (visiting : Visiting) (now : Nat) :
    session.runTick visiting now =
      (((session.moved visiting now).replicate visiting).onWorld World.clearDirty).recordLevels :=
  rfl

/-- After the silent have gone no one joins or leaves in a tick. -/
theorem rests_moved (session : Session) (visiting : Visiting) (now : Nat) :
    ((session.handleAll visiting now).dropSilent visiting now).Rests
      (session.moved visiting now) := by
  have begun := rests_onWorld ((session.handleAll visiting now).dropSilent visiting now)
    (World.remains_beginTick _)
  refine (begun.trans (rests_releaseInputs _ visiting)).trans (rests_onWorld _ ?_)
  exact (World.remains_step _).trans (World.remains_syncGrid _)

theorem rests_told (session : Session) (visiting : Visiting) (now : Nat) :
    ((session.moved visiting now).replicate visiting).Rests (session.runTick visiting now) := by
  rw [runTick_eq]
  exact (rests_onWorld _ (World.remains_clearDirty _)).trans (rests_recordLevels _)

theorem stays_told (session : Session) (visiting : Visiting) (now : Nat) :
    (session.moved visiting now).Stays (session.runTick visiting now) :=
  (stays_replicate _ visiting).trans (session.rests_told visiting now).toStays

theorem rests_teleport? {client : ClientId} {position : Vec3}
    (moved : session.teleport? client position = some after) : session.Rests after := by
  unfold teleport? at moved
  split at moved
  · cases moved
  · split at moved
    · cases moved
    · rename_i world movedWorld
      cases moved
      refine (rests_withWorld session (World.remains_teleport? movedWorld)).trans ?_
      exact rests_modifyConnection _ client _ (fun _ => rfl) fun _ => rfl

theorem connection?_invalidateChunk (session : Session) (chunk : ChunkPosition)
    (client : ClientId) :
    (session.invalidateChunk chunk).connection? client =
      (session.connection? client).map fun connection =>
        { connection with streamer := connection.streamer.invalidate chunk } := by
  unfold connection? invalidateChunk
  exact Std.HashMap.getElem?_map

theorem rests_invalidateChunk (session : Session) (chunk : ChunkPosition) :
    session.Rests (session.invalidateChunk chunk) := by
  refine ⟨⟨rfl, rfl, .refl _, Std.HashMap.size_map, fun client => ?_⟩, fun client => ?_⟩
  · unfold entityOf?
    rw [connection?_invalidateChunk, Option.map_map]
    rfl
  · rw [connection?_invalidateChunk, Option.map_map]
    rfl

theorem rests_submit {event : InboundEvent} (taken : session.submit event = .ok after) :
    session.Rests after := by
  unfold submit at taken
  cases queued : session.inbox.submit event with
  | error _ =>
      rw [queued] at taken
      cases taken
  | ok inbox =>
      rw [queued] at taken
      cases taken
      exact rests_of_same rfl rfl rfl rfl

theorem rests_drain (session : Session) : session.Rests session.drainOutbound.2 :=
  rests_of_same rfl rfl rfl rfl

/-- A property of sessions that only joining and leaving could break, and they do not. It may depend
on how many have tried to join. -/
structure Lasts (holds : Nat → Session → Prop) : Prop where
  mono : ∀ {fewer more session}, holds fewer session → fewer ≤ more → holds more session
  rests : ∀ {joins} {before after : Session}, holds joins before → before.Rests after →
    holds joins after
  connect : ∀ {joins session}, holds joins session → ∀ client endpoint now,
    holds (joins + 1) (session.connect client endpoint now)
  disconnect : ∀ {joins session}, holds joins session → ∀ visiting client fault,
    holds joins (session.disconnect visiting client fault)

namespace Lasts

variable {holds : Nat → Session → Prop} {joins : Nat}

theorem receive (lasts : Lasts holds) (holdsNow : holds joins session) (visiting : Visiting)
    (client : ClientId) (message : ClientMessage) :
    holds joins (session.receive visiting client message) := by
  cases message with
  | disconnect => exact lasts.disconnect holdsNow visiting client none
  | input tick keys =>
      unfold Session.receive receiveInput
      dsimp only
      split
      · exact holdsNow
      · split
        · exact lasts.disconnect holdsNow visiting client _
        · exact lasts.rests holdsNow (((session.rests_withSequencer client _).trans
            (rests_recordAdmission ..)).trans (rests_sendAdjustment ..))
  | heartbeat tick =>
      unfold Session.receive receiveHeartbeat
      dsimp only
      split
      · exact holdsNow
      · split
        · exact lasts.disconnect holdsNow visiting client _
        · exact lasts.rests holdsNow ((session.rests_withSequencer client _).trans
            (rests_sendAdjustment ..))

theorem handle (lasts : Lasts holds) (holdsNow : holds joins session) (visiting : Visiting)
    (now : Nat) (event : InboundEvent) :
    holds (joins + 1) (session.handle visiting now event) := by
  unfold Session.handle
  split
  · exact lasts.connect holdsNow event.client _ now
  · exact lasts.mono (lasts.disconnect holdsNow visiting event.client none) (Nat.le_succ _)
  · split
    · have received := session.rests_modifyConnection event.client
        (·.recordReceived event.bytes now) (fun _ => rfl) fun _ => rfl
      have counted := lasts.rests holdsNow (received.trans
        (rests_withMetrics _ (session.metrics.recordReceived event.bytes)))
      exact lasts.mono (lasts.receive counted visiting event.client _) (Nat.le_succ _)
    · exact lasts.mono holdsNow (Nat.le_succ _)

theorem handles (lasts : Lasts holds) (holdsNow : holds joins session) (visiting : Visiting)
    (now : Nat) (events : List InboundEvent) :
    holds (joins + events.length) (events.foldl (Session.handle visiting now) session) := by
  induction events generalizing joins session with
  | nil => exact holdsNow
  | cons event rest ih =>
      have later := ih (lasts.handle holdsNow visiting now event)
      rw [Nat.add_assoc, Nat.add_comm 1] at later
      exact later

theorem handleAll (lasts : Lasts holds) (holdsNow : holds joins session) (visiting : Visiting)
    (now : Nat) : holds (joins + session.inbox.events.length) (session.handleAll visiting now) := by
  have emptied : holds joins { session with inbox := session.inbox.drain.2 } :=
    lasts.rests holdsNow (rests_of_same rfl rfl rfl rfl)
  exact lasts.handles emptied visiting now session.inbox.events

theorem dropSilent (lasts : Lasts holds) (holdsNow : holds joins session) (visiting : Visiting)
    (now : Nat) : holds joins (session.dropSilent visiting now) := by
  unfold Session.dropSilent
  generalize List.filter _ _ = silent
  induction silent generalizing session with
  | nil => exact holdsNow
  | cons connection rest ih =>
      exact ih (lasts.disconnect (lasts.rests holdsNow (session.rests_withMetrics _)) visiting _ _)

/-- Whoever is there once all events are handled and the silent have gone. -/
theorem present (lasts : Lasts holds) (holdsNow : holds joins session) (visiting : Visiting)
    (now : Nat) :
    holds (joins + session.inbox.events.length)
      ((session.handleAll visiting now).dropSilent visiting now) :=
  lasts.dropSilent (lasts.handleAll holdsNow visiting now) visiting now

/-- Between ticks clients leave, but none joins. -/
theorem act (lasts : Lasts holds) {chronicle : Chronicle} (holdsNow : holds joins chronicle.session)
    {action : Action} (between : action.isTick = false) :
    holds joins (chronicle.act action).session := by
  cases action with
  | submit event =>
      change holds joins ((chronicle.session.submit event).toOption.getD chronicle.session)
      cases taken : chronicle.session.submit event with
      | error _ => exact holdsNow
      | ok after => exact lasts.rests holdsNow (rests_submit taken)
  | tick visiting now => cases between
  | teleport client position =>
      change holds joins ((chronicle.session.teleport? client position).getD chronicle.session)
      cases moved : chronicle.session.teleport? client position with
      | none => exact holdsNow
      | some after => exact lasts.rests holdsNow (rests_teleport? moved)
  | giveUp visiting client fault => exact lasts.disconnect holdsNow visiting client (some fault)
  | invalidateChunk chunk => exact lasts.rests holdsNow (rests_invalidateChunk _ chunk)
  | drain => exact lasts.rests holdsNow (rests_drain _)

theorem acts (lasts : Lasts holds) {chronicle : Chronicle} (holdsNow : holds joins chronicle.session)
    (actions : List Action) (between : ∀ action ∈ actions, action.isTick = false) :
    holds joins (actions.foldl Chronicle.act chronicle).session := by
  induction actions generalizing chronicle with
  | nil => exact holdsNow
  | cons action rest ih =>
      exact ih (lasts.act holdsNow (between action List.mem_cons_self))
        fun later member => between later (List.mem_cons_of_mem _ member)

/-- What does not depend on what clients are shown lasts over ticks as well. -/
theorem run {holds : Session → Prop} (lasts : Lasts fun _ => holds)
    (stays : ∀ {before after}, holds before → before.Stays after → holds after)
    {chronicle : Chronicle} (holdsNow : holds chronicle.session) (actions : List Action) :
    holds (actions.foldl Chronicle.act chronicle).session := by
  induction actions generalizing chronicle with
  | nil => exact holdsNow
  | cons action rest ih =>
      rw [List.foldl_cons]
      refine ih ?_
      cases isTick : action.isTick with
      | false => exact @act _ 0 lasts chronicle holdsNow action isTick
      | true =>
          cases action with
          | tick visiting now =>
              have present := @present chronicle.session _ 0 lasts holdsNow visiting now
              have moved := stays present (chronicle.session.rests_moved visiting now).toStays
              exact stays moved (chronicle.session.stays_told visiting now)
          | _ => cases isTick

end Lasts

end Session

end Overworld
