import Overworld.Proofs.Session.Passes
import Overworld.Proofs.Streaming.Run

set_option autoImplicit false

/-!
What a session sends its clients of the map. The streamer of each connection has been run since the
welcome, and its client was sent every chunk that the streamer counts as sent.
-/

namespace Overworld

namespace ServerMessage

/-- About entities or the clock, and not the map or the connection. -/
def isPlain : ServerMessage → Bool
  | .entityUpdate _ | .entityEntered _ | .entityLeft .. | .tickAdjustment _ => true
  | .connectionResponse .. | .chunkData _ | .kicked _ => false

/-- What someone who is connected may be told: chunks of the map and no others, and no reason to
leave. -/
def IsFrom (map : TileMap) : ServerMessage → Prop
  | .chunkData chunk => ∃ position, chunk = .ofMap map position
  | .kicked _ => False
  | _ => True

theorem isWelcome_of_isPlain {message : ServerMessage} (plain : message.isPlain = true) :
    message.isWelcome = false := by
  cases message with
  | connectionResponse => cases plain
  | _ => rfl

theorem isFrom_of_isPlain {message : ServerMessage} (plain : message.isPlain = true) (map : TileMap) :
    message.IsFrom map := by
  cases message with
  | chunkData => cases plain
  | kicked => cases plain
  | _ => exact trivial

end ServerMessage

namespace Streamer

/-- The streamer was run under the rules, and the client was sent what counts as sent. -/
structure IsStocked (streamer : Streamer) (rules : StreamRules) (map : TileMap)
    (feed : List ServerMessage) : Prop where
  isRun : ∃ calls, streamer = run rules calls
  sent : ∀ chunk, streamer.streamed.contains chunk = true → .chunkData (.ofMap map chunk) ∈ feed
  isFrom : ∀ message ∈ feed, message.IsFrom map

variable {streamer : Streamer} {rules : StreamRules} {map : TileMap} {feed : List ServerMessage}

theorem isStocked_ofRules (rules : StreamRules) (map : TileMap) (tick : Tick) (entity : EntityId)
    (spawn : Vec3) :
    (ofRules rules).IsStocked rules map [.connectionResponse tick entity spawn] where
  isRun := ⟨[], rfl⟩
  sent chunk held := by simp [ofRules] at held
  isFrom message member := by
    rw [List.mem_singleton.mp member]
    exact trivial

theorem IsStocked.append (stocked : streamer.IsStocked rules map feed) {messages : List ServerMessage}
    (isFrom : ∀ message ∈ messages, message.IsFrom map) :
    streamer.IsStocked rules map (feed ++ messages) where
  isRun := stocked.isRun
  sent chunk held := List.mem_append_left _ (stocked.sent chunk held)
  isFrom message member := by
    rcases List.mem_append.mp member with before | now
    · exact stocked.isFrom message before
    · exact isFrom message now

/-- After a call the client has all that counts as sent, if it is sent what the call asks for. -/
theorem IsStocked.call (stocked : streamer.IsStocked rules map feed) (next : Call)
    (sent : ∀ position, next = .update position → ∀ chunk ∈ (streamer.update position).1,
      .chunkData (.ofMap map chunk) ∈ feed) :
    (streamer.call next).IsStocked rules map feed where
  isRun := by
    obtain ⟨calls, rfl⟩ := stocked.isRun
    refine ⟨calls ++ [next], ?_⟩
    rw [run, run, List.foldl_append]
    rfl
  sent chunk held := by
    cases next with
    | update position =>
        rcases (contains_streamed_update streamer position chunk).mp held with before | now
        · exact stocked.sent chunk before
        · exact sent position rfl chunk now
    | reset => exact stocked.sent chunk held
    | invalidate changed =>
        have kept := (contains_streamed_invalidate streamer changed chunk).symm.trans held
        exact stocked.sent chunk (Bool.and_eq_true_iff.mp kept).1
  isFrom := stocked.isFrom

end Streamer

namespace Connection

variable {connection : Connection} {world : World} {map : TileMap} {owner : Entity}

/-- A turn asks the streamer once, and sends what it asks for. -/
theorem replicate_streams (found : world.get? connection.entity = some owner) (map : TileMap) :
    (connection.replicate world map).connection.streamer =
        connection.streamer.call (.update owner.motion.position) ∧
      ∀ chunk ∈ (connection.streamer.update owner.motion.position).1,
        .chunkData (.ofMap map chunk) ∈ (connection.replicate world map).messages := by
  unfold replicate
  rw [found]
  refine ⟨rfl, fun chunk member => ?_⟩
  simp only [List.mem_append, List.mem_map]
  exact Or.inl (Or.inl (Or.inr ⟨chunk, member, rfl⟩))

theorem isFrom_of_mem_replicate (connection : Connection) (world : World) (map : TileMap) :
    ∀ message ∈ (connection.replicate world map).messages, message.IsFrom map := by
  intro message member
  rcases cases_of_mem_replicate member with ⟨_, rfl⟩ | ⟨_, -, rfl | rfl⟩ | ⟨position, rfl⟩
  · exact trivial
  · exact trivial
  · exact trivial
  · exact ⟨position, rfl⟩

/-- After its turn the client has what counts as sent by then. -/
theorem isStocked_replicate {rules : StreamRules} {feed : List ServerMessage}
    (stocked : connection.streamer.IsStocked rules map feed) (world : World) :
    (connection.replicate world map).connection.streamer.IsStocked rules map
      (feed ++ (connection.replicate world map).messages) := by
  cases found : world.get? connection.entity with
  | none =>
      have nothing : connection.replicate world map = .nothing connection := by
        unfold replicate
        rw [found]
      rw [nothing]
      exact stocked.append fun _ => nofun
  | some owner =>
      obtain ⟨streamer, sent⟩ := replicate_streams found map
      have isFrom := connection.isFrom_of_mem_replicate world map
      rw [streamer]
      refine (stocked.append isFrom).call (.update owner.motion.position) ?_
      rintro position isUpdate chunk asked
      cases isUpdate
      exact List.mem_append_right _ (sent chunk asked)

end Connection

namespace Session

variable {session before middle after : Session} {earlier : List Outbound} {client : ClientId}

/-! ### Steps that leave the streams alone -/

/-- Whoever is connected was so before, with the same streamer, and was told nothing of the map. -/
structure Continues (earlier : List Outbound) (before after : Session) : Prop where
  settings : after.settings = before.settings
  map : after.map = before.map
  told : ∀ client connection, after.connection? client = some connection →
    ∃ held told, before.connection? client = some held ∧ connection.streamer = held.streamer ∧
      after.feed earlier client = before.feed earlier client ++ told ∧
      ∀ message ∈ told, message.isPlain = true

theorem Continues.trans (first : before.Continues earlier middle)
    (second : middle.Continues earlier after) : before.Continues earlier after where
  settings := second.settings.trans first.settings
  map := second.map.trans first.map
  told client connection found := by
    obtain ⟨between, later, isBetween, same, feed, arePlain⟩ := second.told client connection found
    obtain ⟨held, sooner, isHeld, alike, fed, werePlain⟩ := first.told client between isBetween
    refine ⟨held, sooner ++ later, isHeld, same.trans alike, ?_, fun message member => ?_⟩
    · rw [feed, fed, List.append_assoc]
    · rcases List.mem_append.mp member with isSooner | isLater
      · exact werePlain message isSooner
      · exact arePlain message isLater

theorem continues_of_same (settings : after.settings = before.settings)
    (map : after.map = before.map)
    (connections : ∀ client, after.connection? client = before.connection? client)
    (outbound : after.outbound = before.outbound) : before.Continues earlier after where
  settings := settings
  map := map
  told client connection found := by
    refine ⟨connection, [], (connections client).symm.trans found, rfl, ?_, fun _ => nofun⟩
    unfold feed
    rw [outbound, List.append_nil]

theorem Continues.refl (session : Session) : session.Continues earlier session :=
  continues_of_same rfl rfl (fun _ => rfl) rfl

theorem continues_foldl {α : Type} {step : Session → α → Session}
    (one : ∀ (session : Session) item, session.Continues earlier (step session item))
    (items : List α) (session : Session) : session.Continues earlier (items.foldl step session) := by
  induction items generalizing session with
  | nil => exact Continues.refl session
  | cons item rest ih => exact (one session item).trans (ih (step session item))

theorem continues_withMetrics (session : Session) (metrics : Metrics) :
    session.Continues earlier { session with metrics } :=
  continues_of_same rfl rfl (fun _ => rfl) rfl

theorem continues_onMetrics (session : Session) (change : Metrics → Metrics) :
    session.Continues earlier (session.onMetrics change) :=
  session.continues_withMetrics _

theorem continues_recordLevels (session : Session) :
    session.Continues earlier session.recordLevels :=
  session.continues_withMetrics _

theorem continues_withWorld (session : Session) (world : World) :
    session.Continues earlier { session with world } :=
  continues_of_same rfl rfl (fun _ => rfl) rfl

theorem continues_onWorld (session : Session) (change : World → World) :
    session.Continues earlier (session.onWorld change) :=
  session.continues_withWorld _

theorem continues_modifyConnection (session : Session) (client : ClientId)
    (change : Connection → Connection)
    (same : ∀ connection, (change connection).streamer = connection.streamer) :
    session.Continues earlier (session.modifyConnection client change) where
  settings := rfl
  map := rfl
  told other connection found := by
    rw [connection?_modifyConnection] at found
    split at found
    · obtain ⟨held, isHeld, rfl⟩ := Option.map_eq_some_iff.mp found
      exact ⟨held, [], isHeld, same held, (List.append_nil _).symm, fun _ => nofun⟩
    · exact ⟨connection, [], found, rfl, (List.append_nil _).symm, fun _ => nofun⟩

theorem continues_send (session : Session) (client : ClientId) {message : ServerMessage}
    (plain : message.isPlain = true) : session.Continues earlier (session.send client message) where
  settings := rfl
  map := rfl
  told other connection found := by
    rw [connection?_send] at found
    rw [feed_send _ _ _ _ (ServerMessage.isWelcome_of_isPlain plain)]
    split at found
    · rename_i isClient
      obtain ⟨held, isHeld, rfl⟩ := Option.map_eq_some_iff.mp found
      refine ⟨held, [message], isHeld, rfl, if_pos isClient, fun other member => ?_⟩
      rw [List.mem_singleton.mp member]
      exact plain
    · rename_i isOther
      exact ⟨connection, [], found, rfl, (if_neg isOther).trans (List.append_nil _).symm,
        fun _ => nofun⟩

/-- To be turned away or sent off one has to be out. -/
theorem continues_send_of_absent (session : Session) {client : ClientId}
    (absent : session.connection? client = none) {message : ServerMessage}
    (ordinary : message.isWelcome = false) :
    session.Continues earlier (session.send client message) where
  settings := rfl
  map := rfl
  told other connection found := by
    rw [connection?_send] at found
    rw [feed_send _ _ _ _ ordinary]
    split at found
    · rename_i isClient
      rw [← isClient, absent] at found
      cases found
    · rename_i isOther
      exact ⟨connection, [], found, rfl, (if_neg isOther).trans (List.append_nil _).symm,
        fun _ => nofun⟩

theorem continues_close (session : Session) (client : ClientId) :
    session.Continues earlier (session.close client) where
  settings := rfl
  map := rfl
  told other connection found :=
    ⟨connection, [], found, rfl, by rw [feed_close, List.append_nil], fun _ => nofun⟩

theorem continues_erase (session : Session) (client : ClientId) :
    session.Continues earlier
      { session with connections := session.connections.erase client } where
  settings := rfl
  map := rfl
  told other connection found := by
    rw [connection?_erase] at found
    split at found
    · cases found
    · exact ⟨connection, [], found, rfl, (List.append_nil _).symm, fun _ => nofun⟩

theorem continues_tellLeft (session : Session) (gone : EntityId) (client : ClientId) :
    session.Continues earlier (session.tellLeft gone client) := by
  unfold tellLeft
  split
  · exact Continues.refl session
  · split
    · have plain : (ServerMessage.entityLeft session.tick gone).isPlain = true := rfl
      have forgets : session.Continues earlier (session.modifyConnection client fun connection =>
          { connection with
            interest := connection.interest.forget gone
            observed := connection.observed.erase gone }) :=
        session.continues_modifyConnection client _ fun _ => rfl
      exact (forgets.trans (continues_send _ client plain)).trans (continues_onMetrics ..)
    · exact Continues.refl session

theorem continues_disconnect (session : Session) (visiting : Visiting) (client : ClientId)
    (fault : Option ConnectionFault) :
    session.Continues earlier (session.disconnect visiting client fault) := by
  cases found : session.connection? client with
  | none =>
      rw [disconnect_of_unknown found]
      exact Continues.refl session
  | some connection =>
      obtain ⟨parted, told, removed, isParted, isTold, isRemoved, left⟩ :=
        disconnect_cases found visiting fault
      rw [left]
      have toParted : session.Continues earlier parted := by
        rw [isParted]
        exact session.continues_erase client
      have toTold : parted.Continues earlier told := by
        rcases isTold with ⟨-, rfl⟩ | ⟨reason, -, rfl⟩
        · exact Continues.refl _
        · have out : (parted.onMetrics (·.tally .connectionsKicked)).connection? client = none := by
            rw [connection?_onMetrics, isParted, connection?_erase, if_pos rfl]
          have message : (ServerMessage.kicked reason.message).isWelcome = false := rfl
          exact (continues_onMetrics ..).trans (continues_send_of_absent _ out message)
      have toRemoved : (told.close client).Continues earlier removed := by
        rcases isRemoved with ⟨-, rfl⟩ | ⟨entity, world, -, rfl⟩
        · exact Continues.refl _
        · exact continues_withWorld ..
      exact ((toParted.trans toTold).trans ((told.continues_close client).trans toRemoved)).trans
        (continues_foldl (fun session => session.continues_tellLeft connection.entity) _ _)

theorem continues_withSequencer (session : Session) (client : ClientId) (sequencer : Sequencer) :
    session.Continues earlier
      (session.modifyConnection client fun connection => { connection with sequencer }) :=
  session.continues_modifyConnection client _ fun _ => rfl

theorem continues_sendAdjustment (session : Session) (client : ClientId) :
    session.Continues earlier (session.sendAdjustment client) := by
  unfold sendAdjustment
  split
  · exact Continues.refl session
  · dsimp only
    split
    · exact continues_withSequencer ..
    · rename_i delta _
      have plain : (ServerMessage.tickAdjustment delta).isPlain = true := rfl
      exact ((continues_withSequencer ..).trans (continues_onMetrics ..)).trans
        (continues_send _ client plain)

theorem continues_recordAdmission (session : Session) (entity : EntityId) (admission : Admission) :
    session.Continues earlier (session.recordAdmission entity admission) := by
  cases admission <;> exact continues_of_same rfl rfl (fun _ => rfl) rfl

theorem continues_receive (session : Session) (visiting : Visiting) (client : ClientId)
    (message : ClientMessage) :
    session.Continues earlier (session.receive visiting client message) := by
  cases message with
  | disconnect => exact session.continues_disconnect visiting client none
  | input tick keys =>
      unfold receive receiveInput
      dsimp only
      split
      · exact Continues.refl session
      · split
        · exact session.continues_disconnect visiting client _
        · exact ((continues_withSequencer ..).trans (continues_recordAdmission ..)).trans
            (continues_sendAdjustment ..)
  | heartbeat tick =>
      unfold receive receiveHeartbeat
      dsimp only
      split
      · exact Continues.refl session
      · split
        · exact session.continues_disconnect visiting client _
        · exact (continues_withSequencer ..).trans (continues_sendAdjustment ..)

theorem continues_message (session : Session) (visiting : Visiting) (now : Nat) (client : ClientId)
    (message : ClientMessage) (bytes : UInt64) :
    session.Continues earlier (session.handle visiting now ⟨client, .message message, bytes⟩) := by
  have counted : session.Continues earlier { session.modifyConnection client
        (·.recordReceived bytes now) with
      metrics := session.metrics.recordReceived bytes } :=
    (session.continues_modifyConnection client (·.recordReceived bytes now) fun _ => rfl).trans
      (continues_withMetrics ..)
  unfold handle
  dsimp only
  split
  · exact counted.trans (continues_receive _ visiting client message)
  · exact Continues.refl session

theorem continues_dropSilent (session : Session) (visiting : Visiting) (now : Nat) :
    session.Continues earlier (session.dropSilent visiting now) :=
  continues_foldl (fun _ _ => (continues_onMetrics ..).trans (continues_disconnect ..)) _ _

theorem continues_releaseFor (session : Session) (client : ClientId) :
    session.Continues earlier (session.releaseFor client) := by
  unfold releaseFor
  split
  · exact Continues.refl session
  · exact (continues_withSequencer ..).trans (continues_withWorld ..)

theorem continues_releaseInputs (session : Session) (visiting : Visiting) :
    session.Continues earlier (session.releaseInputs visiting) :=
  continues_foldl continues_releaseFor _ _

/-! ### Steps that move the streams on -/

/-- Everyone connected was sent what its streamer counts as sent; `earlier` was taken from the queue
before. -/
structure KeepsStocked (session : Session) (earlier : List Outbound) (settings : Settings)
    (map : TileMap) : Prop where
  sameSettings : session.settings = settings
  sameMap : session.map = map
  stocked : ∀ client connection, session.connection? client = some connection →
    connection.streamer.IsStocked settings.streamRules map (session.feed earlier client)

variable {settings : Settings} {map : TileMap}

theorem KeepsStocked.of_continues (keeps : before.KeepsStocked earlier settings map)
    (continues : before.Continues earlier after) : after.KeepsStocked earlier settings map where
  sameSettings := continues.settings.trans keeps.sameSettings
  sameMap := continues.map.trans keeps.sameMap
  stocked client connection found := by
    obtain ⟨held, told, isHeld, same, fed, arePlain⟩ := continues.told client connection found
    rw [same, fed]
    exact (keeps.stocked client held isHeld).append fun message member =>
      ServerMessage.isFrom_of_isPlain (arePlain message member) map

theorem KeepsStocked.connect (keeps : session.KeepsStocked earlier settings map) (client : ClientId)
    (endpoint : Endpoint) (now : Nat) :
    (session.connect client endpoint now).KeepsStocked earlier settings map := by
  obtain ⟨-, same⟩ | ⟨free, -, refused⟩ |
    ⟨-, -, place, random, entity, world, joined, -, -, isJoined, accepted⟩ :=
    session.connect_cases client endpoint now
  · rw [same]
    exact keeps
  · have message : (ServerMessage.kicked
      (ConnectionFault.serverFull session.settings.maxConnections).message).isWelcome = false := rfl
    rw [refused]
    exact keeps.of_continues (((session.continues_send_of_absent (connection?_eq_none_iff.mpr free)
      message).trans (continues_close ..)).trans (continues_onMetrics ..))
  · rw [accepted]
    refine ⟨?_, ?_, fun other connection found => ?_⟩
    · rw [isJoined]
      exact keeps.sameSettings
    · rw [isJoined]
      exact keeps.sameMap
    · rw [connection?_send, connection?_of_insert (congrArg Session.connections isJoined)] at found
      rw [feed_welcome]
      by_cases isClient : client = other
      · rw [if_pos isClient, if_pos isClient, Option.map_some] at found
        cases found
        rw [if_pos isClient, ← keeps.sameSettings]
        exact Streamer.isStocked_ofRules ..
      · rw [if_neg isClient, if_neg isClient] at found
        rw [if_neg isClient, isJoined]
        exact keeps.stocked other connection found

theorem KeepsStocked.handle (keeps : session.KeepsStocked earlier settings map) (visiting : Visiting)
    (now : Nat) (event : InboundEvent) :
    (session.handle visiting now event).KeepsStocked earlier settings map := by
  obtain ⟨client, kind, bytes⟩ := event
  cases kind with
  | connected endpoint => exact keeps.connect client endpoint now
  | disconnected => exact keeps.of_continues (session.continues_disconnect visiting client none)
  | message content =>
      exact keeps.of_continues (session.continues_message visiting now client content bytes)

theorem KeepsStocked.moved (keeps : session.KeepsStocked earlier settings map) (visiting : Visiting)
    (now : Nat) : (session.moved visiting now).KeepsStocked earlier settings map := by
  have emptied : ({ session with inbox := session.inbox.drain.2 } : Session).KeepsStocked earlier
      settings map := keeps.of_continues (continues_of_same rfl rfl (fun _ => rfl) rfl)
  have handled : (session.handleAll visiting now).KeepsStocked earlier settings map :=
    List.foldlRecOn (motive := fun later : Session => later.KeepsStocked earlier settings map) _ _
      emptied fun _ keeps event _ => keeps.handle visiting now event
  have present := handled.of_continues (continues_dropSilent _ visiting now)
  have begun := present.of_continues (continues_onWorld _ World.beginTick)
  exact (begun.of_continues (continues_releaseInputs _ visiting)).of_continues (continues_onWorld ..)

theorem KeepsStocked.replicateFor (keeps : session.KeepsStocked earlier settings map)
    (client : ClientId) : (session.replicateFor client).KeepsStocked earlier settings map := by
  refine ⟨?_, ?_, fun other connection found => ?_⟩
  · rw [(session.follows_replicateFor client).settings]
    exact keeps.sameSettings
  · rw [(session.follows_replicateFor client).map]
    exact keeps.sameMap
  · rw [connection?_replicateFor] at found
    unfold Session.replicateFor
    cases held : session.connection? client with
    | none =>
        split at found
        · rename_i isClient
          rw [← isClient, held] at found
          cases found
        · exact keeps.stocked other connection found
    | some before =>
        dsimp only
        rw [feed_sendAll _ _ _ _ (before.isWelcome_of_mem_replicate session.world session.map)]
        split at found
        · rename_i isClient
          rw [← isClient, held, Option.map_some] at found
          cases found
          obtain ⟨sent, counted⟩ := exists_recordSents
            (before.replicate session.world session.map).messages
            (before.replicate session.world session.map).connection
          have stocked := keeps.stocked client before held
          rw [counted, if_pos isClient, ← isClient, keeps.sameMap]
          exact Connection.isStocked_replicate stocked session.world
        · rename_i isOther
          rw [if_neg isOther]
          exact keeps.stocked other connection found

theorem KeepsStocked.runTick (keeps : session.KeepsStocked earlier settings map) (visiting : Visiting)
    (now : Nat) : (session.runTick visiting now).KeepsStocked earlier settings map := by
  have told : ((session.moved visiting now).replicate visiting).KeepsStocked earlier settings map :=
    List.foldlRecOn (motive := fun later : Session => later.KeepsStocked earlier settings map) _ _
      (keeps.moved visiting now) fun _ keeps client _ => keeps.replicateFor client
  rw [runTick_eq]
  exact (told.of_continues (continues_onWorld _ World.clearDirty)).of_continues
    (continues_recordLevels _)

/-- After a tick all chunks around the entity of a client count as sent. -/
theorem KeepsStocked.contains_of_near (keeps : session.KeepsStocked earlier settings map)
    (visiting : Visiting) (now : Nat) {connection : Connection}
    (found : (session.runTick visiting now).connection? client = some connection) {owner : Entity}
    (lives : (session.runTick visiting now).world.get? connection.entity = some owner)
    (small : settings.streamRules.viewRadius.toNat < 2147483648) {position : ChunkPosition}
    (near : position.distance (settings.streamRules.chunkOf owner.motion.position) ≤
      settings.streamRules.viewRadius.toNat) :
    connection.streamer.streamed.contains position = true := by
  rw [connection?_runTick] at found
  obtain ⟨held, isHeld, rfl⟩ := Option.map_eq_some_iff.mp found
  obtain ⟨sent, counted⟩ := exists_informed (session.moved visiting now).world
    (session.moved visiting now).map held
  rw [world_runTick, World.get?_clearDirty, (informed_frame _ _ held).1] at lives
  obtain ⟨mover, moves, rfl⟩ := Option.map_eq_some_iff.mp lives
  obtain ⟨calls, isRun⟩ := ((keeps.moved visiting now).stocked client held isHeld).isRun
  have rules : held.streamer.rules = settings.streamRules := by rw [isRun, Streamer.rules_run]
  have complete : held.streamer.IsComplete := isRun ▸ Streamer.run_isComplete _ small calls
  rw [← rules] at small near
  rw [counted]
  change (held.replicate _ _).connection.streamer.streamed.contains position = true
  rw [(Connection.replicate_streams moves _).1]
  exact complete.contains_update small mover.motion.position near

/-- Between ticks a streamer may be called, and nothing is sent. -/
theorem KeepsStocked.callStreamers (keeps : before.KeepsStocked earlier settings map)
    (same : after.settings = before.settings ∧ after.map = before.map ∧
      after.outbound = before.outbound)
    (called : ∀ client connection, after.connection? client = some connection →
      ∃ held, before.connection? client = some held ∧
        (connection.streamer = held.streamer ∨ ∃ next,
          connection.streamer = held.streamer.call next ∧ ∀ position, next ≠ .update position)) :
    after.KeepsStocked earlier settings map where
  sameSettings := same.1.trans keeps.sameSettings
  sameMap := same.2.1.trans keeps.sameMap
  stocked client connection found := by
    have fed : after.feed earlier client = before.feed earlier client := by
      unfold feed
      rw [same.2.2]
    obtain ⟨held, isHeld, still | ⟨next, isCall, quiet⟩⟩ := called client connection found
    · rw [still, fed]
      exact keeps.stocked client held isHeld
    · rw [isCall, fed]
      exact (keeps.stocked client held isHeld).call next fun position isUpdate =>
        absurd isUpdate (quiet position)

theorem KeepsStocked.teleport? (keeps : session.KeepsStocked earlier settings map)
    (client : ClientId) (position : Vec3) :
    ((session.teleport? client position).getD session).KeepsStocked earlier settings map := by
  unfold Session.teleport?
  split
  · exact keeps
  · split
    · exact keeps
    · rename_i world _
      have relocated := keeps.of_continues (session.continues_withWorld world)
      rw [Option.getD_some]
      refine relocated.callStreamers ⟨rfl, rfl, rfl⟩ fun other connection found => ?_
      rw [connection?_modifyConnection] at found
      split at found
      · obtain ⟨held, isHeld, rfl⟩ := Option.map_eq_some_iff.mp found
        exact ⟨held, isHeld, Or.inr ⟨.reset, rfl, fun _ => nofun⟩⟩
      · exact ⟨connection, found, Or.inl rfl⟩

theorem KeepsStocked.invalidateChunk (keeps : session.KeepsStocked earlier settings map)
    (chunk : ChunkPosition) : (session.invalidateChunk chunk).KeepsStocked earlier settings map := by
  refine keeps.callStreamers ⟨rfl, rfl, rfl⟩ fun client connection found => ?_
  rw [connection?_invalidateChunk] at found
  obtain ⟨held, isHeld, rfl⟩ := Option.map_eq_some_iff.mp found
  exact ⟨held, isHeld, Or.inr ⟨.invalidate chunk, rfl, fun _ => nofun⟩⟩

theorem KeepsStocked.drain (keeps : session.KeepsStocked earlier settings map) :
    session.drainOutbound.2.KeepsStocked (earlier ++ session.drainOutbound.1) settings map where
  sameSettings := keeps.sameSettings
  sameMap := keeps.sameMap
  stocked client connection found := by
    have fed : session.drainOutbound.2.feed (earlier ++ session.drainOutbound.1) client =
        session.feed earlier client := by
      unfold feed drainOutbound
      rw [List.append_nil]
    rw [fed]
    exact keeps.stocked client connection found

namespace Chronicle

theorem keepsStocked_act {chronicle : Chronicle}
    (keeps : chronicle.session.KeepsStocked chronicle.taken settings map) (action : Action) :
    (chronicle.act action).session.KeepsStocked (chronicle.act action).taken settings map := by
  cases action with
  | submit event =>
      change ((chronicle.session.submit event).toOption.getD chronicle.session).KeepsStocked _ _ _
      unfold submit
      cases chronicle.session.inbox.submit event with
      | error _ => exact keeps
      | ok inbox => exact keeps.of_continues (continues_of_same rfl rfl (fun _ => rfl) rfl)
  | tick visiting now => exact keeps.runTick visiting now
  | teleport client position => exact keeps.teleport? client position
  | giveUp visiting client fault =>
      exact keeps.of_continues
        (chronicle.session.continues_disconnect visiting client (some fault))
  | invalidateChunk chunk => exact keeps.invalidateChunk chunk
  | drain => exact keeps.drain

theorem run_keepsStocked (settings : Settings) (map : TileMap) (actions : List Action) :
    (run settings map actions).session.KeepsStocked (run settings map actions).taken settings map := by
  have first : (start settings map).session.KeepsStocked (start settings map).taken settings map := by
    refine ⟨rfl, rfl, fun client connection found => ?_⟩
    unfold connection? start ofSettings at found
    simp at found
  exact List.foldlRecOn (motive := fun later : Chronicle =>
    later.session.KeepsStocked later.taken settings map) _ _ first
    fun _ keeps action _ => keepsStocked_act keeps action

end Chronicle

end Session

end Overworld
