import Overworld.Proofs.Session.Confinement
import Overworld.Proofs.Session.Passes

set_option autoImplicit false

/-!
Where the inputs of one client stand in a session, and what each step makes of it. Events of the
client itself put inputs in or release its keys, the release of a tick hands inputs over, and nothing
else matters; in particular not the events of others.
-/

namespace Overworld

namespace Session

variable {session before after : Session} {client : ClientId} {settings : Settings}

/-- Where the inputs of a client stand. -/
def desk? (session : Session) (client : ClientId) : Option Desk :=
  (session.connection? client).map fun connection =>
    { rules := connection.sequencer.rules
      pending := connection.sequencer.pending
      keys := (session.world.get? connection.entity).map (·.keys) }

/-- The entity of a connection and its inputs. -/
def inputsOf (connection : Connection) : EntityId × SequencerRules × List (Tick × Keys) :=
  (connection.entity, connection.sequencer.rules, connection.sequencer.pending)

theorem desk?_congr
    (inputs : (after.connection? client).map inputsOf = (before.connection? client).map inputsOf)
    (keys : ∀ id, before.entityOf? client = some id →
      (after.world.get? id).map (·.keys) = (before.world.get? id).map (·.keys)) :
    after.desk? client = before.desk? client := by
  unfold desk?
  cases was : before.connection? client with
  | none =>
      rw [was, Option.map_none, Option.map_eq_none_iff] at inputs
      rw [inputs]
      rfl
  | some connection =>
      rw [was, Option.map_some, Option.map_eq_some_iff] at inputs
      obtain ⟨twin, is, same⟩ := inputs
      obtain ⟨entity, rules, pending⟩ : twin.entity = connection.entity ∧
          twin.sequencer.rules = connection.sequencer.rules ∧
          twin.sequencer.pending = connection.sequencer.pending := by
        simpa [inputsOf] using same
      have held := keys connection.entity (congrArg _ was)
      rw [is, Option.map_some, Option.map_some, entity, rules, pending, held]

theorem desk?_eq_none_iff : session.desk? client = none ↔ session.connection? client = none :=
  Option.map_eq_none_iff

theorem desk?_modifyConnection (session : Session) (client other : ClientId)
    (change : Connection → Connection)
    (same : ∀ connection, inputsOf (change connection) = inputsOf connection) :
    (session.modifyConnection client change).desk? other = session.desk? other :=
  desk?_congr (session.map_modifyConnection client change inputsOf (fun connection _ =>
    same connection) other) fun _ _ => rfl

theorem desk?_send (session : Session) (client other : ClientId) (message : ServerMessage) :
    (session.send client message).desk? other = session.desk? other :=
  session.desk?_modifyConnection client other _ fun _ => rfl

theorem desk?_sendAdjustment (session : Session) (client other : ClientId) :
    (session.sendAdjustment client).desk? other = session.desk? other := by
  unfold sendAdjustment
  cases found : session.connection? client with
  | none => rfl
  | some connection =>
      have taken : (session.modifyConnection client fun held =>
          { held with sequencer := connection.sequencer.takeAdjustment.2 }).desk? other =
            session.desk? other := by
        refine desk?_congr (session.map_modifyConnection client _ inputsOf
          (fun held isHeld => ?_) other) fun _ _ => rfl
        rw [found] at isHeld
        cases isHeld
        rfl
      dsimp only
      split
      · exact taken
      · exact (desk?_send ..).trans taken

/-- A dropped input releases the keys of its client. -/
theorem desk?_recordDrop {desk : Desk} {entity : EntityId} (reason : DropReason)
    (owns : session.entityOf? client = some entity) (stands : session.desk? client = some desk) :
    (session.recordAdmission entity (.dropped reason)).desk? client =
      some { desk with keys := desk.keys.map fun _ => .neutral } := by
  obtain ⟨connection, found, rfl⟩ := Option.map_eq_some_iff.mp owns
  have neutral : ((session.world.neutralize connection.entity).get? connection.entity).map
      (·.keys) = ((session.world.get? connection.entity).map (·.keys)).map fun _ => .neutral := by
    unfold World.neutralize
    rw [World.get?_modify, if_pos rfl, Option.map_map, Option.map_map]
    rfl
  unfold desk? at stands ⊢
  rw [found, Option.map_some] at stands
  cases stands
  have kept : (session.recordAdmission connection.entity (.dropped reason)).connection? client =
      some connection := found
  rw [kept, Option.map_some]
  exact congrArg (fun keys => some (Desk.mk connection.sequencer.rules
    connection.sequencer.pending keys)) neutral

theorem desk?_withSequencer {desk : Desk} (stands : session.desk? client = some desk)
    (sequencer : Sequencer) :
    (session.modifyConnection client fun held => { held with sequencer }).desk? client =
      some { desk with rules := sequencer.rules, pending := sequencer.pending } := by
  obtain ⟨connection, found, rfl⟩ := Option.map_eq_some_iff.mp stands
  unfold desk?
  rw [connection?_withSequencer found]
  rfl

theorem desk?_disconnect (session : Session) (visiting : Visiting) (client : ClientId)
    (fault : Option ConnectionFault) : (session.disconnect visiting client fault).desk? client = none := by
  rw [desk?_eq_none_iff]
  cases found : session.connection? client with
  | none =>
      rw [disconnect_of_unknown found]
      exact found
  | some connection => exact (connection?_disconnect found visiting fault client).trans (if_pos rfl)

/-- An input that is accepted is held; one that is dropped releases the keys; and one from a clock too
far off ends the connection. -/
theorem desk?_receiveInput {connection : Connection} {desk : Desk}
    (found : session.connection? client = some connection)
    (stands : session.desk? client = some desk) (visiting : Visiting) (tick : Tick) (keys : Keys) :
    (∃ fault, connection.sequencer.receive session.tick tick keys = .error fault ∧
      (session.receiveInput visiting client tick keys).desk? client = none) ∨
    (∃ sequencer, connection.sequencer.receive session.tick tick keys = .ok (.accepted, sequencer) ∧
      (session.receiveInput visiting client tick keys).desk? client =
        some { desk with pending := Sequencer.insertPending (tick, keys) desk.pending }) ∨
    ∃ reason sequencer,
      connection.sequencer.receive session.tick tick keys = .ok (.dropped reason, sequencer) ∧
      (session.receiveInput visiting client tick keys).desk? client =
        some { desk with keys := desk.keys.map fun _ => .neutral } := by
  have isDesk : desk.rules = connection.sequencer.rules ∧
      desk.pending = connection.sequencer.pending := by
    unfold desk? at stands
    rw [found] at stands
    cases stands
    exact ⟨rfl, rfl⟩
  unfold receiveInput
  rw [found]
  dsimp only
  cases received : connection.sequencer.receive session.tick tick keys with
  | error fault => exact Or.inl ⟨fault, rfl, session.desk?_disconnect visiting client _⟩
  | ok answer =>
      obtain ⟨admission, sequencer⟩ := answer
      have rules := Sequencer.rules_receive received
      obtain ⟨-, pending⟩ := Sequencer.receive_cases received
      have changed := desk?_withSequencer stands sequencer
      dsimp only
      rcases pending with ⟨rfl, -, pending⟩ | ⟨⟨reason, rfl⟩, pending⟩
      · refine Or.inr (Or.inl ⟨sequencer, rfl, ?_⟩)
        rw [rules, pending, ← isDesk.1, ← isDesk.2] at changed
        exact (desk?_sendAdjustment ..).trans changed
      · refine Or.inr (Or.inr ⟨reason, sequencer, rfl, ?_⟩)
        rw [rules, pending, ← isDesk.1, ← isDesk.2] at changed
        have owns : (session.modifyConnection client fun held =>
            { held with sequencer }).entityOf? client = some connection.entity := by
          unfold entityOf?
          rw [connection?_withSequencer found]
          rfl
        exact (desk?_sendAdjustment ..).trans (desk?_recordDrop reason owns changed)

/-- A sign of life changes nothing, or it ends the connection. -/
theorem desk?_receiveHeartbeat {desk : Desk} (stands : session.desk? client = some desk)
    (visiting : Visiting) (tick : Tick) :
    (session.receiveHeartbeat visiting client tick).desk? client = none ∨
      (session.receiveHeartbeat visiting client tick).desk? client = some desk := by
  obtain ⟨connection, found, rfl⟩ := Option.map_eq_some_iff.mp stands
  unfold receiveHeartbeat
  rw [found]
  dsimp only
  cases observed : connection.sequencer.observe session.tick tick with
  | error fault => exact Or.inl (session.desk?_disconnect visiting client _)
  | ok sequencer =>
      have changed := desk?_withSequencer stands sequencer
      rw [Sequencer.rules_observe observed, Sequencer.observe_pending observed] at changed
      exact Or.inr ((desk?_sendAdjustment ..).trans changed)

/-- What others do does not matter, as long as no two share an entity. -/
theorem Confined.desk? {settings : Settings} (confined : before.Confined after client)
    (census : before.CensusHolds settings) (still : after.CensusHolds settings) {other : ClientId}
    (different : client ≠ other) : after.desk? other = before.desk? other := by
  have apart : ∀ id, before.entityOf? other = some id → after.entityOf? other = some id →
      after.world.get? id = before.world.get? id := by
    intro id was is
    refine confined.entities id (fun shared => ?_) fun shared => ?_
    · exact different (census.own client other id shared was)
    · exact different (still.own client other id shared is)
  have inputs : (after.connection? other).map inputsOf = (before.connection? other).map inputsOf := by
    rcases confined.others other different with ⟨same, -⟩ | ⟨gone, connection, -, -, was, -, is, -⟩
    · rw [same]
    · rw [was, is]
      rfl
  refine desk?_congr inputs fun id was => ?_
  have is : after.entityOf? other = some id := by
    have entities := congrArg (Option.map Prod.fst) inputs
    rw [Option.map_map, Option.map_map] at entities
    exact entities.trans was
  rw [apart id was is]

/-- A client that asks to join is in already, or it stays out, or it comes with nothing held. -/
theorem desk?_connect (session : Session) (client : ClientId) (endpoint : Endpoint) (now : Nat)
    (numbered : (session.connect client endpoint now).world.places ≤ 4294967296) :
    session.isConnected client = true ∧ session.connect client endpoint now = session ∨
    session.isConnected client = false ∧
      ((session.connect client endpoint now).isConnected client = false ∨
        (session.connect client endpoint now).isConnected client = true ∧
        (session.connect client endpoint now).desk? client =
          some ⟨session.settings.sequencerRules, [], some .neutral⟩) := by
  obtain same | ⟨free, -, refused⟩ |
    ⟨free, -, place, random, own, world, joined, -, came, isJoined, accepted⟩ :=
    session.connect_cases client endpoint now
  · exact Or.inl same
  · refine Or.inr ⟨free, Or.inl ?_⟩
    rw [← connection?_eq_none_iff] at free ⊢
    have sent := session.connection?_send client client
      (.kicked (ConnectionFault.serverFull session.settings.maxConnections).message)
    rw [if_pos rfl, free] at sent
    rw [refused]
    exact sent
  · have members := connection?_of_insert (congrArg Session.connections isJoined)
    have isWorld : joined.world = world := by rw [isJoined]
    have isIn : (joined.send client (.connectionResponse world.tick own place)).connection? client =
        some (Connection.opened client endpoint own session.settings.sequencerRules
          session.settings.interestRules session.settings.streamRules now).recordSent := by
      rw [connection?_send, if_pos rfl, members, if_pos rfl]
      rfl
    have alive : joined.world.get? own = some (.spawned place actorHalfExtent .controlled) := by
      rw [accepted] at numbered
      change joined.world.places ≤ _ at numbered
      rw [isWorld] at numbered ⊢
      rw [World.get?_spawn came numbered, if_pos rfl]
    refine Or.inr ⟨free, Or.inr ⟨?_, ?_⟩⟩
    · rw [accepted, isConnected_eq, isIn]
      rfl
    · have keys : ((joined.send client (.connectionResponse world.tick own place)).world.get?
          own).map (·.keys) = some .neutral := congrArg (Option.map (·.keys)) alive
      rw [accepted, desk?, isIn, Option.map_some]
      exact congrArg (fun keys => some (Desk.mk session.settings.sequencerRules [] keys)) keys

/-- Where others are silent for too long it does not matter. -/
theorem desk?_dropSilent (keeps : session.KeepsCensus settings) (visiting : Visiting) (now : Nat)
    (numbered : session.world.places ≤ 4294967296) (client : ClientId) :
    (session.dropSilent visiting now).desk? client = none ∨
      (session.dropSilent visiting now).desk? client = session.desk? client := by
  unfold dropSilent
  generalize List.filter _ _ = silent
  induction silent generalizing session with
  | nil => exact Or.inr rfl
  | cons connection rest ih =>
      have counted : (session.onMetrics (·.tally .connectionsTimedOut)).KeepsCensus settings :=
        keeps.of_stays (session.rests_onMetrics _).toStays
      obtain ⟨gone, isGone⟩ : ∃ gone, gone = disconnect visiting
        (session.onMetrics (·.tally .connectionsTimedOut)) connection.client
          (some (.timeout (connection.idle now / 1000))) := ⟨_, rfl⟩
      have left : gone.KeepsCensus settings := isGone ▸ counted.disconnect visiting _ _
      have places : gone.world.places = session.world.places :=
        isGone ▸ places_disconnect _ visiting connection.client _
      have confined : Confined (session.onMetrics (·.tally .connectionsTimedOut)) gone
          connection.client :=
        isGone ▸ confined_disconnect _ visiting connection.client _
      have one : gone.desk? client = none ∨ gone.desk? client = session.desk? client := by
        by_cases isClient : connection.client = client
        · rw [isGone, ← isClient]
          exact Or.inl (desk?_disconnect ..)
        · exact Or.inr (confined.desk? (counted numbered) (left (places ▸ numbered)) isClient)
      rw [List.foldl_cons, ← isGone]
      rcases ih left (places ▸ numbered) with none | same
      · exact Or.inl none
      · rw [same]
        exact one

theorem desk?_releaseInputs (apart : ∀ client other id, session.entityOf? client = some id →
      session.entityOf? other = some id → client = other) (visiting : Visiting)
    (client : ClientId) :
    (session.releaseInputs visiting).desk? client =
      (session.desk? client).map (·.release session.tick) := by
  unfold desk?
  rw [connection?_releaseInputs]
  cases found : session.connection? client with
  | none => rfl
  | some connection =>
      have keys := congrArg (Option.map (·.keys)) (get?_releaseInputs visiting apart found)
      rw [Option.map_map] at keys
      refine congrArg (fun keys => some (Desk.mk connection.sequencer.rules
        (connection.sequencer.release session.tick).2.pending keys)) (keys.trans ?_)
      rw [Option.map_map]
      rfl

/-- What a client controls holds on to its keys while it moves. -/
theorem desk?_step (player : ∀ id, session.entityOf? client = some id →
      session.world.conduct? id = some .player) :
    (session.onWorld fun world => world.step.syncGrid).desk? client = session.desk? client := by
  refine desk?_congr rfl fun id owns => ?_
  have stepped : (session.onWorld fun world => world.step.syncGrid).world.get? id =
      (session.world.get? id).map fun entity =>
        entity.step session.world.gait session.world.dt := World.get?_step ..
  obtain ⟨entity, found, conduct⟩ := Option.map_eq_some_iff.mp (player id owns)
  rw [stepped, found, Option.map_some, Option.map_some, Option.map_some]
  simp [Entity.step, Behavior.advance, Behavior.eq_controlled conduct]

/-- Once everything has moved, the inputs up to the tick were handed over. -/
theorem desk?_moved (keeps : session.KeepsCensus settings) (visiting : Visiting) (now : Nat)
    (numbered : (session.moved visiting now).world.places ≤ 4294967296) (client : ClientId) :
    let present := (session.handleAll visiting now).dropSilent visiting now
    (session.moved visiting now).tick = present.tick + 1 ∧
      (session.moved visiting now).desk? client =
        (present.desk? client).map (·.release (present.tick + 1)) := by
  intro present
  have rests := session.rests_moved visiting now
  rw [rests.world.places] at numbered
  have census := keeps.present visiting now numbered
  have begun := present.rests_onWorld (World.remains_beginTick present.world)
  have ready := begun.trans (rests_releaseInputs _ visiting)
  refine ⟨tick_releaseInputs _ visiting, ?_⟩
  have apart : ∀ client other id,
      (present.onWorld World.beginTick).entityOf? client = some id →
      (present.onWorld World.beginTick).entityOf? other = some id → client = other := by
    intro client other id
    rw [begun.entity, begun.entity]
    exact census.own client other id
  have released := desk?_releaseInputs apart visiting client
  refine (desk?_step fun id owns => ?_).trans released
  rw [ready.entity] at owns
  rw [ready.world.conduct]
  exact census.controlled client id owns

/-- What clients are told changes nothing of this. -/
theorem desk?_runTick (session : Session) (visiting : Visiting) (now : Nat) (client : ClientId) :
    (session.runTick visiting now).desk? client = (session.moved visiting now).desk? client := by
  have told : ((session.moved visiting now).replicate visiting).desk? client =
      (session.moved visiting now).desk? client := by
    refine desk?_congr ?_ fun id _ => by rw [world_replicate]
    rw [connection?_replicate, Option.map_map]
    refine congrArg (Option.map · _) (funext fun connection => ?_)
    obtain ⟨entity, sequencer⟩ := informed_frame (session.moved visiting now).world
      (session.moved visiting now).map connection
    rw [Function.comp_apply, inputsOf, entity, sequencer]
    rfl
  have ended : (session.runTick visiting now).desk? client =
      ((session.moved visiting now).replicate visiting).desk? client := by
    refine desk?_congr rfl fun id _ => ?_
    have cleared : (session.runTick visiting now).world.get? id =
        (((session.moved visiting now).replicate visiting).world.get? id).map fun entity =>
          { entity with dirty := false } := World.get?_clearDirty ..
    rw [cleared, Option.map_map]
    rfl
  exact ended.trans told

theorem desk?_teleport? {mover : ClientId} {position : Vec3}
    (moved : session.teleport? mover position = some after) (client : ClientId) :
    after.tick = session.tick ∧ after.desk? client = session.desk? client := by
  unfold teleport? at moved
  split at moved
  · cases moved
  · split at moved
    · cases moved
    · rename_i world movedWorld
      cases moved
      obtain ⟨entity, found, -, isWorld⟩ := World.teleport?_cases movedWorld
      have tick : world.tick = session.world.tick := by
        rw [isWorld]
        rfl
      refine ⟨tick, (desk?_modifyConnection { session with world } mover client
        (fun connection => { connection with streamer := connection.streamer.reset })
        fun _ => rfl).trans ?_⟩
      refine desk?_congr rfl fun id _ => ?_
      rw [isWorld]
      refine (congrArg (Option.map (·.keys)) (World.get?_modify ..)).trans ?_
      split
      · rename_i isIt
        rw [isIt, found]
        rfl
      · rfl

theorem desk?_invalidateChunk (session : Session) (chunk : ChunkPosition) (client : ClientId) :
    (session.invalidateChunk chunk).desk? client = session.desk? client := by
  refine desk?_congr ?_ fun _ _ => rfl
  rw [connection?_invalidateChunk, Option.map_map]
  rfl

end Session

end Overworld
