import Overworld.Proofs.Client.Turn
import Overworld.Proofs.Sequencer.Calm
import Overworld.Proofs.Session.Members

set_option autoImplicit false

/-!
How a session serves one of its clients: what it makes of a message, and how it takes in a newcomer.
Each step is stated for the client it is about and for all the others, who do not notice.
-/

namespace Overworld

/-- Where a client stands with the server: its entity, the inputs held for it, and what is queued
for it. -/
structure Standing where
  own : EntityId
  pending : List (Tick × Keys)
  keys : Keys
  motion : Motion
  letters : List ServerMessage

namespace Session

structure Serves (session : Session) (now : Nat) (tick : Tick) (client : ClientId)
    (standing : Standing) : Prop where
  connected : ∃ connection, session.connection? client = some connection ∧
    connection.entity = standing.own ∧ connection.lastActivity = now ∧
    connection.sequencer.IsCalm tick standing.pending
  controls : ∃ entity, session.world.get? standing.own = some entity ∧
    entity.behavior = .controlled ∧ entity.keys = standing.keys ∧ entity.motion = standing.motion
  queued : dispatchesTo client session.outbound.toList = standing.letters.map .message

variable {session after : Session} {now : Nat} {tick : Tick} {client other : ClientId}
  {standing : Standing}

theorem Serves.of_same (serves : session.Serves now tick client standing)
    (connection : after.connection? client = session.connection? client)
    (entity : after.world.get? standing.own = session.world.get? standing.own)
    (letters : dispatchesTo client after.outbound.toList =
      dispatchesTo client session.outbound.toList) : after.Serves now tick client standing := by
  obtain ⟨connected, controls, queued⟩ := serves
  refine ⟨?_, ?_, letters.trans queued⟩
  · rw [connection]
    exact connected
  · rw [entity]
    exact controls

theorem Serves.isConnected (serves : session.Serves now tick client standing) :
    session.isConnected client = true := by
  obtain ⟨connection, found, -⟩ := serves.connected
  exact isConnected_of_connection? found

/-- What happened to a session was about `client` and its entity `own`, and no one else. -/
structure Spares (before after : Session) (client : ClientId) (own : EntityId) : Prop where
  connections : ∀ other, client ≠ other → after.connection? other = before.connection? other
  entities : ∀ id, id ≠ own → after.world.get? id = before.world.get? id
  letters : ∀ other, client ≠ other →
    dispatchesTo other after.outbound.toList = dispatchesTo other before.outbound.toList

theorem Spares.serves {own : EntityId} (spares : session.Spares after client own)
    (serves : session.Serves now tick other standing) (different : client ≠ other)
    (apart : standing.own ≠ own) : after.Serves now tick other standing :=
  serves.of_same (spares.connections other different) (spares.entities _ apart)
    (spares.letters other different)

/-- The input that waits for its tick after the client said it, if it said one. -/
def due (tick : Tick) (told keys : Keys) : List (Tick × Keys) :=
  if keys = told then [] else [(tick, keys)]

/-- A session after a message that only its sender's connection took notice of. -/
structure Notes (before after : Session) (client : ClientId) : Prop where
  world : after.world = before.world
  outbound : after.outbound = before.outbound
  others : ∀ other, client ≠ other → after.connection? other = before.connection? other

theorem Notes.trans {first second third : Session} (start : first.Notes second client)
    (finish : second.Notes third client) : first.Notes third client where
  world := finish.world.trans start.world
  outbound := finish.outbound.trans start.outbound
  others other different := (finish.others other different).trans (start.others other different)

theorem Notes.spares (notes : session.Notes after client) (own : EntityId) :
    session.Spares after client own where
  connections := notes.others
  entities id _ := by rw [notes.world]
  letters other _ := by rw [notes.outbound]

theorem notes_modifyConnection (session : Session) (client : ClientId)
    (change : Connection → Connection) :
    session.Notes (session.modifyConnection client change) client where
  world := rfl
  outbound := rfl
  others other different := by rw [connection?_modifyConnection, if_neg different]

/-- Where there is no shift to send, none is sent. -/
theorem notes_sendAdjustment {connection : Connection}
    (found : session.connection? client = some connection)
    (content : connection.sequencer.adjustment = none) :
    session.Notes (session.sendAdjustment client) client ∧
      (session.sendAdjustment client).connection? client = some connection := by
  have quiet : session.sendAdjustment client = session.modifyConnection client fun held =>
      { held with sequencer := { connection.sequencer with adjustment := none } } := by
    unfold sendAdjustment
    rw [found]
    simp only [Sequencer.takeAdjustment, content]
  have same : ({ connection.sequencer with adjustment := none } : Sequencer) =
      connection.sequencer := by
    rw [← content]
  rw [quiet]
  refine ⟨notes_modifyConnection .., ?_⟩
  rw [connection?_modifyConnection, if_pos rfl, found, Option.map_some, same]

theorem connection?_withSequencer {connection : Connection}
    (found : session.connection? client = some connection) (sequencer : Sequencer) :
    (session.modifyConnection client fun held => { held with sequencer }).connection? client =
      some { connection with sequencer } := by
  rw [connection?_modifyConnection, if_pos rfl, found, Option.map_some]

theorem notes_receiveHeartbeat {connection : Connection}
    (found : session.connection? client = some connection) {pending : List (Tick × Keys)}
    (calm : connection.sequencer.IsCalm session.tick pending) (visiting : Visiting)
    (room : session.tick.toNat + 2 < 18446744073709551616) :
    ∃ sequencer, sequencer.IsCalm session.tick pending ∧
      session.Notes (session.receiveHeartbeat visiting client (session.tick + 2)) client ∧
      (session.receiveHeartbeat visiting client (session.tick + 2)).connection? client =
        some { connection with sequencer } := by
  obtain ⟨sequencer, observed, calm⟩ := calm.observe room
  have done : session.receiveHeartbeat visiting client (session.tick + 2) =
      (session.modifyConnection client fun held =>
        { held with sequencer }).sendAdjustment client := by
    unfold receiveHeartbeat
    rw [found]
    dsimp only
    rw [observed]
  obtain ⟨notes, kept⟩ :=
    notes_sendAdjustment (connection?_withSequencer found sequencer) calm.content
  rw [done]
  exact ⟨sequencer, calm, (notes_modifyConnection ..).trans notes, kept⟩

theorem notes_receiveInput {connection : Connection}
    (found : session.connection? client = some connection) {pending : List (Tick × Keys)}
    (calm : connection.sequencer.IsCalm session.tick pending) (visiting : Visiting)
    (room : session.tick.toNat + 2 < 18446744073709551616) (keys : Keys)
    (before : ∀ entry ∈ pending, entry.1 < session.tick + 2) :
    ∃ sequencer, sequencer.IsCalm session.tick (pending ++ [(session.tick + 2, keys)]) ∧
      session.Notes (session.receiveInput visiting client (session.tick + 2) keys) client ∧
      (session.receiveInput visiting client (session.tick + 2) keys).connection? client =
        some { connection with sequencer } := by
  obtain ⟨sequencer, accepted, calm⟩ := calm.receive room keys before
  obtain ⟨counted, isCounted⟩ : ∃ counted, counted = (session.modifyConnection client fun held =>
    { held with sequencer }).recordAdmission connection.entity .accepted := ⟨_, rfl⟩
  have done : session.receiveInput visiting client (session.tick + 2) keys =
      counted.sendAdjustment client := by
    unfold receiveInput
    rw [found]
    dsimp only
    rw [accepted, isCounted]
  have took : session.Notes counted client := by
    rw [isCounted]
    exact ⟨rfl, rfl, (notes_modifyConnection session client _).others⟩
  have held : counted.connection? client = some { connection with sequencer } := by
    rw [isCounted]
    exact connection?_withSequencer found sequencer
  obtain ⟨notes, kept⟩ := notes_sendAdjustment held calm.content
  rw [done]
  exact ⟨sequencer, calm, took.trans notes, kept⟩

/-- A message of a served client is taken as it was meant. -/
theorem notes_receive {connection : Connection}
    (found : session.connection? client = some connection) {pending : List (Tick × Keys)}
    (calm : connection.sequencer.IsCalm session.tick pending) (visiting : Visiting)
    (room : session.tick.toNat + 2 < 18446744073709551616) (told keys : Keys)
    (before : ∀ entry ∈ pending, entry.1 < session.tick + 2) :
    ∃ sequencer,
      sequencer.IsCalm session.tick (pending ++ due (session.tick + 2) told keys) ∧
      session.Notes (session.receive visiting client (Player.saying (session.tick + 2) told keys))
        client ∧
      (session.receive visiting client (Player.saying (session.tick + 2) told keys)).connection?
        client = some { connection with sequencer } := by
  unfold Player.saying due
  by_cases same : keys = told
  · rw [if_pos same, if_pos same, List.append_nil]
    exact notes_receiveHeartbeat found calm visiting room
  · rw [if_neg same, if_neg same]
    exact notes_receiveInput found calm visiting room keys before

theorem Serves.handle (serves : session.Serves now tick client standing)
    (isNow : session.tick = tick) (visiting : Visiting) (bytes : UInt64)
    (room : tick.toNat + 2 < 18446744073709551616) (told keys : Keys)
    (before : ∀ entry ∈ standing.pending, entry.1 < tick + 2) :
    session.Notes (session.handle visiting now
        ⟨client, .message (Player.saying (tick + 2) told keys), bytes⟩) client ∧
      (session.handle visiting now
        ⟨client, .message (Player.saying (tick + 2) told keys), bytes⟩).Serves now tick client
          { standing with pending := standing.pending ++ due (tick + 2) told keys } := by
  subst isNow
  obtain ⟨connection, found, entity, active, calm⟩ := serves.connected
  obtain ⟨counted, isCounted, held, handled⟩ := handle_message_of_connected found visiting now
    (Player.saying (session.tick + 2) told keys) bytes
  have took : session.Notes counted client := by
    rw [isCounted]
    exact ⟨rfl, rfl, (notes_modifyConnection session client _).others⟩
  have still : counted.tick = session.tick := congrArg World.tick took.world
  rw [handled]
  rw [← still] at calm room before ⊢
  obtain ⟨sequencer, calmAfter, notes, kept⟩ :=
    notes_receive held calm visiting room told keys before
  have both := took.trans notes
  refine ⟨both, ⟨_, kept, entity, rfl, calmAfter⟩, ?_, ?_⟩
  · rw [both.world]
    exact serves.controls
  · rw [both.outbound]
    exact serves.queued

/-- A session after it gave a new client the entity `own`. -/
structure Welcomes (before after : Session) (client : ClientId) (own : EntityId) : Prop where
  spares : before.Spares after client own
  tick_eq : after.world.tick = before.world.tick
  fresh : before.world.get? own = none
  full : after.world.entities.vacant = []

theorem Serves.own_ne (serves : session.Serves now tick client standing) {id : EntityId}
    (fresh : session.world.get? id = none) : standing.own ≠ id := by
  intro same
  obtain ⟨entity, found, -⟩ := serves.controls
  rw [same, fresh] at found
  cases found

theorem Welcomes.serves_other {own : EntityId} (welcomes : session.Welcomes after client own)
    (serves : session.Serves now tick other standing) (different : client ≠ other) :
    after.Serves now tick other standing :=
  welcomes.spares.serves serves different (serves.own_ne welcomes.fresh)

theorem serves_connect (endpoint : Endpoint) (now : Nat)
    (free : session.isConnected client = false)
    (room : session.connections.size < session.settings.maxConnections)
    (lead : session.settings.sequencerRules = .standard)
    (full : session.world.entities.vacant = []) (numbered : session.world.places < 4294967296)
    (silent : dispatchesTo client session.outbound.toList = []) :
    ∃ own place, session.Welcomes (session.connect client endpoint now) client own ∧
      (session.connect client endpoint now).Serves now session.tick client
        ⟨own, [], .neutral, .atRest place, [.connectionResponse session.tick own place]⟩ := by
  obtain ⟨isIn, -⟩ | ⟨-, crowded, -⟩ |
    ⟨-, -, place, random, own, world, joined, -, came, isJoined, accepted⟩ :=
    session.connect_cases client endpoint now
  · rw [free] at isIn
    cases isIn
  · omega
  · have fresh := World.get?_spawn_of_full full numbered came
    have stillFull := World.vacant_spawn_of_full full came
    have tickEq : world.tick = session.world.tick := World.tick_spawn came
    have grown := World.places_spawn came
    have lives := World.get?_spawn came (by omega)
    have members := connection?_of_insert (congrArg Session.connections isJoined)
    have isWorld : joined.world = world := by rw [isJoined]
    have isOutbound : joined.outbound = session.outbound := by rw [isJoined]
    have sent := connection?_send joined client
    have queue := outbound_send joined client (.connectionResponse world.tick own place)
    have worldSent : (joined.send client (.connectionResponse world.tick own place)).world =
        world := isWorld
    rw [isOutbound] at queue
    rw [accepted]
    refine ⟨own, place, ⟨⟨?_, ?_, ?_⟩, ?_, fresh, ?_⟩, ?_, ?_, ?_⟩
    · intro other different
      rw [sent, if_neg different, members, if_neg different]
    · intro id different
      rw [worldSent, lives, if_neg different]
    · intro other different
      rw [queue, dispatchesTo_push, if_neg different]
    · rw [worldSent]
      exact tickEq
    · rw [worldSent]
      exact stillFull
    · refine ⟨(Connection.opened client endpoint own session.settings.sequencerRules
        session.settings.interestRules session.settings.streamRules now).recordSent, ?_, rfl, rfl, ?_⟩
      · rw [sent, if_pos rfl, members, if_pos rfl]
        rfl
      · have calm := Sequencer.isCalm_ofRules session.tick
        rw [← lead] at calm
        exact calm
    · refine ⟨.spawned place actorHalfExtent .controlled, ?_, rfl, rfl, rfl⟩
      rw [worldSent, lives, if_pos rfl]
    · rw [queue, dispatchesTo_push, if_pos rfl, silent, tickEq]
      rfl

end Session

end Overworld
