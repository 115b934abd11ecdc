import Overworld.Proofs.Session.Confinement
import Overworld.Proofs.Session.Diary

set_option autoImplicit false

/-!
What the passes of a tick come to for one client: what is released to its entity and what it is told.
Until the release time stands still.
-/

namespace Overworld

namespace Session

variable {session : Session} {client : ClientId}

theorem tick_releaseFor (session : Session) (client : ClientId) :
    (session.releaseFor client).tick = session.tick := by
  cases found : session.connection? client with
  | none =>
      unfold releaseFor
      rw [found]
  | some connection =>
      refine (congrArg World.tick (world_releaseFor found).1).trans ?_
      exact (setKeys_foldl_frame connection.entity _ session.world).1

theorem tick_releaseInputs (session : Session) (visiting : Visiting) :
    (session.releaseInputs visiting).tick = session.tick := by
  refine List.foldlRecOn (motive := fun later : Session => later.tick = session.tick) _ _ rfl
    fun later same client _ => ?_
  rw [tick_releaseFor, same]

theorem connection?_releaseInputs (session : Session) (visiting : Visiting) (client : ClientId) :
    (session.releaseInputs visiting).connection? client =
      (session.connection? client).map fun connection =>
        { connection with sequencer := (connection.sequencer.release session.tick).2 } := by
  refine connection?_pass_order (fun later => later.tick = session.tick)
    (fun later client other same => ?_) (fun later client same => ?_) session rfl visiting .release
    client
  · rw [connection?_releaseFor, same]
  · rw [tick_releaseFor, same]

theorem get?_setKeys_foldl_self (entity : EntityId) (ready : List (Tick × Keys)) (world : World) :
    (ready.foldl (fun world entry => world.setKeys entity entry.2) world).get? entity =
      (world.get? entity).map fun owner => { owner with keys := lastKeys owner.keys ready } := by
  induction ready generalizing world with
  | nil => exact Option.map_id'.symm
  | cons entry rest ih =>
      have one : (world.setKeys entity entry.2).get? entity =
          (world.get? entity).map fun owner => { owner with keys := entry.2 } :=
        (world.get?_modify entity entity _).trans (if_pos rfl)
      rw [List.foldl_cons, ih, one, Option.map_map]
      rfl

/-- A release leaves an entity that belongs to none of the clients as it is. -/
theorem get?_releaseFor_foldl_of_ne {clients : List ClientId} {id : EntityId} (session : Session)
    (foreign : ∀ client ∈ clients, session.entityOf? client ≠ some id) :
    (clients.foldl releaseFor session).world.get? id = session.world.get? id := by
  induction clients generalizing session with
  | nil => rfl
  | cons client rest ih =>
      have later : ∀ other ∈ rest, (session.releaseFor client).entityOf? other ≠ some id := by
        intro other member
        rw [(session.rests_releaseFor client).entity]
        exact foreign other (List.mem_cons_of_mem _ member)
      rw [List.foldl_cons, ih _ later]
      cases found : session.connection? client with
      | none =>
          unfold releaseFor
          rw [found]
      | some connection =>
          rw [(world_releaseFor found).1, get?_setKeys_foldl]
          rintro rfl
          exact foreign client List.mem_cons_self (congrArg _ found)

/-- The entity of a client is handed what the client's sequencer has for the tick. -/
theorem get?_releaseFor_foldl {clients : List ClientId} (once : clients.Nodup) (session : Session)
    (apart : ∀ client other id, session.entityOf? client = some id →
      session.entityOf? other = some id → client = other)
    (member : client ∈ clients) {connection : Connection}
    (found : session.connection? client = some connection) :
    (clients.foldl releaseFor session).world.get? connection.entity =
      (session.world.get? connection.entity).map fun owner =>
        { owner with
          keys := lastKeys owner.keys (connection.sequencer.release session.tick).1 } := by
  induction clients generalizing session with
  | nil => cases member
  | cons first rest ih =>
      obtain ⟨single, distinct⟩ := List.nodup_cons.mp once
      have still : ∀ other, (session.releaseFor first).entityOf? other = session.entityOf? other :=
        (session.rests_releaseFor first).entity
      have owns : session.entityOf? client = some connection.entity := congrArg _ found
      rw [List.foldl_cons]
      rcases List.mem_cons.mp member with rfl | inRest
      · have later : ∀ other ∈ rest,
            (session.releaseFor client).entityOf? other ≠ some connection.entity := by
          intro other inRest isOwner
          rw [still] at isOwner
          exact single (apart client other _ owns isOwner ▸ inRest)
        rw [get?_releaseFor_foldl_of_ne _ later, (world_releaseFor found).1,
          get?_setKeys_foldl_self]
      · have different : first ≠ client := fun same => single (same ▸ inRest)
        have kept : (session.releaseFor first).connection? client = some connection := by
          rw [connection?_releaseFor, if_neg different, found]
        have untouched : (session.releaseFor first).world.get? connection.entity =
            session.world.get? connection.entity := by
          have foreign : ∀ other ∈ [first], session.entityOf? other ≠ some connection.entity := by
            intro other isFirst isOwner
            rw [List.mem_singleton.mp isFirst] at isOwner
            exact different (apart first client _ isOwner owns)
          exact get?_releaseFor_foldl_of_ne session foreign
        have later := ih distinct (session.releaseFor first)
          (fun client other id => by rw [still, still]; exact apart client other id) inRest kept
        rw [later, untouched, tick_releaseFor]

theorem get?_releaseInputs_of_ne (visiting : Visiting) {id : EntityId}
    (foreign : ∀ client, session.entityOf? client ≠ some id) :
    (session.releaseInputs visiting).world.get? id = session.world.get? id :=
  get?_releaseFor_foldl_of_ne session fun client _ => foreign client

theorem get?_releaseInputs (visiting : Visiting)
    (apart : ∀ client other id, session.entityOf? client = some id →
      session.entityOf? other = some id → client = other) {connection : Connection}
    (found : session.connection? client = some connection) :
    (session.releaseInputs visiting).world.get? connection.entity =
      (session.world.get? connection.entity).map fun owner =>
        { owner with
          keys := lastKeys owner.keys (connection.sequencer.release session.tick).1 } := by
  refine get?_releaseFor_foldl (session.nodup_order visiting .release) session apart ?_ found
  rw [mem_order, isConnected_eq, found]
  rfl

theorem informed_frame (world : World) (map : TileMap) (connection : Connection) :
    (informed world map connection).entity = connection.entity ∧
      (informed world map connection).sequencer = connection.sequencer := by
  obtain ⟨entity, sequencer, -⟩ := replicate_frame connection world map
  obtain ⟨sent, counted⟩ := exists_informed world map connection
  rw [counted]
  exact ⟨entity, sequencer⟩

theorem tick_disconnect (session : Session) (visiting : Visiting) (client : ClientId)
    (fault : Option ConnectionFault) :
    (session.disconnect visiting client fault).tick = session.tick :=
  (session.givesUp_disconnect visiting client fault).tick

theorem tick_connect (session : Session) (client : ClientId) (endpoint : Endpoint) (now : Nat) :
    (session.connect client endpoint now).tick = session.tick := by
  obtain ⟨-, same⟩ | ⟨-, -, refused⟩ |
    ⟨-, -, place, random, own, world, joined, -, came, isJoined, accepted⟩ :=
    session.connect_cases client endpoint now
  · rw [same]
  · rw [refused]
    rfl
  · rw [accepted, isJoined]
    exact World.tick_spawn came

theorem tick_receive (session : Session) (visiting : Visiting) (client : ClientId)
    (message : ClientMessage) : (session.receive visiting client message).tick = session.tick := by
  cases message with
  | disconnect => exact session.tick_disconnect visiting client none
  | input tick keys =>
      unfold receive receiveInput
      dsimp only
      split
      · rfl
      · split
        · exact session.tick_disconnect visiting client _
        · refine (congrArg World.tick (world_sendAdjustment ..)).trans ?_
          rename_i connection _ _ admission sequencer _
          cases admission <;> rfl
  | heartbeat tick =>
      unfold receive receiveHeartbeat
      dsimp only
      split
      · rfl
      · split
        · exact session.tick_disconnect visiting client _
        · exact congrArg World.tick (world_sendAdjustment ..)

/-- Time does not pass while events are handled. -/
theorem tick_handle (session : Session) (visiting : Visiting) (now : Nat) (event : InboundEvent) :
    (session.handle visiting now event).tick = session.tick := by
  unfold handle
  split
  · exact session.tick_connect event.client _ now
  · exact session.tick_disconnect visiting event.client none
  · split
    · exact tick_receive _ visiting event.client _
    · rfl

theorem tick_dropSilent (session : Session) (visiting : Visiting) (now : Nat) :
    (session.dropSilent visiting now).tick = session.tick := by
  refine List.foldlRecOn (motive := fun later : Session => later.tick = session.tick) _ _ rfl
    fun later same connection _ => ?_
  rw [tick_disconnect]
  exact same

theorem tick_handleAll (session : Session) (visiting : Visiting) (now : Nat) :
    (session.handleAll visiting now).tick = session.tick := by
  refine List.foldlRecOn (motive := fun later : Session => later.tick = session.tick) _ _ rfl
    fun later same event _ => ?_
  rw [tick_handle, same]

theorem connection?_moved (session : Session) (visiting : Visiting) (now : Nat)
    (client : ClientId) :
    let present := (session.handleAll visiting now).dropSilent visiting now
    (session.moved visiting now).connection? client =
      (present.connection? client).map fun connection =>
        { connection with
          sequencer := (connection.sequencer.release (present.tick + 1)).2 } :=
  connection?_releaseInputs _ visiting client

theorem connection?_runTick (session : Session) (visiting : Visiting) (now : Nat)
    (client : ClientId) :
    (session.runTick visiting now).connection? client =
      ((session.moved visiting now).connection? client).map
        (informed (session.moved visiting now).world (session.moved visiting now).map) :=
  connection?_replicate _ visiting client

/-- At the beginning of the clock no one has been silent. -/
theorem dropSilent_zero (session : Session) (visiting : Visiting) :
    session.dropSilent visiting 0 = session :=
  dropSilent_of_active visiting fun _ connection _ => by
    simp [Connection.isTimedOut, Connection.idle]

end Session

end Overworld
