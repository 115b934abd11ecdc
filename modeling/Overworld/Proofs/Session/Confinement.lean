import Overworld.Proofs.Delivery.Farewells
import Overworld.Proofs.Session.Vacancy

set_option autoImplicit false

/-!
Whatever comes from a client, and whatever it is given up for, stays with that client. The others
notice at most that its entity has gone, and no entity but its own is touched; least of all by a
client that is not in, whoever lives in the place that its entity once had.
-/

namespace Overworld

namespace Session

variable {session before middle after : Session} {client : ClientId} {own : EntityId}

theorem Spares.trans (first : before.Spares middle client own)
    (second : middle.Spares after client own) : before.Spares after client own where
  connections other different :=
    (second.connections other different).trans (first.connections other different)
  entities id different := (second.entities id different).trans (first.entities id different)
  letters other different := (second.letters other different).trans (first.letters other different)

theorem spares_send (session : Session) (client : ClientId) (message : ServerMessage)
    (own : EntityId) : session.Spares (session.send client message) client own where
  connections other different := by rw [connection?_send, if_neg different]
  entities _ _ := rfl
  letters other different := by rw [outbound_send, dispatchesTo_push, if_neg different]

theorem spares_close (session : Session) (client : ClientId) (own : EntityId) :
    session.Spares (session.close client) client own where
  connections _ _ := rfl
  entities _ _ := rfl
  letters other different := by rw [outbound_close, dispatchesTo_push, if_neg different]

theorem spares_onMetrics (session : Session) (change : Metrics → Metrics) (client : ClientId)
    (own : EntityId) : session.Spares (session.onMetrics change) client own :=
  ⟨fun _ _ => rfl, fun _ _ => rfl, fun _ _ => rfl⟩

theorem spares_sendAdjustment (session : Session) (client : ClientId) (own : EntityId) :
    session.Spares (session.sendAdjustment client) client own := by
  unfold sendAdjustment
  split
  · exact ⟨fun _ _ => rfl, fun _ _ => rfl, fun _ _ => rfl⟩
  · dsimp only
    split
    · exact (notes_modifyConnection ..).spares own
    · exact (((notes_modifyConnection ..).spares own).trans (spares_onMetrics ..)).trans
        (spares_send ..)

/-- A dropped input touches the entity it was for, and nothing else. -/
theorem spares_recordAdmission (session : Session) (client : ClientId) (entity : EntityId)
    (admission : Admission) :
    session.Spares (session.recordAdmission entity admission) client entity := by
  cases admission with
  | accepted => exact session.spares_onMetrics (·.tally .inputsAccepted) client entity
  | dropped reason =>
      refine ⟨fun _ _ => rfl, fun id different => ?_, fun _ _ => rfl⟩
      exact (session.world.get?_modify entity id _).trans (if_neg different)

/-- Whoever joins takes no notice of the others; only its own id finds something else. -/
theorem spares_connect (session : Session) (client : ClientId) (endpoint : Endpoint) (now : Nat) :
    (session.connect client endpoint now).world = session.world ∧
        (∀ own, session.Spares (session.connect client endpoint now) client own) ∨
      ∃ own, (session.connect client endpoint now).entityOf? client = some own ∧
        session.Spares (session.connect client endpoint now) client own := by
  obtain ⟨-, same⟩ | ⟨-, -, refused⟩ |
    ⟨-, -, place, random, own, world, joined, -, came, isJoined, accepted⟩ :=
    session.connect_cases client endpoint now
  · rw [same]
    exact Or.inl ⟨rfl, fun _ => ⟨fun _ _ => rfl, fun _ _ => rfl, fun _ _ => rfl⟩⟩
  · rw [refused]
    exact Or.inl ⟨rfl, fun own => ((session.spares_send client _ own).trans
      (spares_close ..)).trans (spares_onMetrics ..)⟩
  · have members := connection?_of_insert (congrArg Session.connections isJoined)
    have joining : session.Spares joined client own := by
      refine ⟨fun other different => ?_, fun id different => ?_, fun other _ => ?_⟩
      · rw [members, if_neg different]
      · cases came
        rw [isJoined]
        exact Roster.get?_insert_of_ne _ _ different
      · rw [isJoined]
    refine Or.inr ⟨own, ?_, accepted ▸ joining.trans (spares_send ..)⟩
    rw [accepted, entityOf?, connection?_send, if_pos rfl, members, if_pos rfl]
    rfl

/-- What happened to a session is between it and `client`. Every other client is as it was, and so is
what is queued for it; but if `client` is out, one that saw its entity has lost that from its view,
and is told so. No entity changes but the one that is or was the client's own. -/
structure Confined (before after : Session) (client : ClientId) : Prop where
  others : ∀ other, client ≠ other →
    after.connection? other = before.connection? other ∧
        dispatchesTo other after.outbound.toList = dispatchesTo other before.outbound.toList ∨
      ∃ gone connection, before.entityOf? client = some gone ∧
        after.connection? client = none ∧
        before.connection? other = some connection ∧
        connection.interest.isVisible gone = true ∧
        after.connection? other = some { connection with
          interest := connection.interest.forget gone
          observed := connection.observed.erase gone
          messagesSent := connection.messagesSent + 1 } ∧
        dispatchesTo other after.outbound.toList =
          dispatchesTo other before.outbound.toList ++
            [.message (.entityLeft before.tick gone)]
  entities : ∀ id, before.entityOf? client ≠ some id → after.entityOf? client ≠ some id →
    after.world.get? id = before.world.get? id

theorem Confined.of_spares (spares : before.Spares after client own)
    (owned : before.entityOf? client = some own ∨ after.entityOf? client = some own) :
    before.Confined after client where
  others other different :=
    Or.inl ⟨spares.connections other different, spares.letters other different⟩
  entities id was is := by
    refine spares.entities id ?_
    rintro rfl
    exact owned.elim was is

theorem Confined.of_notes (confined : middle.Confined after client)
    (notes : before.Notes middle client)
    (owned : middle.entityOf? client = before.entityOf? client) : before.Confined after client := by
  refine ⟨fun other different => ?_, fun id was is => ?_⟩
  · rw [← notes.others other different, ← notes.outbound, ← owned,
      show before.tick = middle.tick from (congrArg World.tick notes.world).symm]
    exact confined.others other different
  · rw [← notes.world]
    exact confined.entities id (owned ▸ was) is

theorem confined_disconnect (session : Session) (visiting : Visiting) (client : ClientId)
    (fault : Option ConnectionFault) :
    session.Confined (session.disconnect visiting client fault) client := by
  cases found : session.connection? client with
  | none =>
      rw [disconnect_of_unknown found]
      exact ⟨fun _ _ => Or.inl ⟨rfl, rfl⟩, fun _ _ _ => rfl⟩
  | some leaver =>
      have owns : session.entityOf? client = some leaver.entity := congrArg _ found
      have members := connection?_disconnect found visiting fault
      refine ⟨fun other different => ?_, fun id was _ => ?_⟩
      · have queued := dispatchesTo_disconnect found visiting fault different
        rw [farewells_singleton] at queued
        have kept := members other
        rw [if_neg different] at kept
        cases held : session.connection? other with
        | none =>
            rw [held] at kept
            have blind : session.sees other leaver.entity = false := by simp [sees, interestOf?, held]
            rw [blind, if_neg Bool.false_ne_true, List.append_nil] at queued
            exact Or.inl ⟨kept, queued⟩
        | some connection =>
            have saw : session.sees other leaver.entity =
                connection.interest.isVisible leaver.entity := by simp [sees, interestOf?, held]
            rw [held, Option.map_some, Connection.lose] at kept
            rw [saw] at queued
            by_cases seen : connection.interest.isVisible leaver.entity = true
            · rw [if_pos seen] at kept queued
              exact Or.inr ⟨leaver.entity, connection, owns, (members client).trans (if_pos rfl), rfl,
                seen, kept, queued⟩
            · rw [if_neg seen] at kept queued
              rw [List.append_nil] at queued
              exact Or.inl ⟨kept, queued⟩
      · rw [(parts_disconnect found visiting fault).get?, if_neg]
        rintro rfl
        exact was owns

theorem confined_receive (session : Session) (visiting : Visiting) (client : ClientId)
    (message : ClientMessage) : session.Confined (session.receive visiting client message) client := by
  have still : session.Confined session client :=
    ⟨fun _ _ => Or.inl ⟨rfl, rfl⟩, fun _ _ _ => rfl⟩
  cases message with
  | disconnect => exact session.confined_disconnect visiting client none
  | input tick keys =>
      unfold receive receiveInput
      cases found : session.connection? client with
      | none => exact still
      | some connection =>
          have owns : session.entityOf? client = some connection.entity := congrArg _ found
          dsimp only
          split
          · exact session.confined_disconnect visiting client _
          · refine .of_spares ?_ (Or.inl owns)
            exact (((notes_modifyConnection ..).spares connection.entity).trans
              (spares_recordAdmission ..)).trans (spares_sendAdjustment ..)
  | heartbeat tick =>
      unfold receive receiveHeartbeat
      cases found : session.connection? client with
      | none => exact still
      | some connection =>
          have owns : session.entityOf? client = some connection.entity := congrArg _ found
          dsimp only
          split
          · exact session.confined_disconnect visiting client _
          · refine .of_spares ?_ (Or.inl owns)
            exact ((notes_modifyConnection ..).spares connection.entity).trans
              (spares_sendAdjustment ..)

theorem confined_handle (session : Session) (visiting : Visiting) (now : Nat)
    (event : InboundEvent) :
    session.Confined (session.handle visiting now event) event.client := by
  have still : session.Confined session event.client :=
    ⟨fun _ _ => Or.inl ⟨rfl, rfl⟩, fun _ _ _ => rfl⟩
  unfold handle
  split
  · rename_i endpoint _
    obtain ⟨world, spares⟩ | ⟨own, owned, spares⟩ :=
      session.spares_connect event.client endpoint now
    · refine ⟨fun other different => Or.inl ?_, fun id _ _ => by rw [world]⟩
      exact ⟨(spares default).connections other different, (spares default).letters other different⟩
    · exact .of_spares spares (Or.inr owned)
  · exact session.confined_disconnect visiting event.client none
  · split
    · rename_i message _ _
      have received := session.rests_modifyConnection event.client
        (·.recordReceived event.bytes now) (fun _ => rfl) fun _ => rfl
      exact (confined_receive _ visiting event.client message).of_notes
        ⟨rfl, rfl, (notes_modifyConnection session event.client _).others⟩
        (received.entity event.client)
    · exact still

/-- An event of a client that is not in leaves everyone who is there as they are; all that it can do
is to bring someone new. -/
theorem handle_of_unknown (sound : session.world.entities.IsSound) {event : InboundEvent}
    (unknown : session.connection? event.client = none) (visiting : Visiting) (now : Nat) :
    (∀ id entity, session.world.get? id = some entity →
        (session.handle visiting now event).world.get? id = some entity) ∧
      ((∀ endpoint, event.kind ≠ .connected endpoint) →
        session.handle visiting now event = session) := by
  have absent := connection?_eq_none_iff.mp unknown
  unfold handle
  cases kind : event.kind with
  | connected endpoint =>
      refine ⟨fun id entity found => ?_, fun never => absurd rfl (never endpoint)⟩
      obtain ⟨-, same⟩ | ⟨-, -, refused⟩ |
        ⟨-, -, place, random, own, world, joined, -, came, isJoined, accepted⟩ :=
        session.connect_cases event.client endpoint now
      · dsimp only
        rw [same]
        exact found
      · dsimp only
        rw [refused]
        exact found
      · dsimp only
        rw [accepted, isJoined]
        exact World.get?_spawn_of_some sound came found
  | disconnected =>
      dsimp only
      rw [disconnect_of_unknown unknown]
      exact ⟨fun _ _ found => found, fun _ => rfl⟩
  | message message =>
      dsimp only
      rw [absent, if_neg Bool.false_ne_true]
      exact ⟨fun _ _ found => found, fun _ => rfl⟩

namespace Chronicle

/-- In every state that a session can come to, within a tick as between two, an event of a client and
a fault that it is given up for are confined to that client. One that is not in, be it that it never
was or that it has left, changes no entity, whoever has taken the place of the one it had: an event
brings at most someone new, and only where it asks to join; a fault changes nothing at all. -/
theorem run_confines (settings : Settings) (map : TileMap) (actions : List Action) :
    let session := (run settings map actions).session
    (∀ visiting client fault,
      session.Confined (session.giveUp visiting client fault) client ∧
      (session.connection? client = none → session.giveUp visiting client fault = session)) ∧
    ∀ visiting now (earlier : List InboundEvent) (event : InboundEvent),
      let before := earlier.foldl (handle visiting now) { session with inbox := session.inbox.drain.2 }
      let after := before.handle visiting now event
      before.Confined after event.client ∧
      (before.connection? event.client = none →
        (∀ id entity, before.world.get? id = some entity →
          after.world.get? id = some entity) ∧
        ((∀ endpoint, event.kind ≠ .connected endpoint) → after = before)) := by
  intro session
  refine ⟨fun visiting client fault => ⟨session.confined_disconnect visiting client _, ?_⟩,
    fun visiting now earlier event => ⟨confined_handle _ visiting now event, ?_⟩⟩
  · exact fun unknown => disconnect_of_unknown unknown visiting _
  · intro unknown
    have sound : (earlier.foldl (handle visiting now)
        { session with inbox := session.inbox.drain.2 }).world.entities.IsSound := by
      refine sound_handles ?_ visiting now earlier
      exact run_sound settings map actions
    exact handle_of_unknown sound unknown visiting now

end Chronicle

end Session

end Overworld
