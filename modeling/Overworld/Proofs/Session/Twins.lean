import Overworld.Proofs.Session.Confinement

set_option autoImplicit false

/-!
Two sessions side by side that take the same events and tell the others of who leaves in different
orders. No client can tell which of the two it is in.
-/

namespace Overworld

namespace Session

variable {first second : Session}

/-- The sessions have the same world and the same connections, and the same is queued for each client;
only how what is queued for different clients is interleaved may differ. -/
structure Alike (first second : Session) : Prop where
  settings : first.settings = second.settings
  world : first.world = second.world
  map : first.map = second.map
  random : first.random = second.random
  connections : ∀ client, first.connection? client = second.connection? client
  letters : ∀ client, dispatchesTo client first.outbound.toList =
    dispatchesTo client second.outbound.toList

theorem Alike.refl (session : Session) : session.Alike session :=
  ⟨rfl, rfl, rfl, rfl, fun _ => rfl, fun _ => rfl⟩

theorem Alike.tick (alike : first.Alike second) : first.tick = second.tick :=
  congrArg World.tick alike.world

theorem Alike.isConnected (alike : first.Alike second) (client : ClientId) :
    first.isConnected client = second.isConnected client := by
  rw [isConnected_eq, isConnected_eq, alike.connections]

theorem Alike.size (alike : first.Alike second) :
    first.connections.size = second.connections.size :=
  (Std.HashMap.Equiv.of_forall_getElem?_eq alike.connections).size_eq

theorem Alike.sees (alike : first.Alike second) (client : ClientId) :
    first.sees client = second.sees client := by
  unfold Session.sees interestOf?
  rw [alike.connections]

theorem Alike.modifyConnection (alike : first.Alike second) (client : ClientId)
    (change : Connection → Connection) :
    (first.modifyConnection client change).Alike (second.modifyConnection client change) where
  settings := alike.settings
  world := alike.world
  map := alike.map
  random := alike.random
  connections other := by
    rw [connection?_modifyConnection, connection?_modifyConnection, alike.connections]
  letters := alike.letters

/-- Counters are of no account here. -/
theorem Alike.onMetrics (alike : first.Alike second) (one two : Metrics → Metrics) :
    (first.onMetrics one).Alike (second.onMetrics two) :=
  ⟨alike.settings, alike.world, alike.map, alike.random, alike.connections, alike.letters⟩

theorem Alike.close (alike : first.Alike second) (client : ClientId) :
    (first.close client).Alike (second.close client) where
  settings := alike.settings
  world := alike.world
  map := alike.map
  random := alike.random
  connections := alike.connections
  letters other := by
    rw [outbound_close, outbound_close, dispatchesTo_push, dispatchesTo_push, alike.letters]

theorem Alike.send (alike : first.Alike second) (client : ClientId) (message : ServerMessage) :
    (first.send client message).Alike (second.send client message) where
  settings := alike.settings
  world := alike.world
  map := alike.map
  random := alike.random
  connections other := by rw [connection?_send, connection?_send, alike.connections]
  letters other := by
    rw [outbound_send, outbound_send, dispatchesTo_push, dispatchesTo_push, alike.letters]

theorem random_tellLeft_foldl (gone : EntityId) (clients : List ClientId) (session : Session) :
    (clients.foldl (tellLeft gone) session).random = session.random := by
  refine List.foldlRecOn (motive := fun later : Session => later.random = session.random) _ _ rfl
    fun later same client _ => ?_
  rw [← same]
  unfold tellLeft
  split
  · rfl
  · split <;> rfl

/-- The same clients may be told in different orders. -/
theorem Alike.tellLeft_foldl (alike : first.Alike second) (gone : EntityId)
    {clients others : List ClientId} (same : ∀ client, client ∈ clients ↔ client ∈ others) :
    (clients.foldl (tellLeft gone) first).Alike (others.foldl (tellLeft gone) second) := by
  have follows := follows_foldl_of_none (fun session => session.follows_tellLeft gone) clients first
  have alsoFollows :=
    follows_foldl_of_none (fun session => session.follows_tellLeft gone) others second
  refine ⟨?_, ?_, ?_, ?_, fun other => ?_, fun other => ?_⟩
  · rw [follows.settings, alsoFollows.settings, alike.settings]
  · rw [world_tellLeft_foldl, world_tellLeft_foldl, alike.world]
  · rw [follows.map, alsoFollows.map, alike.map]
  · rw [random_tellLeft_foldl, random_tellLeft_foldl, alike.random]
  · rw [connection?_tellLeft_foldl, connection?_tellLeft_foldl, alike.connections]
    simp only [same]
  · rw [outbound_tellLeft_foldl, outbound_tellLeft_foldl, alike.letters, alike.sees, alike.tick]
    simp only [same]

theorem Alike.disconnect (alike : first.Alike second) (one two : Visiting) (client : ClientId)
    (fault : Option ConnectionFault) :
    (first.disconnect one client fault).Alike (second.disconnect two client fault) := by
  cases found : first.connection? client with
  | none =>
      rw [disconnect_of_unknown found, disconnect_of_unknown (alike.connections client ▸ found)]
      exact alike
  | some connection =>
      obtain ⟨parted, told, removed, isParted, isTold, isRemoved, left⟩ :=
        disconnect_cases found one fault
      obtain ⟨twinParted, twinTold, twinRemoved, isTwinParted, isTwinTold, isTwinRemoved, twinLeft⟩ :=
        disconnect_cases (alike.connections client ▸ found) two fault
      have partedAlike : parted.Alike twinParted := by
        rw [isParted, isTwinParted]
        refine ⟨alike.settings, alike.world, alike.map, alike.random, fun other => ?_, alike.letters⟩
        rw [connection?_erase, connection?_erase, alike.connections]
      have toldAlike : told.Alike twinTold := by
        rcases isTold with ⟨silent, rfl⟩ | ⟨reason, isReason, rfl⟩ <;>
          rcases isTwinTold with ⟨alsoSilent, rfl⟩ | ⟨twinReason, isTwinReason, rfl⟩
        · exact partedAlike
        · rw [silent] at isTwinReason
          cases isTwinReason
        · rw [alsoSilent] at isReason
          cases isReason
        · rw [isReason] at isTwinReason
          cases isTwinReason
          exact (partedAlike.onMetrics _ _).send client _
      have closed := toldAlike.close client
      have removedAlike : removed.Alike twinRemoved := by
        rw [toldAlike.world] at isRemoved
        rcases isRemoved with ⟨unknown, rfl⟩ | ⟨entity, world, gone, rfl⟩ <;>
          rcases isTwinRemoved with ⟨alsoUnknown, rfl⟩ | ⟨twinEntity, twinWorld, twinGone, rfl⟩
        · exact closed
        · rw [unknown] at twinGone
          cases twinGone
        · rw [alsoUnknown] at gone
          cases gone
        · rw [gone] at twinGone
          cases twinGone
          exact ⟨closed.settings, rfl, closed.map, closed.random, closed.connections, closed.letters⟩
      rw [left, twinLeft]
      refine removedAlike.tellLeft_foldl connection.entity fun other => ?_
      rw [mem_order, mem_order, removedAlike.isConnected]

theorem Alike.connect (alike : first.Alike second) (client : ClientId) (endpoint : Endpoint)
    (now : Nat) : (first.connect client endpoint now).Alike (second.connect client endpoint now) := by
  unfold Session.connect
  rw [alike.isConnected, alike.settings, alike.size, alike.random, alike.world]
  split
  · exact alike
  · split
    · exact ((alike.send client _).close client).onMetrics _ _
    · refine Alike.send ?_ client _
      refine ⟨rfl, rfl, alike.map, rfl, fun other => ?_, alike.letters⟩
      have same := alike.connections other
      unfold connection? at same ⊢
      rw [Std.HashMap.getElem?_insert, Std.HashMap.getElem?_insert, same]

theorem Alike.sendAdjustment (alike : first.Alike second) (client : ClientId) :
    (first.sendAdjustment client).Alike (second.sendAdjustment client) := by
  unfold Session.sendAdjustment
  rw [alike.connections]
  cases second.connection? client with
  | none => exact alike
  | some connection =>
      have taken := alike.modifyConnection client fun connection' =>
        { connection' with sequencer := connection.sequencer.takeAdjustment.2 }
      unfold Sequencer.takeAdjustment at taken ⊢
      dsimp only at taken ⊢
      cases connection.sequencer.adjustment with
      | none => exact taken
      | some delta => exact (taken.onMetrics _ _).send client _

theorem Alike.recordAdmission (alike : first.Alike second) (entity : EntityId)
    (admission : Admission) :
    (first.recordAdmission entity admission).Alike (second.recordAdmission entity admission) := by
  cases admission with
  | accepted => exact alike.onMetrics (·.tally .inputsAccepted) (·.tally .inputsAccepted)
  | dropped reason =>
      exact ⟨alike.settings, congrArg (World.neutralize · entity) alike.world, alike.map,
        alike.random, alike.connections, alike.letters⟩

theorem Alike.receive (alike : first.Alike second) (one two : Visiting) (client : ClientId)
    (message : ClientMessage) :
    (first.receive one client message).Alike (second.receive two client message) := by
  cases message with
  | disconnect => exact alike.disconnect one two client none
  | input tick keys =>
      unfold Session.receive receiveInput
      dsimp only
      rw [alike.connections, alike.tick]
      cases second.connection? client with
      | none => exact alike
      | some connection =>
          dsimp only
          split
          · exact alike.disconnect one two client _
          · exact ((alike.modifyConnection client _).recordAdmission _ _).sendAdjustment client
  | heartbeat tick =>
      unfold Session.receive receiveHeartbeat
      dsimp only
      rw [alike.connections, alike.tick]
      cases second.connection? client with
      | none => exact alike
      | some connection =>
          dsimp only
          split
          · exact alike.disconnect one two client _
          · exact (alike.modifyConnection client _).sendAdjustment client

theorem Alike.handle (alike : first.Alike second) (one two : Visiting) (now : Nat)
    (event : InboundEvent) : (first.handle one now event).Alike (second.handle two now event) := by
  unfold Session.handle
  cases event.kind with
  | connected endpoint => exact alike.connect event.client endpoint now
  | disconnected => exact alike.disconnect one two event.client none
  | message message =>
      dsimp only
      rw [alike.isConnected]
      split
      · refine Alike.receive ?_ one two event.client message
        have counted := alike.modifyConnection event.client (·.recordReceived event.bytes now)
        exact ⟨counted.settings, counted.world, counted.map, counted.random, counted.connections,
          counted.letters⟩
      · exact alike

/-- In whatever order the others are told of those who leave, the events of a tick end the same. -/
theorem alike_handleAll (session : Session) (one two : Visiting) (now : Nat) :
    (session.handleAll one now).Alike (session.handleAll two now) := by
  unfold handleAll
  dsimp only
  generalize session.inbox.drain.1 = events
  suffices both : ∀ {first second : Session}, first.Alike second →
      (events.foldl (Session.handle one now) first).Alike
        (events.foldl (Session.handle two now) second) from both (Alike.refl _)
  induction events with
  | nil => exact id
  | cons event rest ih => exact fun alike => ih (alike.handle one two now event)

end Session

end Overworld
