import Overworld.Proofs.Session.Basic
import Overworld.Proofs.World.Index
import Overworld.Server.Session.Tick

set_option autoImplicit false

/-!
What no step of a session changes: its settings, its map, the events that wait for the next tick, and
the laws of motion of its world. The world takes at most one more place for each event handled.
-/

namespace Overworld

namespace Session

/-- `after` comes after `before` with at most so many newcomers. -/
structure Follows (before after : Session) (newcomers : Nat) : Prop where
  settings : after.settings = before.settings
  map : after.map = before.map
  inbox : after.inbox = before.inbox
  gait : after.world.gait = before.world.gait
  dt : after.world.dt = before.world.dt
  places : after.world.places ≤ before.world.places + newcomers

variable {before middle after : Session}

theorem Follows.refl (session : Session) : session.Follows session 0 :=
  ⟨rfl, rfl, rfl, rfl, rfl, Nat.le_refl _⟩

theorem Follows.trans {first second : Nat} (start : before.Follows middle first)
    (finish : middle.Follows after second) : before.Follows after (first + second) where
  settings := finish.settings.trans start.settings
  map := finish.map.trans start.map
  inbox := finish.inbox.trans start.inbox
  gait := finish.gait.trans start.gait
  dt := finish.dt.trans start.dt
  places := by
    have one := start.places
    have two := finish.places
    omega

theorem Follows.mono {fewer more : Nat} (follows : before.Follows after fewer)
    (order : fewer ≤ more) : before.Follows after more :=
  { follows with places := Nat.le_trans follows.places (Nat.add_le_add_left order _) }

theorem follows_foldl {α : Type} {step : Session → α → Session} (newcomers : Nat)
    (one : ∀ (session : Session) item, session.Follows (step session item) newcomers)
    (items : List α) (session : Session) :
    session.Follows (items.foldl step session) (newcomers * items.length) := by
  induction items generalizing session with
  | nil => exact Follows.refl session
  | cons item rest ih =>
      refine ((one session item).trans (ih (step session item))).mono (Nat.le_of_eq ?_)
      rw [List.length_cons, Nat.mul_succ, Nat.add_comm]

theorem follows_foldl_of_none {α : Type} {step : Session → α → Session}
    (one : ∀ (session : Session) item, session.Follows (step session item) 0) (items : List α)
    (session : Session) : session.Follows (items.foldl step session) 0 :=
  (follows_foldl 0 one items session).mono (Nat.le_of_eq (Nat.zero_mul _))

theorem follows_modifyConnection (session : Session) (client : ClientId)
    (change : Connection → Connection) :
    session.Follows (session.modifyConnection client change) 0 :=
  ⟨rfl, rfl, rfl, rfl, rfl, Nat.le_refl _⟩

theorem follows_send (session : Session) (client : ClientId) (message : ServerMessage) :
    session.Follows (session.send client message) 0 :=
  ⟨rfl, rfl, rfl, rfl, rfl, Nat.le_refl _⟩

theorem follows_sendAll (session : Session) (client : ClientId) (messages : List ServerMessage) :
    session.Follows (session.sendAll client messages) 0 :=
  follows_foldl_of_none (fun session => session.follows_send client) messages session

theorem follows_close (session : Session) (client : ClientId) :
    session.Follows (session.close client) 0 :=
  ⟨rfl, rfl, rfl, rfl, rfl, Nat.le_refl _⟩

theorem follows_onMetrics (session : Session) (change : Metrics → Metrics) :
    session.Follows (session.onMetrics change) 0 :=
  ⟨rfl, rfl, rfl, rfl, rfl, Nat.le_refl _⟩

theorem follows_withWorld (session : Session) {world : World}
    (gait : world.gait = session.world.gait) (dt : world.dt = session.world.dt)
    (places : world.places = session.world.places) : session.Follows { session with world } 0 :=
  ⟨rfl, rfl, rfl, gait, dt, Nat.le_of_eq places⟩

theorem follows_tellLeft (session : Session) (gone : EntityId) (client : ClientId) :
    session.Follows (session.tellLeft gone client) 0 := by
  unfold tellLeft
  split
  · exact Follows.refl session
  · split
    · exact ((follows_modifyConnection ..).trans (follows_send ..)).trans (follows_onMetrics ..)
    · exact Follows.refl session

theorem follows_disconnect (session : Session) (visiting : Visiting) (client : ClientId)
    (fault : Option ConnectionFault) :
    session.Follows (session.disconnect visiting client fault) 0 := by
  cases found : session.connection? client with
  | none =>
      unfold disconnect
      rw [found]
      exact Follows.refl session
  | some connection =>
      obtain ⟨parted, told, removed, isParted, isTold, isRemoved, left⟩ :=
        disconnect_cases found visiting fault
      rw [left]
      have toParted : session.Follows parted 0 := by
        rw [isParted]
        exact ⟨rfl, rfl, rfl, rfl, rfl, Nat.le_refl _⟩
      have toTold : parted.Follows told 0 := by
        rcases isTold with ⟨-, rfl⟩ | ⟨reason, -, rfl⟩
        · exact Follows.refl told
        · exact (follows_onMetrics ..).trans (follows_send ..)
      have toRemoved : (told.close client).Follows removed 0 := by
        rcases isRemoved with ⟨-, rfl⟩ | ⟨entity, world, gone, rfl⟩
        · exact Follows.refl _
        · obtain ⟨-, gait, dt⟩ := World.despawn_frame gone
          exact follows_withWorld _ gait dt (World.places_despawn gone)
      have closed := (toParted.trans toTold).trans (told.follows_close client)
      exact (closed.trans toRemoved).trans (follows_foldl_of_none
        (fun session => session.follows_tellLeft connection.entity) _ _)

theorem follows_connect (session : Session) (client : ClientId) (endpoint : Endpoint) (now : Nat) :
    session.Follows (session.connect client endpoint now) 1 := by
  obtain ⟨-, same⟩ | ⟨-, -, refused⟩ |
    ⟨-, -, place, random, entity, world, joined, -, came, isJoined, accepted⟩ :=
    session.connect_cases client endpoint now
  · rw [same]
    exact (Follows.refl session).mono (Nat.zero_le 1)
  · rw [refused]
    exact (((follows_send ..).trans (follows_close ..)).trans (follows_onMetrics ..)).mono
      (Nat.zero_le 1)
  · rw [accepted, isJoined]
    have grown : world.places ≤ session.world.places + 1 := by
      rcases World.places_spawn came with same | more <;> omega
    have spawned : session.Follows { session with
        random
        world
        connections := session.connections.insert client
          (.opened client endpoint entity session.settings.sequencerRules
            session.settings.interestRules session.settings.streamRules now)
        metrics := session.metrics.tally .connectionsTotal } 1 :=
      ⟨rfl, rfl, rfl, by cases came; rfl, by cases came; rfl, grown⟩
    exact spawned.trans (follows_send ..)

theorem follows_sendAdjustment (session : Session) (client : ClientId) :
    session.Follows (session.sendAdjustment client) 0 := by
  unfold sendAdjustment
  split
  · exact Follows.refl session
  · dsimp only
    split
    · exact follows_modifyConnection ..
    · exact ((follows_modifyConnection ..).trans (follows_onMetrics ..)).trans (follows_send ..)

theorem follows_recordAdmission (session : Session) (entity : EntityId) (admission : Admission) :
    session.Follows (session.recordAdmission entity admission) 0 := by
  cases admission with
  | accepted => exact session.follows_onMetrics (·.tally .inputsAccepted)
  | dropped reason =>
      exact ⟨rfl, rfl, rfl, rfl, rfl, Nat.le_of_eq (World.places_modify ..)⟩

theorem follows_receiveInput (session : Session) (visiting : Visiting) (client : ClientId)
    (tick : Tick) (keys : Keys) :
    session.Follows (session.receiveInput visiting client tick keys) 0 := by
  unfold receiveInput
  split
  · exact Follows.refl session
  · split
    · exact follows_disconnect ..
    · exact ((follows_modifyConnection ..).trans (follows_recordAdmission ..)).trans
        (follows_sendAdjustment ..)

theorem follows_receiveHeartbeat (session : Session) (visiting : Visiting) (client : ClientId)
    (tick : Tick) : session.Follows (session.receiveHeartbeat visiting client tick) 0 := by
  unfold receiveHeartbeat
  split
  · exact Follows.refl session
  · split
    · exact follows_disconnect ..
    · exact (follows_modifyConnection ..).trans (follows_sendAdjustment ..)

theorem follows_receive (session : Session) (visiting : Visiting) (client : ClientId)
    (message : ClientMessage) : session.Follows (session.receive visiting client message) 0 := by
  cases message with
  | input tick keys => exact session.follows_receiveInput visiting client tick keys
  | heartbeat tick => exact session.follows_receiveHeartbeat visiting client tick
  | disconnect => exact session.follows_disconnect visiting client none

theorem follows_message (session : Session) (visiting : Visiting) (now : Nat) (client : ClientId)
    (message : ClientMessage) (bytes : UInt64) :
    session.Follows (session.handle visiting now ⟨client, .message message, bytes⟩) 0 := by
  have counted : session.Follows { session.modifyConnection client
        (·.recordReceived bytes now) with
      metrics := session.metrics.recordReceived bytes } 0 :=
    ⟨rfl, rfl, rfl, rfl, rfl, Nat.le_refl _⟩
  unfold handle
  dsimp only
  split
  · exact counted.trans (follows_receive _ visiting client message)
  · exact Follows.refl session

theorem follows_handle (session : Session) (visiting : Visiting) (now : Nat)
    (event : InboundEvent) : session.Follows (session.handle visiting now event) 1 := by
  obtain ⟨client, kind, bytes⟩ := event
  cases kind with
  | connected endpoint => exact session.follows_connect client endpoint now
  | disconnected =>
      exact (session.follows_disconnect visiting client none).mono (Nat.zero_le 1)
  | message content =>
      exact (session.follows_message visiting now client content bytes).mono (Nat.zero_le 1)

/-- Handling the inbox empties it. -/
theorem follows_handleAll (session : Session) (visiting : Visiting) (now : Nat) :
    ({ session with inbox := session.inbox.drain.2 } : Session).Follows
      (session.handleAll visiting now) session.inbox.events.length :=
  (follows_foldl 1 (fun session => session.follows_handle visiting now) _ _).mono
    (Nat.le_of_eq (Nat.one_mul _))

theorem follows_dropSilent (session : Session) (visiting : Visiting) (now : Nat) :
    session.Follows (session.dropSilent visiting now) 0 := by
  refine follows_foldl_of_none (fun session connection => ?_) _ _
  exact (follows_onMetrics ..).trans (follows_disconnect ..)

theorem setKeys_foldl_frame (entity : EntityId) (ready : List (Tick × Keys)) (world : World) :
    (ready.foldl (fun world (_, keys) => world.setKeys entity keys) world).tick = world.tick ∧
    (ready.foldl (fun world (_, keys) => world.setKeys entity keys) world).gait = world.gait ∧
    (ready.foldl (fun world (_, keys) => world.setKeys entity keys) world).dt = world.dt ∧
    (ready.foldl (fun world (_, keys) => world.setKeys entity keys) world).places =
      world.places := by
  induction ready generalizing world with
  | nil => exact ⟨rfl, rfl, rfl, rfl⟩
  | cons entry rest ih =>
      obtain ⟨tick, gait, dt, places⟩ := ih (world.setKeys entity entry.2)
      exact ⟨tick, gait, dt, places.trans (World.places_modify ..)⟩

theorem follows_releaseFor (session : Session) (client : ClientId) :
    session.Follows (session.releaseFor client) 0 := by
  unfold releaseFor
  split
  · exact Follows.refl session
  · rename_i connection _
    obtain ⟨-, gait, dt, places⟩ := setKeys_foldl_frame connection.entity
      (connection.sequencer.release session.tick).1 session.world
    exact ⟨rfl, rfl, rfl, gait, dt, Nat.le_of_eq places⟩

theorem follows_releaseInputs (session : Session) (visiting : Visiting) :
    session.Follows (session.releaseInputs visiting) 0 :=
  follows_foldl_of_none follows_releaseFor _ _

theorem follows_replicateFor (session : Session) (client : ClientId) :
    session.Follows (session.replicateFor client) 0 := by
  unfold replicateFor
  split
  · exact Follows.refl session
  · exact ((follows_onMetrics ..).trans (follows_modifyConnection ..)).trans (follows_sendAll ..)

theorem follows_replicate (session : Session) (visiting : Visiting) :
    session.Follows (session.replicate visiting) 0 :=
  follows_foldl_of_none follows_replicateFor _ _

theorem follows_beginTick (session : Session) :
    session.Follows (session.onWorld World.beginTick) 0 :=
  ⟨rfl, rfl, rfl, rfl, rfl, Nat.le_refl _⟩

theorem follows_move (session : Session) :
    session.Follows (session.onWorld fun world => world.step.syncGrid) 0 :=
  ⟨rfl, rfl, rfl, rfl, rfl, Nat.le_of_eq session.world.places_step⟩

theorem follows_endTick (session : Session) :
    session.Follows (session.onWorld World.clearDirty).recordLevels 0 :=
  ⟨rfl, rfl, rfl, rfl, rfl, Nat.le_of_eq session.world.places_clearDirty⟩

/-- Only the events of a tick bring newcomers. -/
theorem Follows.runTick {session : Session} {visiting : Visiting} {now newcomers : Nat}
    (handled : before.Follows (session.handleAll visiting now) newcomers) :
    before.Follows (session.runTick visiting now) newcomers := by
  have present := handled.trans (follows_dropSilent _ visiting now)
  have ready := (present.trans (follows_beginTick _)).trans (follows_releaseInputs _ visiting)
  exact ((ready.trans (follows_move _)).trans (follows_replicate _ visiting)).trans
    (follows_endTick _)

theorem follows_runTick (session : Session) (visiting : Visiting) (now : Nat) :
    ({ session with inbox := session.inbox.drain.2 } : Session).Follows
      (session.runTick visiting now) session.inbox.events.length :=
  (session.follows_handleAll visiting now).runTick

end Session

end Overworld
