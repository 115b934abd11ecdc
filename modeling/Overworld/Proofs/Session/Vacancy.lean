import Overworld.Proofs.Session.Phases
import Overworld.Proofs.Session.Sight

set_option autoImplicit false

/-!
The places that a world lists as vacant are vacant, whatever happens to its session; so whoever is
there stays when another comes. Ids need not tell the places apart for that.
-/

namespace Overworld

namespace World

variable {world after : World} {id : EntityId}

theorem sound_spawn (sound : world.entities.IsSound) {position : Vec3} {halfExtent : Single}
    {behavior : Behavior} (came : world.spawn position halfExtent behavior = (id, after)) :
    after.entities.IsSound := by
  cases came
  exact sound.insert _

theorem sound_setKeys_foldl (sound : world.entities.IsSound) (entity : EntityId)
    (ready : List (Tick × Keys)) :
    (ready.foldl (fun world entry => world.setKeys entity entry.2) world).entities.IsSound := by
  induction ready generalizing world with
  | nil => exact sound
  | cons entry rest ih => exact ih (sound.modify entity _)

theorem sound_step (sound : world.entities.IsSound) : world.step.entities.IsSound :=
  sound.mapEntities fun _ entity => entity.step world.gait world.dt

/-- Whoever is there stays when another comes. -/
theorem get?_spawn_of_some (sound : world.entities.IsSound) {position : Vec3} {halfExtent : Single}
    {behavior : Behavior} (came : world.spawn position halfExtent behavior = (id, after))
    {other : EntityId} {entity : Entity} (found : world.get? other = some entity) :
    after.get? other = some entity := by
  cases came
  exact sound.get?_insert_of_some _ found

end World

namespace Session

variable {session : Session}

theorem disconnect_of_unknown {client : ClientId} (unknown : session.connection? client = none)
    (visiting : Visiting) (fault : Option ConnectionFault) :
    session.disconnect visiting client fault = session := by
  unfold disconnect
  rw [unknown]

theorem sound_disconnect (sound : session.world.entities.IsSound) (visiting : Visiting)
    (client : ClientId) (fault : Option ConnectionFault) :
    (session.disconnect visiting client fault).world.entities.IsSound := by
  cases found : session.connection? client with
  | none =>
      rw [disconnect_of_unknown found]
      exact sound
  | some connection =>
      obtain ⟨-, same⟩ | ⟨entity, gone⟩ := (parts_disconnect found visiting fault).world
      · rw [same]
        exact sound
      · exact sound.remove (World.despawn_cases gone).1

theorem sound_connect (sound : session.world.entities.IsSound) (client : ClientId)
    (endpoint : Endpoint) (now : Nat) :
    (session.connect client endpoint now).world.entities.IsSound := by
  obtain ⟨-, same⟩ | ⟨-, -, refused⟩ |
    ⟨-, -, place, random, own, world, joined, -, came, isJoined, accepted⟩ :=
    session.connect_cases client endpoint now
  · rw [same]
    exact sound
  · rw [refused]
    exact sound
  · rw [accepted, isJoined]
    exact World.sound_spawn sound came

theorem world_sendAdjustment (session : Session) (client : ClientId) :
    (session.sendAdjustment client).world = session.world := by
  unfold sendAdjustment
  split
  · rfl
  · dsimp only
    split <;> rfl

theorem sound_recordAdmission (sound : session.world.entities.IsSound) (entity : EntityId)
    (admission : Admission) : (session.recordAdmission entity admission).world.entities.IsSound := by
  cases admission with
  | accepted => exact sound
  | dropped reason => exact sound.modify entity _

theorem sound_receive (sound : session.world.entities.IsSound) (visiting : Visiting)
    (client : ClientId) (message : ClientMessage) :
    (session.receive visiting client message).world.entities.IsSound := by
  cases message with
  | disconnect => exact sound_disconnect sound visiting client none
  | input tick keys =>
      unfold receive receiveInput
      dsimp only
      split
      · exact sound
      · split
        · exact sound_disconnect sound visiting client _
        · rw [world_sendAdjustment]
          refine sound_recordAdmission ?_ _ _
          exact sound
  | heartbeat tick =>
      unfold receive receiveHeartbeat
      dsimp only
      split
      · exact sound
      · split
        · exact sound_disconnect sound visiting client _
        · rw [world_sendAdjustment]
          exact sound

theorem sound_handle (sound : session.world.entities.IsSound) (visiting : Visiting) (now : Nat)
    (event : InboundEvent) : (session.handle visiting now event).world.entities.IsSound := by
  unfold handle
  split
  · exact sound_connect sound event.client _ now
  · exact sound_disconnect sound visiting event.client none
  · split
    · refine sound_receive ?_ visiting event.client _
      exact sound
    · exact sound

theorem sound_foldl {α : Type} {step : Session → α → Session}
    (one : ∀ (session : Session) item, session.world.entities.IsSound →
      (step session item).world.entities.IsSound)
    (sound : session.world.entities.IsSound) (items : List α) :
    (items.foldl step session).world.entities.IsSound := by
  induction items generalizing session with
  | nil => exact sound
  | cons item rest ih => exact ih (one session item sound)

theorem sound_handles (sound : session.world.entities.IsSound) (visiting : Visiting) (now : Nat)
    (events : List InboundEvent) :
    (events.foldl (handle visiting now) session).world.entities.IsSound :=
  sound_foldl (fun _ event sound => sound_handle sound visiting now event) sound events

theorem sound_releaseFor (sound : session.world.entities.IsSound) (client : ClientId) :
    (session.releaseFor client).world.entities.IsSound := by
  cases found : session.connection? client with
  | none =>
      unfold releaseFor
      rw [found]
      exact sound
  | some connection =>
      rw [(world_releaseFor found).1]
      exact World.sound_setKeys_foldl sound connection.entity _

theorem sound_runTick (sound : session.world.entities.IsSound) (visiting : Visiting) (now : Nat) :
    (session.runTick visiting now).world.entities.IsSound := by
  have handled : (session.handleAll visiting now).world.entities.IsSound := by
    refine sound_handles ?_ visiting now session.inbox.events
    exact sound
  have present :
      ((session.handleAll visiting now).dropSilent visiting now).world.entities.IsSound := by
    refine sound_foldl (fun session connection sound => ?_) handled _
    refine sound_disconnect ?_ visiting connection.client _
    exact sound
  have ready : ((((session.handleAll visiting now).dropSilent visiting now).onWorld
      World.beginTick).releaseInputs visiting).world.entities.IsSound := by
    refine sound_foldl (fun _ client sound => sound_releaseFor sound client) ?_ _
    exact present
  rw [world_runTick]
  exact (World.sound_step ready).mapEntities fun _ entity => { entity with dirty := false }

theorem sound_spawnNpcs {world : World} (sound : world.entities.IsSound) (count : Nat)
    (random : Generator) : (spawnNpcs count world random).1.entities.IsSound := by
  induction count generalizing world random with
  | zero => exact sound
  | succ count ih =>
      obtain ⟨position, behavior, id, after, came, one⟩ := spawnNpc_cases world random
      have sound : (spawnNpc world random).1.entities.IsSound := by
        rw [one]
        exact World.sound_spawn sound came
      exact ih sound (spawnNpc world random).2

namespace Chronicle

theorem sound_act {chronicle : Chronicle} (sound : chronicle.session.world.entities.IsSound)
    (action : Action) : (chronicle.act action).session.world.entities.IsSound := by
  cases action with
  | submit event =>
      change ((chronicle.session.submit event).toOption.getD
        chronicle.session).world.entities.IsSound
      unfold submit
      cases chronicle.session.inbox.submit event <;> exact sound
  | tick visiting now => exact sound_runTick sound visiting now
  | teleport client position =>
      change ((chronicle.session.teleport? client position).getD
        chronicle.session).world.entities.IsSound
      unfold teleport?
      split
      · exact sound
      · split
        · exact sound
        · rename_i moved
          obtain ⟨entity, -, -, rfl⟩ := World.teleport?_cases moved
          exact sound.modify _ _
  | giveUp visiting client fault => exact sound_disconnect sound visiting client (some fault)
  | invalidateChunk chunk => exact sound
  | drain => exact sound

theorem run_sound (settings : Settings) (map : TileMap) (actions : List Action) :
    (run settings map actions).session.world.entities.IsSound := by
  induction actions using List.reverseRecOn with
  | nil => exact sound_spawnNpcs Roster.isSound_empty settings.npcCount (.ofSeed settings.worldSeed)
  | append_singleton earlier action ih =>
      unfold run
      rw [List.foldl_append]
      exact sound_act ih action

end Chronicle

end Session

end Overworld
