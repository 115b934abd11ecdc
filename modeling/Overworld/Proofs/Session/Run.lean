import Overworld.Proofs.Session.Frame

set_option autoImplicit false

/-!
Runs of a session: everything that can be done to one from outside, in any order, with a record of
what was taken from its queue.
-/

namespace Overworld

namespace Session

inductive Action
  /-- An event arrives; it is lost where the inbox has no room. -/
  | submit (event : InboundEvent)
  | tick (visiting : Visiting) (now : Nat)
  | teleport (client : ClientId) (position : Vec3)
  /-- A client is given up for a fault found outside of a tick. -/
  | giveUp (visiting : Visiting) (client : ClientId) (fault : ConnectionFault)
  | invalidateChunk (chunk : ChunkPosition)
  | drain

def Action.isTick : Action → Bool
  | .tick .. => true
  | _ => false

def Action.isSubmit : Action → Bool
  | .submit _ => true
  | _ => false

structure Chronicle where
  session : Session
  /-- What was taken from the queue, oldest first. -/
  taken : List Outbound

namespace Chronicle

def start (settings : Settings) (map : TileMap) : Chronicle := ⟨ofSettings settings map, []⟩

/-- The session after an action that leaves the queue in place. -/
def actOn (session : Session) : Action → Session
  | .submit event => (session.submit event).toOption.getD session
  | .tick visiting now => session.runTick visiting now
  | .teleport client position => (session.teleport? client position).getD session
  | .giveUp visiting client fault => session.giveUp visiting client fault
  | .invalidateChunk chunk => session.invalidateChunk chunk
  | .drain => session.drainOutbound.2

def act (chronicle : Chronicle) (action : Action) : Chronicle where
  session := actOn chronicle.session action
  taken := match action with
    | .drain => chronicle.taken ++ chronicle.session.drainOutbound.1
    | _ => chronicle.taken

def run (settings : Settings) (map : TileMap) (actions : List Action) : Chronicle :=
  actions.foldl act (start settings map)

end Chronicle

theorem spawnNpc_cases (world : World) (random : Generator) :
    ∃ position behavior id after,
      world.spawn position actorHalfExtent behavior = (id, after) ∧
      (spawnNpc world random).1 = after :=
  ⟨_, _, _, _, rfl, rfl⟩

theorem places_spawnNpcs (count : Nat) (world : World) (random : Generator) :
    world.places ≤ (spawnNpcs count world random).1.places ∧
      (spawnNpcs count world random).1.places ≤ world.places + count := by
  induction count generalizing world random with
  | zero => exact ⟨Nat.le_refl _, Nat.le_refl _⟩
  | succ count ih =>
      obtain ⟨position, behavior, id, after, came, one⟩ := spawnNpc_cases world random
      have more := ih (spawnNpc world random).1 (spawnNpc world random).2
      have grown := World.places_spawn came
      rw [one] at more
      unfold spawnNpcs
      dsimp only
      rw [one]
      omega

theorem tick_spawnNpcs (count : Nat) (world : World) (random : Generator) :
    (spawnNpcs count world random).1.tick = world.tick := by
  induction count generalizing world random with
  | zero => rfl
  | succ count ih =>
      obtain ⟨position, behavior, id, after, came, one⟩ := spawnNpc_cases world random
      refine (ih (spawnNpc world random).1 (spawnNpc world random).2).trans ?_
      rw [one, World.tick_spawn came]

theorem places_submit_le (session : Session) (event : InboundEvent) :
    ((session.submit event).toOption.getD session).world.places +
        ((session.submit event).toOption.getD session).inbox.events.length ≤
      session.world.places + session.inbox.events.length + 1 := by
  unfold submit Inbox.submit
  split
  · exact Nat.le_succ _
  · split
    · exact Nat.le_succ _
    · change session.world.places + (session.inbox.events ++ [event]).length ≤ _
      rw [List.length_append, List.length_singleton]
      omega

theorem places_teleport?_le (session : Session) (client : ClientId) (position : Vec3) :
    ((session.teleport? client position).getD session).world.places = session.world.places ∧
      ((session.teleport? client position).getD session).inbox = session.inbox := by
  unfold teleport?
  split
  · exact ⟨rfl, rfl⟩
  · split
    · exact ⟨rfl, rfl⟩
    · rename_i moved
      obtain ⟨_, -, -, rfl⟩ := World.teleport?_cases moved
      exact ⟨World.places_modify .., rfl⟩

/-- Places taken and events waiting together grow by the events submitted only. -/
theorem Chronicle.places_actOn_le (session : Session) (action : Action) :
    (actOn session action).world.places + (actOn session action).inbox.events.length ≤
      session.world.places + session.inbox.events.length + if action.isSubmit then 1 else 0 := by
  cases action with
  | submit event => exact session.places_submit_le event
  | tick visiting now =>
      have follows := session.follows_runTick visiting now
      have places := follows.places
      change (session.runTick visiting now).world.places +
        (session.runTick visiting now).inbox.events.length ≤ _
      rw [follows.inbox]
      exact places
  | teleport client position =>
      obtain ⟨places, inbox⟩ := session.places_teleport?_le client position
      change ((session.teleport? client position).getD session).world.places +
        ((session.teleport? client position).getD session).inbox.events.length ≤ _
      rw [places, inbox]
      exact Nat.le_refl _
  | giveUp visiting client fault =>
      have follows := session.follows_disconnect visiting client (some fault)
      have places := follows.places
      change (session.disconnect visiting client (some fault)).world.places +
        (session.disconnect visiting client (some fault)).inbox.events.length ≤ _
      rw [follows.inbox]
      exact Nat.add_le_add_right places _
  | invalidateChunk chunk => exact Nat.le_refl _
  | drain => exact Nat.le_refl _

/-- A run takes no more places than it starts with patrols and is sent events. -/
theorem Chronicle.places_run_le (settings : Settings) (map : TileMap) (actions : List Action) :
    (run settings map actions).session.world.places ≤
      settings.npcCount + actions.countP (·.isSubmit) := by
  suffices grown : ∀ chronicle : Chronicle,
      (actions.foldl act chronicle).session.world.places ≤
        chronicle.session.world.places + chronicle.session.inbox.events.length +
          actions.countP (·.isSubmit) by
    refine Nat.le_trans (grown (start settings map)) (Nat.add_le_add_right ?_ _)
    have npcs := (places_spawnNpcs settings.npcCount
      (World.ofGrid settings.grid .standard settings.dt) (.ofSeed settings.worldSeed)).2
    rw [show (World.ofGrid settings.grid .standard settings.dt).places = 0 from rfl,
      Nat.zero_add] at npcs
    exact npcs
  induction actions with
  | nil => exact fun chronicle => Nat.le_add_right _ _
  | cons action rest ih =>
      intro chronicle
      have one := places_actOn_le chronicle.session action
      have later := ih (chronicle.act action)
      rw [List.foldl_cons, List.countP_cons]
      change _ ≤ (actOn chronicle.session action).world.places +
        (actOn chronicle.session action).inbox.events.length + _ at later
      omega

end Session

end Overworld
