import Overworld.Proofs.Replication.Run
import Overworld.Proofs.Session.Census

set_option autoImplicit false

/-!
The population of a session in every state that it can come to: who is in its world, whose they are,
and what its index knows of them.
-/

namespace Overworld

namespace Session

variable {session : Session} {settings : Settings}

/-- A world of patrols, so many of them. -/
structure PatrolsOnly (world : World) (count : Nat) : Prop where
  kept : world.IsKept
  conduct : ∀ id conduct, world.conduct? id = some conduct → conduct = .patroller
  size : world.entities.size = count

theorem PatrolsOnly.spawn {world after : World} {count : Nat} (only : PatrolsOnly world count)
    {position : Vec3} {halfExtent : Single} {walk : Patrol} {id : EntityId}
    (came : world.spawn position halfExtent (.patrol walk) = (id, after))
    (numbered : after.places ≤ 4294967296) : PatrolsOnly after (count + 1) := by
  refine ⟨only.kept.spawn came numbered, fun other conduct known => ?_, ?_⟩
  · rw [World.conduct?_spawn came numbered] at known
    split at known
    · exact (Option.some.inj known).symm
    · exact only.conduct other conduct known
  · rw [only.kept.size_spawn came, only.size]

theorem PatrolsOnly.spawnNpcs {world : World} {present : Nat} (only : PatrolsOnly world present)
    (count : Nat) (random : Generator)
    (numbered : (spawnNpcs count world random).1.places ≤ 4294967296) :
    PatrolsOnly (spawnNpcs count world random).1 (present + count) := by
  induction count generalizing world present random with
  | zero => exact only
  | succ count ih =>
      have more := (places_spawnNpcs count (spawnNpc world random).1 (spawnNpc world random).2).1
      have one : PatrolsOnly (spawnNpc world random).1 (present + 1) :=
        only.spawn rfl (Nat.le_trans more numbered)
      have rest := ih one (spawnNpc world random).2 numbered
      rw [Nat.add_assoc, Nat.add_comm 1] at rest
      exact rest

theorem ofSettings_keepsCensus (settings : Settings) (map : TileMap) :
    (ofSettings settings map).KeepsCensus settings := by
  intro numbered
  have none : PatrolsOnly (World.ofGrid settings.grid .standard settings.dt) 0 := by
    refine ⟨World.isKept_ofGrid _ _ _, fun id conduct known => ?_, rfl⟩
    cases known
  have only := none.spawnNpcs settings.npcCount (.ofSeed settings.worldSeed) numbered
  have empty : ∀ client, (ofSettings settings map).entityOf? client = Option.none := by
    intro client
    unfold entityOf? connection? ofSettings
    simp
  refine ⟨rfl, rfl, only.kept, ?_, ?_,
    fun id conduct known => Or.inr (only.conduct id conduct known), ?_, Nat.zero_le _⟩
  · intro client id isOwner
    rw [empty] at isOwner
    cases isOwner
  · intro client other id isOwner
    rw [empty] at isOwner
    cases isOwner
  · exact only.size.trans (Nat.zero_add _)

theorem Chronicle.run_keepsCensus (settings : Settings) (map : TileMap) (actions : List Action) :
    (run settings map actions).session.KeepsCensus settings :=
  lasts_keepsCensus.run KeepsCensus.of_stays (ofSettings_keepsCensus settings map) actions

/-- The census is right, and there is a place for each patrol and for as many clients as may join at
most. -/
structure KeepsRoom (session : Session) (settings : Settings) : Prop where
  keeps : session.KeepsCensus settings
  places : session.world.places ≤ settings.npcCount + settings.maxConnections

theorem KeepsRoom.of_stays {before after : Session} (room : before.KeepsRoom settings)
    (stays : before.Stays after) : after.KeepsRoom settings :=
  ⟨room.keeps.of_stays stays, stays.world.places ▸ room.places⟩

theorem lasts_keepsRoom (small : settings.npcCount + settings.maxConnections ≤ 4294967296) :
    Lasts fun _ session => session.KeepsRoom settings where
  mono room _ := room
  rests room rests := room.of_stays rests.toStays
  connect {_ session} room client endpoint now := by
    have census := room.keeps (Nat.le_trans room.places small)
    refine ⟨room.keeps.connect client endpoint now, ?_⟩
    exact Nat.le_trans (census.places_connect_le client endpoint now)
      (Nat.max_le.mpr ⟨room.places, Nat.le_refl _⟩)
  disconnect {_ session} room visiting client fault := by
    refine ⟨room.keeps.disconnect visiting client fault, ?_⟩
    rw [places_disconnect]
    exact room.places

/-- However many clients come and go, the world takes no more places than there are patrols and may be
clients at a time: if ids can tell so many apart, they can throughout the run. -/
theorem Chronicle.places_run_le_room (settings : Settings) (map : TileMap) (actions : List Action)
    (small : settings.npcCount + settings.maxConnections ≤ 4294967296) :
    (run settings map actions).session.world.places ≤
      settings.npcCount + settings.maxConnections := by
  have npcs := (places_spawnNpcs settings.npcCount
    (World.ofGrid settings.grid .standard settings.dt) (.ofSeed settings.worldSeed)).2
  have none : (World.ofGrid settings.grid .standard settings.dt).places = 0 := rfl
  rw [none, Nat.zero_add] at npcs
  have begins : (start settings map).session.KeepsRoom settings :=
    ⟨ofSettings_keepsCensus settings map, Nat.le_trans npcs (Nat.le_add_right ..)⟩
  exact ((lasts_keepsRoom small).run KeepsRoom.of_stays begins actions).places

theorem world_replicateFor (session : Session) (client : ClientId) :
    (session.replicateFor client).world = session.world := by
  unfold replicateFor
  split
  · rfl
  · exact world_sendAll ..

theorem world_replicate (session : Session) (visiting : Visiting) :
    (session.replicate visiting).world = session.world := by
  refine List.foldlRecOn (motive := fun later : Session => later.world = session.world) _ _ rfl
    fun later same client _ => ?_
  rw [world_replicateFor, same]

theorem KeepsCensus.isCurrent_moved (keeps : session.KeepsCensus settings) (visiting : Visiting)
    (now : Nat) (numbered : (session.moved visiting now).world.places ≤ 4294967296) :
    (session.moved visiting now).world.IsCurrent := by
  have ready := (rests_onWorld ((session.handleAll visiting now).dropSilent visiting now)
    (World.remains_beginTick _)).trans (rests_releaseInputs _ visiting)
  have stepped := (keeps.present visiting now).of_stays
    (ready.trans (rests_onWorld _ (World.remains_step _))).toStays
  exact (stepped numbered).kept.isCurrent_syncGrid numbered

/-- After a tick every entity is tracked as it stands. -/
theorem KeepsCensus.isCurrent_runTick (keeps : session.KeepsCensus settings) (visiting : Visiting)
    (now : Nat) (numbered : (session.runTick visiting now).world.places ≤ 4294967296) :
    (session.runTick visiting now).world.IsCurrent := by
  rw [(session.stays_told visiting now).world.places] at numbered
  have current := (keeps.isCurrent_moved visiting now numbered).clearDirty
  rw [← world_replicate _ visiting] at current
  exact current

end Session

theorem Grid.contains_eq (grid : Grid) (id : EntityId) :
    grid.contains id = (grid.shapeOf? id).isSome := by
  unfold contains shapeOf?
  rw [Option.isSome_map, Std.HashMap.contains_eq_isSome_getElem?]

theorem Behavior.eq_controlled {behavior : Behavior} (player : behavior.conduct = .player) :
    behavior = .controlled := by
  cases behavior with
  | controlled => rfl
  | idle => cases player
  | patrol walk => cases player

theorem Behavior.exists_walk {behavior : Behavior} (patroller : behavior.conduct = .patroller) :
    ∃ walk, behavior = .patrol walk := by
  cases behavior with
  | controlled => cases patroller
  | idle => cases patroller
  | patrol walk => exact ⟨walk, rfl⟩

namespace Session.Chronicle

/-- Whatever happens to a session, each of its connections has an entity of its own in the world, and
a player controls it; everyone else is on patrol. The world holds the patrols it started with and one
entity for each connection, no two under one id, and there are no more connections than allowed. The
index tracks exactly those in the world, its check finds no fault, and after a tick it tracks them as
they stand. This holds as long as ids can tell the places of the world apart; in a session that is
never to hold more patrols and clients than ids have places it always does. -/
theorem run_population (settings : Settings) (map : TileMap) (actions : List Action)
    (numbered : (run settings map actions).session.world.places ≤ 4294967296) :
    let session := (run settings map actions).session
    (∀ client connection, session.connection? client = some connection →
      ∃ entity, session.world.get? connection.entity = some entity ∧
        entity.behavior = .controlled) ∧
    (∀ client other connection twin, session.connection? client = some connection →
      session.connection? other = some twin → connection.entity = twin.entity → client = other) ∧
    (∀ id entity, session.world.get? id = some entity →
      (∃ client connection, session.connection? client = some connection ∧
        connection.entity = id) ∨ ∃ walk, entity.behavior = .patrol walk) ∧
    session.world.entities.size = settings.npcCount + session.connections.size ∧
    session.world.entities.ids.length = session.world.entities.size ∧
    session.world.entities.ids.Nodup ∧
    (∀ id, id ∈ session.world.entities.ids ↔ (session.world.get? id).isSome = true) ∧
    session.connections.size ≤ settings.maxConnections ∧
    (∀ id, session.world.grid.contains id = (session.world.get? id).isSome) ∧
    session.world.grid.audit? = none ∧
    ∀ earlier visiting now, actions = earlier ++ [.tick visiting now] →
      ∀ id, session.world.grid.shapeOf? id = (session.world.get? id).map Entity.shape := by
  intro session
  have census := run_keepsCensus settings map actions numbered
  refine ⟨?_, ?_, ?_, census.count, census.kept.sound.length_ids,
    census.kept.sound.nodup_ids numbered, fun id => census.kept.sound.mem_ids numbered,
    census.room, ?_, census.kept.inOrder.audit?, ?_⟩
  · intro client connection connected
    have player := census.controlled client connection.entity (congrArg _ connected)
    obtain ⟨entity, found, conduct⟩ := Option.map_eq_some_iff.mp player
    exact ⟨entity, found, Behavior.eq_controlled conduct⟩
  · intro client other connection twin connected alsoConnected same
    refine census.own client other connection.entity (congrArg _ connected) ?_
    rw [same]
    exact congrArg _ alsoConnected
  · intro id entity found
    refine (census.others id entity.behavior.conduct (congrArg _ found)).imp ?_ Behavior.exists_walk
    rintro ⟨client, isOwner⟩
    obtain ⟨connection, connected, isIt⟩ := Option.map_eq_some_iff.mp isOwner
    exact ⟨client, connection, connected, isIt⟩
  · intro id
    rw [Grid.contains_eq]
    exact census.kept.indexed id
  · rintro earlier visiting now rfl
    have ended : run settings map (earlier ++ [.tick visiting now]) =
        (run settings map earlier).act (.tick visiting now) := List.foldl_append
    have current :
        (run settings map (earlier ++ [.tick visiting now])).session.world.IsCurrent := by
      rw [ended] at numbered ⊢
      exact (run_keepsCensus settings map earlier).isCurrent_runTick visiting now numbered
    exact current

/-- One client among the patrols of standard settings. -/
theorem first_client_population :
    (run .standard ⟨16, fun _ => []⟩ firstClient).session.world.entities.size =
      Settings.standard.npcCount +
        (run .standard ⟨16, fun _ => []⟩ firstClient).session.connections.size ∧
    (run .standard ⟨16, fun _ => []⟩ firstClient).session.world.grid.audit? = none := by
  have numbered := places_run_le_room .standard ⟨16, fun _ => []⟩ firstClient (by decide)
  obtain ⟨-, -, -, count, -, -, -, -, -, sound, -⟩ := run_population .standard ⟨16, fun _ => []⟩
    firstClient (Nat.le_trans numbered (by decide))
  exact ⟨count, sound⟩

end Session.Chronicle

end Overworld
