import Overworld.Proofs.Session.Parting

set_option autoImplicit false

/-!
The census of a session: each client has an entity of its own that it controls, all others are on
patrol, and there are as many of either as were let in. Clients come and go by joining and leaving
only; everything else leaves the census as it is.
-/

namespace Overworld

namespace Session

variable {session before after : Session}

structure CensusHolds (session : Session) (settings : Settings) : Prop where
  governed : session.settings = settings
  patrols : session.npcCount = settings.npcCount
  kept : session.world.IsKept
  controlled : ∀ client id, session.entityOf? client = some id →
    session.world.conduct? id = some .player
  own : ∀ client other id, session.entityOf? client = some id → session.entityOf? other = some id →
    client = other
  others : ∀ id conduct, session.world.conduct? id = some conduct →
    (∃ client, session.entityOf? client = some id) ∨ conduct = .patroller
  count : session.world.entities.size = settings.npcCount + session.connections.size
  room : session.connections.size ≤ settings.maxConnections

/-- The census is right for as long as ids can tell the places of the world apart. -/
def KeepsCensus (session : Session) (settings : Settings) : Prop :=
  session.world.places ≤ 4294967296 → session.CensusHolds settings

variable {settings : Settings}

theorem KeepsCensus.of_stays (keeps : before.KeepsCensus settings) (stays : before.Stays after) :
    after.KeepsCensus settings := by
  intro numbered
  rw [stays.world.places] at numbered
  have census := keeps numbered
  refine ⟨stays.settings.trans census.governed, stays.npcCount.trans census.patrols,
    stays.world.kept numbered census.kept, ?_, ?_, ?_, ?_, ?_⟩
  · intro client id isOwner
    rw [stays.entity] at isOwner
    rw [stays.world.conduct]
    exact census.controlled client id isOwner
  · intro client other id isOwner alsoOwner
    rw [stays.entity] at isOwner alsoOwner
    exact census.own client other id isOwner alsoOwner
  · intro id conduct found
    rw [stays.world.conduct] at found
    simp only [stays.entity]
    exact census.others id conduct found
  · rw [stays.world.size, stays.size]
    exact census.count
  · rw [stays.size]
    exact census.room

theorem KeepsCensus.connect (keeps : session.KeepsCensus settings) (client : ClientId)
    (endpoint : Endpoint) (now : Nat) : (session.connect client endpoint now).KeepsCensus settings := by
  obtain ⟨-, same⟩ | ⟨-, -, refused⟩ |
    ⟨free, room, place, random, entity, world, joined, -, came, isJoined, accepted⟩ :=
    session.connect_cases client endpoint now
  · rw [same]
    exact keeps
  · rw [refused]
    exact keeps.of_stays (((session.rests_send _ _).trans (rests_close ..)).trans
      (rests_onMetrics ..)).toStays
  · rw [accepted]
    suffices joinedKeeps : joined.KeepsCensus settings from
      joinedKeeps.of_stays (rests_send ..).toStays
    intro numbered
    have sameWorld : joined.world = world := by rw [isJoined]
    rw [sameWorld] at numbered
    have grown := World.places_spawn came
    have census := keeps (by omega)
    have newcomer := census.kept.get?_newcomer came numbered
    have conduct := World.conduct?_spawn came numbered
    have absent : client ∉ session.connections := by
      rw [← Std.HashMap.contains_iff_mem]
      exact fun isIn => Bool.false_ne_true (free.symm.trans isIn)
    have size : joined.connections.size = session.connections.size + 1 := by
      rw [isJoined, Std.HashMap.size_insert, if_neg absent]
    have entities : ∀ other, joined.entityOf? other =
        if client = other then some entity else session.entityOf? other := by
      intro other
      unfold entityOf?
      rw [connection?_of_insert (congrArg Session.connections isJoined)]
      split <;> rfl
    have fresh : ∀ other, session.entityOf? other ≠ some entity := by
      intro other isOwner
      have lives := census.controlled other entity isOwner
      unfold World.conduct? at lives
      rw [newcomer] at lives
      cases lives
    have sameSettings : joined.settings = session.settings := by rw [isJoined]
    have sameCount : joined.npcCount = session.npcCount := by rw [isJoined]
    refine ⟨sameSettings.trans census.governed, sameCount.trans census.patrols,
      sameWorld ▸ census.kept.spawn came numbered, ?_, ?_, ?_, ?_, ?_⟩
    · intro other id isOwner
      rw [entities] at isOwner
      rw [sameWorld, conduct]
      by_cases isClient : client = other
      · rw [if_pos isClient] at isOwner
        rw [if_pos (Option.some.inj isOwner).symm]
        rfl
      · rw [if_neg isClient] at isOwner
        rw [if_neg]
        · exact census.controlled other id isOwner
        · rintro rfl
          exact fresh other isOwner
    · intro first second id isFirst isSecond
      rw [entities] at isFirst isSecond
      by_cases firstIs : client = first <;> by_cases secondIs : client = second
      · exact firstIs.symm.trans secondIs
      · rw [if_pos firstIs] at isFirst
        rw [if_neg secondIs, ← isFirst] at isSecond
        exact absurd isSecond (fresh second)
      · rw [if_pos secondIs] at isSecond
        rw [if_neg firstIs, ← isSecond] at isFirst
        exact absurd isFirst (fresh first)
      · rw [if_neg firstIs] at isFirst
        rw [if_neg secondIs] at isSecond
        exact census.own first second id isFirst isSecond
    · intro id kind found
      rw [sameWorld, conduct] at found
      by_cases isIt : id = entity
      · exact Or.inl ⟨client, by rw [entities, if_pos rfl, isIt]⟩
      · rw [if_neg isIt] at found
        refine (census.others id kind found).imp_left ?_
        rintro ⟨other, isOwner⟩
        refine ⟨other, ?_⟩
        rw [entities, if_neg]
        · exact isOwner
        · rintro rfl
          unfold entityOf? at isOwner
          rw [connection?_eq_none_iff.mpr free] at isOwner
          cases isOwner
    · rw [sameWorld, census.kept.size_spawn came, size, census.count]
      rfl
    · rw [size, ← census.governed]
      exact room

/-- Who joins takes a new place only when there are no more places than patrols and clients. -/
theorem CensusHolds.places_connect_le (census : session.CensusHolds settings) (client : ClientId)
    (endpoint : Endpoint) (now : Nat) :
    (session.connect client endpoint now).world.places ≤
      max session.world.places (settings.npcCount + settings.maxConnections) := by
  obtain ⟨-, same⟩ | ⟨-, -, refused⟩ |
    ⟨-, room, place, random, entity, world, joined, -, came, isJoined, accepted⟩ :=
    session.connect_cases client endpoint now
  · rw [same]
    exact Nat.le_max_left ..
  · rw [refused, world_onMetrics, (rests_close ..).world.places, (session.rests_send _ _).world.places]
    exact Nat.le_max_left ..
  · rw [accepted, (rests_send ..).world.places, isJoined]
    have grown := census.kept.places_spawn_le came
    have count := census.count
    rw [census.governed] at room
    exact Nat.le_trans grown (max_le_max_left _ (by omega))

/-- The entity of a connection is in the world, so it does leave it. -/
theorem CensusHolds.despawn (census : session.CensusHolds settings) {client : ClientId}
    {connection : Connection} (found : session.connection? client = some connection)
    (parts : session.Parts after client connection) :
    ∃ entity, session.world.despawn connection.entity = some (entity, after.world) := by
  refine parts.world.resolve_left fun ⟨unknown, _⟩ => ?_
  have alive : (session.world.get? connection.entity).isSome = true := by
    rw [← World.isSome_conduct?, census.controlled client _ (congrArg _ found)]
    rfl
  obtain ⟨_, _, gone⟩ := World.exists_despawn alive
  rw [unknown] at gone
  cases gone

theorem KeepsCensus.disconnect (keeps : session.KeepsCensus settings) (visiting : Visiting)
    (client : ClientId) (fault : Option ConnectionFault) :
    (session.disconnect visiting client fault).KeepsCensus settings := by
  cases found : session.connection? client with
  | none =>
      unfold Session.disconnect
      rw [found]
      exact keeps
  | some connection =>
      have parts := parts_disconnect found visiting fault
      have owns : session.entityOf? client = some connection.entity := congrArg _ found
      intro numbered
      rw [parts.places] at numbered
      have census := keeps numbered
      obtain ⟨entity, gone⟩ := census.despawn found parts
      have conduct := World.conduct?_despawn gone
      refine ⟨parts.settings.trans census.governed, parts.npcCount.trans census.patrols,
        census.kept.despawn gone, ?_, ?_, ?_, ?_, ?_⟩
      · intro other id isOwner
        rw [parts.entity] at isOwner
        by_cases isClient : client = other
        · rw [if_pos isClient] at isOwner
          cases isOwner
        · rw [if_neg isClient] at isOwner
          rw [conduct, if_neg]
          · exact census.controlled other id isOwner
          · rintro rfl
            exact isClient (census.own client other _ owns isOwner)
      · intro first second id isFirst isSecond
        rw [parts.entity] at isFirst isSecond
        split at isFirst
        · cases isFirst
        · split at isSecond
          · cases isSecond
          · exact census.own first second id isFirst isSecond
      · intro id kind known
        rw [conduct] at known
        split at known
        · cases known
        · rename_i isOther
          refine (census.others id kind known).imp_left ?_
          rintro ⟨other, isOwner⟩
          refine ⟨other, ?_⟩
          rw [parts.entity, if_neg]
          · exact isOwner
          · rintro rfl
            exact isOther (Option.some.inj (isOwner.symm.trans owns))
      · have left := census.kept.size_despawn gone
        have count := census.count
        have size := parts.size
        omega
      · have size := parts.size
        exact Nat.le_trans (by omega) census.room

theorem lasts_keepsCensus : Lasts fun _ session => session.KeepsCensus settings where
  mono keeps _ := keeps
  rests keeps rests := keeps.of_stays rests.toStays
  connect keeps client endpoint now := keeps.connect client endpoint now
  disconnect keeps visiting client fault := keeps.disconnect visiting client fault

theorem KeepsCensus.present (keeps : session.KeepsCensus settings) (visiting : Visiting)
    (now : Nat) :
    ((session.handleAll visiting now).dropSilent visiting now).KeepsCensus settings :=
  @Lasts.present session _ 0 lasts_keepsCensus keeps visiting now

theorem KeepsCensus.moved (keeps : session.KeepsCensus settings) (visiting : Visiting) (now : Nat) :
    (session.moved visiting now).KeepsCensus settings :=
  (keeps.present visiting now).of_stays (session.rests_moved visiting now).toStays

theorem KeepsCensus.runTick (keeps : session.KeepsCensus settings) (visiting : Visiting)
    (now : Nat) : (session.runTick visiting now).KeepsCensus settings :=
  (keeps.moved visiting now).of_stays (session.stays_told visiting now)

end Session

end Overworld
