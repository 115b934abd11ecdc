import Overworld.Proofs.Replication.Memory
import Overworld.Proofs.Session.Exactness
import Overworld.Proofs.Session.Passes
import Overworld.Proofs.Session.Steps

set_option autoImplicit false

/-!
What is remembered of the entities in view over whole runs of a session: states that they were in at
the end of the tick that is written on them, and at every third tick states that are still good.
-/

namespace Overworld

namespace Session

variable {session before middle after : Session} {settings : Settings}
  {isTrue : EntityId → Snapshot → Prop} {cause : ConnectionFault → Prop}

theorem isFinite_spawnNpc {world : World} (finite : world.IsFinite) (random : Generator) :
    (spawnNpc world random).1.IsFinite := by
  have counts : npcSpread.Counts (2 ^ 158) := ⟨by decide, by decide⟩
  have somewhere := isFinite_drawPlace (by decide) (by decide) counts random
  have isSpawn : ∃ behavior, (spawnNpc world random).1 =
      world.apply (.spawn (drawPlace npcSpread random).1 somewhere actorHalfExtent behavior) :=
    ⟨_, rfl⟩
  obtain ⟨behavior, same⟩ := isSpawn
  rw [same]
  exact finite.apply _

theorem isFinite_spawnNpcs (count : Nat) {world : World} (finite : world.IsFinite)
    (random : Generator) : (spawnNpcs count world random).1.IsFinite := by
  induction count generalizing world random with
  | zero => exact finite
  | succ count ih => exact ih (isFinite_spawnNpc finite random) (spawnNpc world random).2

theorem Chronicle.run_isFinite (settings : Settings) (map : TileMap) (actions : List Action) :
    (run settings map actions).session.world.IsFinite := by
  refine run_keeps settings map actions (fun action _ => allows_any settings action)
    (fun session => session.world.IsFinite) ?_ ?_ ?_
  · exact isFinite_spawnNpcs settings.npcCount
      (World.isFinite_ofGrid settings.grid .standard settings.dt) (.ofSeed settings.worldSeed)
  · intro session next finite step
    cases step with
    | world change => exact finite.apply change
    | _ => exact finite
  · intro session visiting finite
    rw [world_replicate]
    exact finite

/-- All connections remember what is in their view, in states that are true. -/
def Remembers (session : Session) (isTrue : EntityId → Snapshot → Prop) : Prop :=
  ∀ client connection, session.connection? client = some connection → connection.Remembers isTrue

theorem Remembers.mono (remembers : session.Remembers isTrue) {also : EntityId → Snapshot → Prop}
    (weaker : ∀ id snapshot, isTrue id snapshot → also id snapshot) : session.Remembers also :=
  fun client connection found => (remembers client connection found).mono weaker

theorem Remembers.of_same (remembers : before.Remembers isTrue)
    (same : after.connections = before.connections) : after.Remembers isTrue := by
  intro client connection found
  refine remembers client connection ?_
  unfold connection? at found ⊢
  rw [← same]
  exact found

theorem Remembers.modifyConnection (remembers : session.Remembers isTrue) (client : ClientId)
    {change : Connection → Connection}
    (keeps : ∀ connection : Connection, connection.Remembers isTrue →
      (change connection).Remembers isTrue) :
    (session.modifyConnection client change).Remembers isTrue := by
  intro other connection found
  rw [connection?_modifyConnection] at found
  split at found
  · obtain ⟨was, isWas, rfl⟩ := Option.map_eq_some_iff.mp found
    exact keeps was (remembers other was isWas)
  · exact remembers other connection found

theorem Remembers.step (remembers : before.Remembers isTrue) (step : Step cause before after) :
    after.Remembers isTrue := by
  cases step with
  | aside metrics random inbox => exact remembers.of_same rfl
  | world change => exact remembers.of_same rfl
  | revise client change same =>
      exact remembers.modifyConnection client fun connection remembers =>
        remembers.of_hasSameView (same connection)
  | invalidate chunk =>
      intro client connection found
      rw [connection?_invalidateChunk] at found
      obtain ⟨was, isWas, rfl⟩ := Option.map_eq_some_iff.mp found
      exact (remembers client was isWas).of_hasSameView ⟨rfl, rfl, rfl⟩
  | join client connection blank unseen =>
      intro other found isFound
      rw [connection?_of_insert rfl] at isFound
      split at isFound
      · cases isFound
        exact Connection.remembers_nothing blank unseen
      · exact remembers other found isFound
  | forget client gone =>
      exact remembers.modifyConnection client fun connection remembers => remembers.forget gone
  | part client =>
      intro other connection found
      rw [connection?_erase] at found
      split at found
      · cases found
      · exact remembers other connection found
  | tell client message notice =>
      exact Remembers.of_same (remembers.modifyConnection client fun connection remembers =>
        remembers.of_hasSameView (hasSameView_recordSent connection)) rfl
  | close client => exact remembers.of_same rfl
  | drain => exact remembers.of_same rfl

/-- After a round of telling clients of their surroundings what they remember is what is, or was
remembered before. -/
theorem Remembers.replicate (remembers : session.Remembers isTrue)
    (indexed : session.world.IndexesEntities)
    (owned : ∀ client connection, session.connection? client = some connection →
      (session.world.get? connection.entity).isSome = true) (visiting : Visiting) :
    (session.replicate visiting).Remembers fun id snapshot =>
      session.world.snapshot? id = some snapshot ∨ isTrue id snapshot := by
  intro client connection found
  rw [connection?_replicate] at found
  obtain ⟨before, held, rfl⟩ := Option.map_eq_some_iff.mp found
  obtain ⟨owner, isOwner⟩ := Option.isSome_iff_exists.mp (owned client before held)
  obtain ⟨sent, counted⟩ := exists_informed session.world session.map before
  rw [counted]
  exact ((remembers client before held).replicate isOwner indexed session.map).of_hasSameView
    ⟨rfl, rfl, rfl⟩

theorem snapshot?_runTick (session : Session) (visiting : Visiting) (now : Nat) (id : EntityId) :
    (session.runTick visiting now).world.snapshot? id =
      (session.moved visiting now).world.snapshot? id := by
  rw [world_runTick]
  unfold World.snapshot?
  rw [World.get?_clearDirty, Option.map_map]
  rfl

theorem KeepsCensus.indexes_moved (keeps : session.KeepsCensus settings) (visiting : Visiting)
    (now : Nat) (numbered : (session.moved visiting now).world.places ≤ 4294967296) :
    (session.moved visiting now).world.IndexesEntities ∧
      ∀ client connection, (session.moved visiting now).connection? client = some connection →
        ((session.moved visiting now).world.get? connection.entity).isSome = true := by
  have census := keeps.moved visiting now numbered
  refine ⟨fun id placed => (census.kept.indexed id).symm.trans placed,
    fun client connection held => ?_⟩
  rw [← World.isSome_conduct?, census.controlled client connection.entity (congrArg _ held)]
  rfl

theorem Remembers.moved (remembers : session.Remembers isTrue) (visiting : Visiting) (now : Nat) :
    (session.moved visiting now).Remembers isTrue :=
  (session.reaches_moved visiting now (covers_any session.settings now)).keeps (Remembers · isTrue)
    remembers Remembers.step

theorem Remembers.runTick (remembers : session.Remembers isTrue)
    (keeps : session.KeepsCensus settings) (visiting : Visiting) (now : Nat)
    (numbered : (session.moved visiting now).world.places ≤ 4294967296) :
    (session.runTick visiting now).Remembers fun id snapshot =>
      (session.runTick visiting now).world.snapshot? id = some snapshot ∨ isTrue id snapshot := by
  obtain ⟨indexed, owned⟩ := keeps.indexes_moved visiting now numbered
  have told := (remembers.moved visiting now).replicate indexed owned visiting
  simp only [← snapshot?_runTick] at told
  intro client connection found
  exact told client connection found

namespace Chronicle

/-- The snapshot is of the entity at the end of the tick that is written on it. -/
def Showed (settings : Settings) (map : TileMap) (actions : List Action) (id : EntityId)
    (snapshot : Snapshot) : Prop :=
  ∃ earlier visiting now later, actions = earlier ++ .tick visiting now :: later ∧
    (run settings map (earlier ++ [.tick visiting now])).session.tick = snapshot.tick ∧
    (run settings map (earlier ++ [.tick visiting now])).session.world.snapshot? id = some snapshot

variable {map : TileMap} {actions : List Action}

theorem Showed.append {id : EntityId} {snapshot : Snapshot}
    (showed : Showed settings map actions id snapshot) (more : List Action) :
    Showed settings map (actions ++ more) id snapshot := by
  obtain ⟨earlier, visiting, now, later, rfl, tick, current⟩ := showed
  exact ⟨earlier, visiting, now, later ++ more, by simp, tick, current⟩

theorem Showed.isFinite {id : EntityId} {snapshot : Snapshot}
    (showed : Showed settings map actions id snapshot) : snapshot.isFinite = true := by
  obtain ⟨earlier, visiting, now, later, -, -, current⟩ := showed
  exact (run_isFinite settings map _).isFinite_snapshot? current

theorem session_run_tick (settings : Settings) (map : TileMap) (actions : List Action)
    (visiting : Visiting) (now : Nat) :
    (run settings map (actions ++ [.tick visiting now])).session =
      (run settings map actions).session.runTick visiting now :=
  congrArg Chronicle.session (run_append settings map actions [.tick visiting now])

theorem run_remembers (settings : Settings) (map : TileMap) (actions : List Action)
    (numbered : (run settings map actions).session.world.places ≤ 4294967296) :
    (run settings map actions).session.Remembers (Showed settings map actions) := by
  induction actions using List.reverseRecOn with
  | nil =>
      intro client connection found
      have empty : (ofSettings settings map).connection? client = none := by
        simp [connection?, ofSettings]
      exact nomatch empty.symm.trans found
  | append_singleton earlier action ih =>
      rw [run_append] at numbered
      have remembers := ih (Nat.le_trans (places_le_act _ action) numbered)
      cases isTick : action.isTick with
      | false =>
          have small : (run settings map earlier).session.Reaches (fun _ => True)
              ((run settings map earlier).act action).session :=
            (run settings map earlier).reaches_act isTick fun _ _ _ _ => trivial
          rw [run_append]
          exact Remembers.mono (small.keeps (Remembers · _) remembers Remembers.step)
            fun id snapshot showed => showed.append [action]
      | true =>
          cases action with
          | tick visiting now =>
              rw [← run_append, session_run_tick,
                ((run settings map earlier).session.stays_told visiting now).world.places] at numbered
              have ended := remembers.runTick (run_keepsCensus settings map earlier) visiting now
                numbered
              rw [← session_run_tick] at ended
              refine ended.mono fun id snapshot known => ?_
              rcases known with current | showed
              · exact ⟨earlier, visiting, now, [], rfl, (World.entity_of_snapshot? current).2.symm,
                  current⟩
              · exact showed.append _
          | _ => cases isTick

/-- Everyone whom a client sees after a tick it remembers in a state that was true at the end of the
tick written on it. It is the state of this tick for whoever came into view or was marked; and at
every third tick it is, or shows no difference that counts from it. This holds as long as ids can
tell the places of the world apart. -/
theorem run_shows_fresh (settings : Settings) (map : TileMap) (actions : List Action)
    (visiting : Visiting) (now : Nat)
    (numbered : (run settings map (actions ++ [.tick visiting now])).session.world.places ≤
      4294967296)
    (client : ClientId) (connection : Connection)
    (connected : (run settings map (actions ++ [.tick visiting now])).session.connection? client =
      some connection) :
    let session := (run settings map (actions ++ [.tick visiting now])).session
    let moved := (run settings map actions).session.moved visiting now
    ∃ before, moved.connection? client = some before ∧ before.entity = connection.entity ∧
      ∀ id ∈ connection.interest.visible, ∃ snapshot current entity,
        connection.observed[id]? = some snapshot ∧
        Showed settings map (actions ++ [.tick visiting now]) id snapshot ∧
        session.world.snapshot? id = some current ∧
        moved.world.get? id = some entity ∧
        (id ∉ before.interest.visible ∨ entity.dirty = true →
          snapshot = current ∧ snapshot.tick = session.tick) ∧
        (session.tick % observationInterval = 0 →
          (snapshot = current ∨ snapshot.differs current = false) ∧ snapshot.Resembles current) := by
  have keeps := run_keepsCensus settings map actions
  have remembers := run_remembers settings map (actions ++ [.tick visiting now]) numbered
  intro session moved
  have ended : session = (run settings map actions).session.runTick visiting now :=
    session_run_tick settings map actions visiting now
  have stays := (run settings map actions).session.stays_told visiting now
  have places : moved.world.places ≤ 4294967296 := by
    rw [← stays.world.places, ← session_run_tick]
    exact numbered
  obtain ⟨indexed, -⟩ := keeps.indexes_moved visiting now places
  have known : moved.Remembers (Showed settings map actions) := by
    refine Remembers.moved (run_remembers settings map actions ?_) visiting now
    exact Nat.le_trans (places_le_moved _ visiting now) places
  have finite : session.world.IsFinite := run_isFinite settings map _
  have found : ((run settings map actions).session.runTick visiting now).connection? client =
      some connection := ended ▸ connected
  obtain ⟨before, owner, -, held, same, owned, -⟩ := keeps.exists_look visiting now
    (ended ▸ numbered) found
  refine ⟨before, held, same, fun id seen => ?_⟩
  obtain ⟨sent, counted⟩ := exists_informed moved.world moved.map before
  have isTold : connection =
      { (before.replicate moved.world moved.map).connection with messagesSent := sent } := by
    rw [← counted]
    rw [connection?_runTick, held] at found
    exact (Option.some.inj found).symm
  rw [isTold] at seen ⊢
  obtain ⟨snapshot, entity, observed, isEntity, fresh⟩ := Connection.exists_observed
    (same ▸ owned) indexed moved.map (known client before held).complete seen
  have current : session.world.snapshot? id = some (.ofEntity moved.world.tick id entity) := by
    rw [ended, snapshot?_runTick]
    exact congrArg (Option.map _) isEntity
  have tick : session.tick = moved.world.tick := by
    rw [ended, Session.tick, world_runTick]
    rfl
  have showed : Showed settings map (actions ++ [.tick visiting now]) id snapshot :=
    (remembers client connection connected).honest id snapshot (isTold ▸ observed)
  refine ⟨snapshot, _, entity, observed, showed, current, isEntity, fun new => ?_, fun due => ?_⟩
  · have isCurrent := fresh.resolve_right fun ⟨inView, unmarked, _⟩ => by
      rcases new with entered | marked
      · exact entered inView
      · exact Bool.false_ne_true (unmarked.symm.trans marked)
    exact ⟨isCurrent, by rw [isCurrent, tick]; rfl⟩
  · rw [tick] at due
    rcases fresh with isCurrent | ⟨-, -, same⟩
    · rw [← isCurrent]
      exact ⟨Or.inl rfl, Snapshot.resembles_self showed.isFinite⟩
    · exact ⟨Or.inr (same due), Snapshot.resembles_of_not_differs showed.isFinite
        (finite.isFinite_snapshot? current) (same due)⟩

/-- What the server remembers for the first client of the patrols around it. -/
theorem first_client_remembered :
    ∃ connection,
      (run .standard ⟨16, fun _ => []⟩ firstClient).session.connection? ⟨0⟩ = some connection ∧
      ∀ id ∈ connection.interest.visible, ∃ snapshot,
        connection.observed[id]? = some snapshot ∧
        Showed .standard ⟨16, fun _ => []⟩ firstClient id snapshot := by
  have isIn : (run .standard ⟨16, fun _ => []⟩ firstClient).session.isConnected ⟨0⟩ = true :=
    isConnected_first .standard _ (by decide) _ _ _ _
  rw [isConnected_eq] at isIn
  obtain ⟨connection, connected⟩ := Option.isSome_iff_exists.mp isIn
  have numbered := places_run_le .standard ⟨16, fun _ => []⟩ firstClient
  obtain ⟨before, -, -, fresh⟩ := run_shows_fresh .standard ⟨16, fun _ => []⟩
    [.submit ⟨⟨0⟩, .connected (.v4 #v[127, 0, 0, 1] 4000), 0⟩] .ascending 0
    (Nat.le_trans numbered (by decide)) ⟨0⟩ connection connected
  refine ⟨connection, connected, fun id seen => ?_⟩
  obtain ⟨snapshot, -, -, held, showed, -⟩ := fresh id seen
  exact ⟨snapshot, held, showed⟩

end Chronicle

end Session

end Overworld
