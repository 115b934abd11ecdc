import Overworld.Proofs.Session.Population
import Overworld.Proofs.Session.Views

set_option autoImplicit false

/-!
What clients see after each tick: exactly those whose square touches the area around their entity, by
whatever cells the index found them. What came into view since the last look, and what left it, is
the difference.
-/

namespace Overworld

theorem World.IsCurrent.holdsRects {world : World} (current : world.IsCurrent) :
    world.grid.HoldsRects := by
  intro id shape placed
  rw [current] at placed
  obtain ⟨entity, -, rfl⟩ := Option.map_eq_some_iff.mp placed
  exact ⟨_, rfl, Rect.isUpright_ofCorners ..⟩

theorem Area.isUpright_rect (area : Area) : area.rect.IsUpright :=
  Rect.isUpright_ofCorners ..

/-- The index finds exactly the entities whose square touches the area. -/
theorem World.IsKept.mem_query {world : World} (kept : world.IsKept) (current : world.IsCurrent)
    (area : Area) (id : EntityId) :
    id ∈ world.grid.query (.rect area.rect) ↔
      ∃ entity, world.get? id = some entity ∧
        (Shape.rect area.rect).intersects entity.shape = true := by
  rw [kept.inOrder.mem_query current.holdsRects area.isUpright_rect, current id]
  simp only [Option.map_eq_some_iff]
  constructor
  · rintro ⟨shape, ⟨entity, found, rfl⟩, touches⟩
    exact ⟨entity, found, touches⟩
  · rintro ⟨entity, found, touches⟩
    exact ⟨entity.shape, ⟨entity, found, rfl⟩, touches⟩

namespace Interest

variable {interest after : Interest} {own : EntityId} {position : Vec3} {grid : Grid}
  {delta : InterestDelta}

theorem mem_update (looked : interest.update own position grid = (delta, after)) (id : EntityId) :
    id ∈ after.visible ↔
      id ≠ own ∧ id ∈ grid.query (.rect (interest.rules.areaFor position).rect) := by
  cases looked
  simp [and_comm]

theorem rules_update (looked : interest.update own position grid = (delta, after)) :
    after.rules = interest.rules := by
  cases looked
  rfl

theorem ascending_update (looked : interest.update own position grid = (delta, after)) :
    after.visible.Pairwise fun a b => a.precedes b = true ∧ a ≠ b := by
  cases looked
  exact (grid.query_ascending _).filter _

/-- The lists of an update are the differences between the views before and after. -/
theorem mem_entered (looked : interest.update own position grid = (delta, after)) (id : EntityId) :
    id ∈ delta.entered ↔ id ∈ after.visible ∧ id ∉ interest.visible := by
  cases looked
  rw [List.mem_filter]
  simp

theorem mem_left (looked : interest.update own position grid = (delta, after)) (id : EntityId) :
    id ∈ delta.left ↔ id ∈ interest.visible ∧ id ∉ after.visible := by
  cases looked
  rw [List.mem_filter, Bool.not_eq_true', List.contains_eq_mem, decide_eq_false_iff_not]

theorem ascending_entered (looked : interest.update own position grid = (delta, after)) :
    delta.entered.Pairwise fun a b => a.precedes b = true ∧ a ≠ b := by
  have ascending := ascending_update looked
  cases looked
  exact ascending.filter _

theorem ascending_left (looked : interest.update own position grid = (delta, after))
    (ascending : interest.visible.Pairwise fun a b => a.precedes b = true ∧ a ≠ b) :
    delta.left.Pairwise fun a b => a.precedes b = true ∧ a ≠ b := by
  cases looked
  exact ascending.filter _

end Interest

theorem Connection.interest_replicate {connection : Connection} {world : World} {owner : Entity}
    (found : world.get? connection.entity = some owner) (map : TileMap) :
    (connection.replicate world map).connection.interest =
      (connection.interest.update connection.entity owner.motion.position world.grid).2 := by
  unfold replicate
  rw [found]

namespace Session

variable {session : Session} {settings : Settings} {client : ClientId} {connection : Connection}

/-- A connection after it was told what changed for it. -/
def informed (world : World) (map : TileMap) (connection : Connection) : Connection :=
  (connection.replicate world map).messages.foldl (fun connection _ => connection.recordSent)
    (connection.replicate world map).connection

theorem exists_informed (world : World) (map : TileMap) (connection : Connection) :
    ∃ sent, informed world map connection =
      { (connection.replicate world map).connection with messagesSent := sent } :=
  exists_recordSents ..

theorem map_replicateFor (session : Session) (client : ClientId) :
    (session.replicateFor client).map = session.map :=
  (session.follows_replicateFor client).map

theorem connection?_replicate (session : Session) (visiting : Visiting) (client : ClientId) :
    (session.replicate visiting).connection? client =
      (session.connection? client).map (informed session.world session.map) := by
  refine connection?_pass_order
    (fun later => later.world = session.world ∧ later.map = session.map)
    (fun later client other same => ?_) (fun later client same => ?_) session ⟨rfl, rfl⟩ visiting
    .replicate client
  · rw [connection?_replicateFor, same.1, same.2]
    rfl
  · rw [world_replicateFor, map_replicateFor]
    exact same

theorem world_runTick (session : Session) (visiting : Visiting) (now : Nat) :
    (session.runTick visiting now).world = (session.moved visiting now).world.clearDirty := by
  rw [← world_replicate (session.moved visiting now) visiting]
  rfl

/-- What a client sees after a tick is what it found around its entity once all had moved. -/
theorem KeepsCensus.exists_look (keeps : session.KeepsCensus settings) (visiting : Visiting)
    (now : Nat) (numbered : (session.runTick visiting now).world.places ≤ 4294967296)
    (found : (session.runTick visiting now).connection? client = some connection) :
    ∃ before owner delta, (session.moved visiting now).connection? client = some before ∧
      before.entity = connection.entity ∧
      (session.moved visiting now).world.get? connection.entity = some owner ∧
      before.interest.update connection.entity owner.motion.position
        (session.moved visiting now).world.grid = (delta, connection.interest) := by
  have told := session.rests_told visiting now
  have stays := session.stays_told visiting now
  rw [stays.world.places] at numbered
  have census := keeps.moved visiting now numbered
  have entity := stays.entity client
  rw [entityOf?, entityOf?, found] at entity
  obtain ⟨before, held, same⟩ := Option.map_eq_some_iff.mp entity.symm
  change before.entity = connection.entity at same
  have alive := census.controlled client before.entity (congrArg _ held)
  obtain ⟨owner, isOwner, -⟩ := Option.map_eq_some_iff.mp alive
  obtain ⟨sent, counted⟩ := exists_informed (session.moved visiting now).world
    (session.moved visiting now).map before
  have seen := told.interest client
  change _ = ((session.moved visiting now).replicate visiting).interestOf? client at seen
  rw [interestOf?, connection?_replicate, found, held, Option.map_some, Option.map_some,
    Option.map_some, counted, Connection.interest_replicate isOwner, same] at seen
  rw [same] at isOwner
  rw [Option.some.inj seen]
  exact ⟨before, owner, _, held, same, isOwner, rfl⟩

theorem KeepsCensus.sees_runTick (keeps : session.KeepsCensus settings) (visiting : Visiting)
    (now : Nat) (numbered : (session.runTick visiting now).world.places ≤ 4294967296) :
    (session.runTick visiting now).Sees := by
  have census := keeps.runTick visiting now numbered
  refine ⟨fun client connection found id member => ?_, fun client connection found => ?_⟩
  · obtain ⟨before, owner, delta, -, -, -, looked⟩ := keeps.exists_look visiting now numbered found
    have placed := Grid.isSome_shapeOf?_of_mem_query ((Interest.mem_update looked id).mp member).2
    rw [← census.kept.indexed, world_runTick]
    exact placed
  · obtain ⟨before, owner, delta, -, -, -, looked⟩ := keeps.exists_look visiting now numbered found
    exact Interest.ascending_update looked

/-- After a tick a client sees exactly those others whose square touches the area around its own
entity, and it was told the differences from before. -/
theorem KeepsCensus.sees_exactly (keeps : session.KeepsCensus settings) (visiting : Visiting)
    (now : Nat) (numbered : (session.runTick visiting now).world.places ≤ 4294967296)
    (found : (session.runTick visiting now).connection? client = some connection) :
    ∃ owner before delta,
      (session.runTick visiting now).world.get? connection.entity = some owner ∧
      (∀ id, id ∈ connection.interest.visible ↔ id ≠ connection.entity ∧
        ∃ entity, (session.runTick visiting now).world.get? id = some entity ∧
          (Shape.rect (connection.interest.rules.areaFor owner.motion.position).rect).intersects
            entity.shape = true) ∧
      (session.moved visiting now).connection? client = some before ∧
      before.entity = connection.entity ∧
      before.interest.update connection.entity owner.motion.position
        (session.moved visiting now).world.grid = (delta, connection.interest) := by
  have current := keeps.isCurrent_runTick visiting now numbered
  have kept := (keeps.runTick visiting now numbered).kept
  obtain ⟨before, owner, delta, held, same, isOwner, looked⟩ :=
    keeps.exists_look visiting now numbered found
  refine ⟨{ owner with dirty := false }, before, delta, ?_, fun id => ?_, held, same, looked⟩
  · rw [world_runTick, World.get?_clearDirty, isOwner]
    rfl
  · have sameGrid : (session.moved visiting now).world.grid =
        (session.runTick visiting now).world.grid := by
      rw [world_runTick]
      rfl
    rw [Interest.mem_update looked, sameGrid, kept.mem_query current, Interest.rules_update looked]

end Session

end Overworld
