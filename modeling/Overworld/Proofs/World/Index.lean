import Overworld.Proofs.World.Roster
import Overworld.World.Basic

set_option autoImplicit false

/-!
The index of a world holds entities of the world only: each operation of the world keeps it so. The
index may be behind in where they are.
-/

namespace Overworld

namespace World

/-- Places that were ever taken. Ids tell at most 2^32 of them apart. -/
def places (world : World) : Nat := world.entities.slots.size

def IndexesEntities (world : World) : Prop :=
  ∀ id, (world.grid.shapeOf? id).isSome = true → (world.get? id).isSome = true

theorem indexesEntities_ofGrid (size : CellSize) (gait : Gait) (dt : Single) :
    (ofGrid (.ofSize size) gait dt).IndexesEntities := by
  intro id placed
  rw [show (ofGrid (.ofSize size) gait dt).grid = .ofSize size from rfl,
    Grid.shapeOf?_ofSize] at placed
  cases placed

theorem places_spawn {world after : World} {position : Vec3} {halfExtent : Single}
    {behavior : Behavior} {id : EntityId}
    (came : world.spawn position halfExtent behavior = (id, after)) :
    after.places = world.places ∨ after.places = world.places + 1 := by
  cases came
  exact world.entities.slots_size_insert _

theorem tick_spawn {world after : World} {position : Vec3} {halfExtent : Single}
    {behavior : Behavior} {id : EntityId}
    (came : world.spawn position halfExtent behavior = (id, after)) : after.tick = world.tick := by
  cases came
  rfl

theorem get?_spawn {world after : World} {position : Vec3} {halfExtent : Single}
    {behavior : Behavior} {id : EntityId}
    (came : world.spawn position halfExtent behavior = (id, after))
    (numbered : after.places ≤ 4294967296) (other : EntityId) :
    after.get? other =
      if other = id then some (.spawned position halfExtent behavior) else world.get? other := by
  cases came
  exact world.entities.get?_insert _ numbered other

theorem vacant_spawn_of_full {world after : World} (full : world.entities.vacant = [])
    {position : Vec3} {halfExtent : Single} {behavior : Behavior} {id : EntityId}
    (came : world.spawn position halfExtent behavior = (id, after)) :
    after.entities.vacant = [] := by
  have atEnd := world.entities.insert_of_full full (.spawned position halfExtent behavior)
  cases came
  change (world.entities.insert _).2.vacant = []
  rw [atEnd]
  exact full

theorem get?_spawn_of_full {world after : World} (full : world.entities.vacant = [])
    (numbered : world.places < 4294967296) {position : Vec3} {halfExtent : Single}
    {behavior : Behavior} {id : EntityId}
    (came : world.spawn position halfExtent behavior = (id, after)) : world.get? id = none := by
  have atEnd := world.entities.insert_of_full full (.spawned position halfExtent behavior)
  cases came
  change world.entities.get? (world.entities.insert _).1 = none
  rw [atEnd]
  exact world.entities.get?_fst_append numbered _

theorem IndexesEntities.spawn {world after : World} (indexed : world.IndexesEntities)
    {position : Vec3} {halfExtent : Single} {behavior : Behavior} {id : EntityId}
    (came : world.spawn position halfExtent behavior = (id, after))
    (numbered : after.places ≤ 4294967296) : after.IndexesEntities := by
  intro other placed
  rw [get?_spawn came numbered other]
  by_cases newcomer : other = id
  · rw [if_pos newcomer]
    rfl
  · rw [if_neg newcomer]
    apply indexed
    have shape := world.grid.shapeOf?_place id other
      (Entity.spawned position halfExtent behavior).shape
    rw [if_neg (fun same => newcomer same.symm)] at shape
    rw [← shape]
    cases came
    exact placed

theorem places_despawn {world after : World} {id : EntityId} {entity : Entity}
    (gone : world.despawn id = some (entity, after)) : after.places = world.places := by
  unfold despawn at gone
  split at gone
  · cases gone
  · rename_i removed
    cases gone
    exact Roster.slots_size_remove removed

theorem despawn_frame {world after : World} {id : EntityId} {entity : Entity}
    (gone : world.despawn id = some (entity, after)) :
    after.tick = world.tick ∧ after.gait = world.gait ∧ after.dt = world.dt := by
  unfold despawn at gone
  split at gone
  · cases gone
  · cases gone
    exact ⟨rfl, rfl, rfl⟩

theorem IndexesEntities.despawn {world after : World} (indexed : world.IndexesEntities)
    {id : EntityId} {entity : Entity} (gone : world.despawn id = some (entity, after)) :
    after.IndexesEntities := by
  unfold World.despawn at gone
  split at gone
  · cases gone
  · rename_i removed
    cases gone
    intro other placed
    rw [Grid.shapeOf?_remove] at placed
    by_cases same : id = other
    · rw [if_pos same] at placed
      cases placed
    · rw [if_neg same] at placed
      unfold get?
      rw [Roster.get?_remove removed other, if_neg (fun equal => same equal.symm)]
      exact indexed other placed

theorem places_modify (world : World) (id : EntityId) (change : Entity → Entity) :
    (world.modify id change).places = world.places :=
  world.entities.slots_size_modify id change

theorem get?_modify (world : World) (id other : EntityId) (change : Entity → Entity) :
    (world.modify id change).get? other =
      if other = id then (world.get? id).map change else world.get? other :=
  world.entities.get?_modify id other change

theorem isSome_get?_modify (world : World) (id other : EntityId) (change : Entity → Entity) :
    ((world.modify id change).get? other).isSome = (world.get? other).isSome := by
  rw [get?_modify]
  split
  · rename_i same
    rw [Option.isSome_map, same]
  · rfl

theorem IndexesEntities.modify {world : World} (indexed : world.IndexesEntities) (id : EntityId)
    (change : Entity → Entity) : (world.modify id change).IndexesEntities := by
  intro other placed
  rw [isSome_get?_modify]
  exact indexed other placed

theorem places_step (world : World) : world.step.places = world.places :=
  Roster.slots_size_mapEntities ..

theorem get?_step (world : World) (id : EntityId) :
    world.step.get? id = (world.get? id).map (·.step world.gait world.dt) :=
  Roster.get?_mapEntities ..

theorem IndexesEntities.step {world : World} (indexed : world.IndexesEntities) :
    world.step.IndexesEntities := by
  intro id placed
  rw [get?_step, Option.isSome_map]
  exact indexed id placed

theorem places_clearDirty (world : World) : world.clearDirty.places = world.places :=
  Roster.slots_size_mapEntities ..

theorem get?_clearDirty (world : World) (id : EntityId) :
    world.clearDirty.get? id = (world.get? id).map fun entity => { entity with dirty := false } :=
  Roster.get?_mapEntities ..

theorem IndexesEntities.clearDirty {world : World} (indexed : world.IndexesEntities) :
    world.clearDirty.IndexesEntities := by
  intro id placed
  rw [get?_clearDirty, Option.isSome_map]
  exact indexed id placed

/-- To place an entity of the world anew adds nothing to the index that is not one. -/
theorem IndexesEntities.place {world : World} (indexed : world.IndexesEntities) {id : EntityId}
    (lives : (world.get? id).isSome = true) (shape : Shape) :
    ({ world with grid := world.grid.place id shape } : World).IndexesEntities := by
  intro other placed
  rw [Grid.shapeOf?_place] at placed
  by_cases same : id = other
  · rw [← same]
    exact lives
  · rw [if_neg same] at placed
    exact indexed other placed

theorem IndexesEntities.syncGrid {world : World} (indexed : world.IndexesEntities)
    (numbered : world.places ≤ 4294967296) : world.syncGrid.IndexesEntities := by
  suffices fold : ∀ (entries : List (EntityId × Entity)) (grid : Grid),
      (∀ entry ∈ entries, (world.get? entry.1).isSome = true) →
      ({ world with grid } : World).IndexesEntities →
      ({ world with
          grid := entries.foldl (fun grid entry => grid.place entry.1 entry.2.shape) grid } :
        World).IndexesEntities from
    fold _ _ (fun entry member =>
      Option.isSome_of_eq_some (Roster.get?_of_mem_entries numbered member)) indexed
  intro entries
  induction entries with
  | nil => exact fun _ _ indexed => indexed
  | cons entry rest ih =>
      intro grid alive indexed
      exact ih _ (fun later member => alive later (List.mem_cons_of_mem _ member))
        (indexed.place (alive entry List.mem_cons_self) entry.2.shape)

theorem teleport?_cases {world after : World} {id : EntityId} {position : Vec3}
    (moved : world.teleport? id position = some after) :
    ∃ entity, world.get? id = some entity ∧ position.isFinite = true ∧
      after =
        { world.modify id fun _ => { entity with motion := .atRest position, dirty := true } with
          grid := world.grid.place id
            ({ entity with motion := .atRest position, dirty := true } : Entity).shape } := by
  unfold teleport? at moved
  split at moved
  · cases moved
  · rename_i entity found
    split at moved
    · rename_i finite
      cases moved
      exact ⟨entity, found, finite, rfl⟩
    · cases moved

theorem IndexesEntities.teleport? {world after : World} (indexed : world.IndexesEntities)
    {id : EntityId} {position : Vec3} (moved : world.teleport? id position = some after) :
    after.IndexesEntities := by
  obtain ⟨entity, found, -, rfl⟩ := teleport?_cases moved
  refine (indexed.modify id _).place ?_ _
  rw [isSome_get?_modify, found]
  rfl

end World

end Overworld
