import Overworld.Proofs.Grid.Overlap
import Overworld.Proofs.World.Index
import Overworld.Proofs.World.Occupancy

set_option autoImplicit false

/-!
A world in order: its marks tell who is there, and its index is in order and tracks exactly these.
Arrival, departure and everything in between keep it so; in between no one changes its conduct.
-/

namespace Overworld

/-- What kind of behavior an entity has, whatever came of it. -/
inductive Conduct
  | player
  | idler
  | patroller
deriving DecidableEq

def Behavior.conduct : Behavior → Conduct
  | .controlled => .player
  | .idle => .idler
  | .patrol _ => .patroller

theorem Behavior.conduct_advance (behavior : Behavior) (held : Keys) :
    (behavior.advance held).1.conduct = behavior.conduct := by
  cases behavior <;> rfl

namespace World

def conduct? (world : World) (id : EntityId) : Option Conduct :=
  (world.get? id).map (·.behavior.conduct)

theorem isSome_conduct? (world : World) (id : EntityId) :
    (world.conduct? id).isSome = (world.get? id).isSome :=
  Option.isSome_map

/-- The generation of a place, and whether someone is there. -/
def tenancy? (world : World) (place : Nat) : Option (UInt32 × Bool) :=
  world.entities.slots[place]?.map fun slot => (slot.generation, slot.occupant.isSome)

theorem isSome_get?_iff {world : World} {id : EntityId} :
    (world.get? id).isSome = true ↔ world.tenancy? id.index.toNat = some (id.generation, true) :=
  Roster.isSome_get?_iff

structure IsKept (world : World) : Prop where
  sound : world.entities.IsSound
  inOrder : world.grid.IsInOrder
  indexed : ∀ id, (world.grid.shapeOf? id).isSome = (world.get? id).isSome

variable {world after : World} {id : EntityId}

theorem isKept_ofGrid (size : CellSize) (gait : Gait) (dt : Single) :
    (ofGrid (.ofSize size) gait dt).IsKept where
  sound := Roster.isSound_empty
  inOrder := Grid.isInOrder_ofSize size
  indexed id := by
    change (Grid.shapeOf? (.ofSize size) id).isSome = _
    rw [Grid.shapeOf?_ofSize]
    rfl

section Spawn

variable {position : Vec3} {halfExtent : Single} {behavior : Behavior}

theorem spawn_cases (came : world.spawn position halfExtent behavior = (id, after)) :
    world.entities.insert (.spawned position halfExtent behavior) = (id, after.entities) ∧
      after.grid = world.grid.place id (Entity.spawned position halfExtent behavior).shape := by
  cases came
  exact ⟨rfl, rfl⟩

theorem IsKept.spawn (kept : world.IsKept)
    (came : world.spawn position halfExtent behavior = (id, after))
    (numbered : after.places ≤ 4294967296) : after.IsKept := by
  obtain ⟨inserted, grid⟩ := spawn_cases came
  have sound := kept.sound.insert (.spawned position halfExtent behavior)
  rw [inserted] at sound
  refine ⟨sound, grid ▸ kept.inOrder.place _ _, fun other => ?_⟩
  rw [grid, Grid.shapeOf?_place, get?_spawn came numbered]
  by_cases same : other = id
  · rw [if_pos same, if_pos same.symm]
    rfl
  · rw [if_neg same, if_neg fun equal => same equal.symm]
    exact kept.indexed other

theorem conduct?_spawn (came : world.spawn position halfExtent behavior = (id, after))
    (numbered : after.places ≤ 4294967296) (other : EntityId) :
    after.conduct? other = if other = id then some behavior.conduct else world.conduct? other := by
  unfold conduct?
  rw [get?_spawn came numbered]
  split <;> rfl

theorem IsKept.get?_newcomer (kept : world.IsKept)
    (came : world.spawn position halfExtent behavior = (id, after))
    (numbered : after.places ≤ 4294967296) : world.get? id = none := by
  cases came
  exact kept.sound.get?_fst_insert _ numbered

theorem IsKept.size_spawn (kept : world.IsKept)
    (came : world.spawn position halfExtent behavior = (id, after)) :
    after.entities.size = world.entities.size + 1 := by
  cases came
  exact kept.sound.size_insert _

theorem IsKept.places_spawn_le (kept : world.IsKept)
    (came : world.spawn position halfExtent behavior = (id, after)) :
    after.places ≤ max world.places (world.entities.size + 1) := by
  cases came
  exact kept.sound.slots_size_insert_le _

end Spawn

section Despawn

variable {entity : Entity}

theorem despawn_cases (gone : world.despawn id = some (entity, after)) :
    world.entities.remove id = some (entity, after.entities) ∧
      after.grid = world.grid.remove id := by
  unfold despawn at gone
  split at gone
  · cases gone
  · rename_i removed
    cases gone
    exact ⟨removed, rfl⟩

/-- An entity of the world can leave it. -/
theorem exists_despawn (alive : (world.get? id).isSome = true) :
    ∃ entity after, world.despawn id = some (entity, after) := by
  obtain ⟨entity, found⟩ := Option.isSome_iff_exists.mp alive
  unfold despawn Roster.remove
  rw [show world.entities.get? id = some entity from found]
  exact ⟨_, _, rfl⟩

theorem get?_despawn (gone : world.despawn id = some (entity, after)) (other : EntityId) :
    after.get? other = if other = id then none else world.get? other :=
  Roster.get?_remove (despawn_cases gone).1 other

theorem conduct?_despawn (gone : world.despawn id = some (entity, after)) (other : EntityId) :
    after.conduct? other = if other = id then none else world.conduct? other := by
  unfold conduct?
  rw [get?_despawn gone]
  split <;> rfl

theorem IsKept.despawn (kept : world.IsKept) (gone : world.despawn id = some (entity, after)) :
    after.IsKept := by
  obtain ⟨removed, grid⟩ := despawn_cases gone
  refine ⟨kept.sound.remove removed, grid ▸ kept.inOrder.remove id, fun other => ?_⟩
  rw [grid, Grid.shapeOf?_remove, get?_despawn gone]
  by_cases same : other = id
  · rw [if_pos same, if_pos same.symm]
    rfl
  · rw [if_neg same, if_neg fun equal => same equal.symm]
    exact kept.indexed other

theorem IsKept.size_despawn (kept : world.IsKept)
    (gone : world.despawn id = some (entity, after)) :
    after.entities.size + 1 = world.entities.size :=
  kept.sound.size_remove (despawn_cases gone).1

end Despawn

/-- No one comes or goes from `before` to `after`. -/
structure Remains (before after : World) : Prop where
  kept : before.places ≤ 4294967296 → before.IsKept → after.IsKept
  conduct : ∀ id, after.conduct? id = before.conduct? id
  tenancy : ∀ place, after.tenancy? place = before.tenancy? place
  size : after.entities.size = before.entities.size
  places : after.places = before.places

theorem Remains.refl (world : World) : world.Remains world :=
  ⟨fun _ kept => kept, fun _ => rfl, fun _ => rfl, rfl, rfl⟩

theorem Remains.trans {before middle after : World} (first : before.Remains middle)
    (second : middle.Remains after) : before.Remains after where
  kept numbered kept := second.kept (first.places ▸ numbered) (first.kept numbered kept)
  conduct id := (second.conduct id).trans (first.conduct id)
  tenancy place := (second.tenancy place).trans (first.tenancy place)
  size := second.size.trans first.size
  places := second.places.trans first.places

theorem Remains.isSome_get? {before after : World} (remains : before.Remains after) (id : EntityId) :
    (after.get? id).isSome = (before.get? id).isSome := by
  rw [← isSome_conduct?, ← isSome_conduct?, remains.conduct]

theorem remains_beginTick (world : World) : world.Remains world.beginTick :=
  ⟨fun _ kept => ⟨kept.sound, kept.inOrder, kept.indexed⟩, fun _ => rfl, fun _ => rfl, rfl, rfl⟩

/-- A change that leaves an entity its conduct. -/
theorem remains_modify (world : World) (id : EntityId) {change : Entity → Entity}
    (same : ∀ entity, world.get? id = some entity →
      (change entity).behavior.conduct = entity.behavior.conduct) :
    world.Remains (world.modify id change) where
  kept _ kept := ⟨kept.sound.modify id change, kept.inOrder, fun other => by
    rw [isSome_get?_modify]
    exact kept.indexed other⟩
  conduct other := by
    unfold conduct?
    rw [get?_modify]
    split
    · rename_i isIt
      rw [isIt]
      cases found : world.get? id with
      | none => rfl
      | some entity => exact congrArg some (same entity found)
    · rfl
  tenancy place := world.entities.tenancy?_modify id change place
  size := Roster.size_modify ..
  places := world.places_modify id change

/-- A change of all entities that leaves them their conduct. -/
theorem remains_mapEntities (world : World) {change : EntityId → Entity → Entity}
    (same : ∀ id entity, (change id entity).behavior.conduct = entity.behavior.conduct) :
    world.Remains { world with entities := world.entities.mapEntities change } where
  kept _ kept := ⟨kept.sound.mapEntities change, kept.inOrder, fun id => by
    refine (kept.indexed id).trans ?_
    unfold get?
    rw [Roster.get?_mapEntities, Option.isSome_map]⟩
  conduct id := by
    unfold conduct? get?
    rw [Roster.get?_mapEntities, Option.map_map]
    congr 1
    funext entity
    exact same id entity
  tenancy place := world.entities.tenancy?_mapEntities change place
  size := rfl
  places := Roster.slots_size_mapEntities ..

theorem remains_step (world : World) : world.Remains world.step :=
  world.remains_mapEntities fun _ entity => entity.behavior.conduct_advance entity.keys

theorem remains_clearDirty (world : World) : world.Remains world.clearDirty :=
  world.remains_mapEntities fun _ _ => rfl

theorem IsKept.place (kept : world.IsKept) (alive : (world.get? id).isSome = true) (shape : Shape) :
    ({ world with grid := world.grid.place id shape } : World).IsKept := by
  refine ⟨kept.sound, kept.inOrder.place id shape, fun other => ?_⟩
  rw [Grid.shapeOf?_place]
  by_cases same : id = other
  · rw [if_pos same, ← same]
    exact alive.symm
  · rw [if_neg same]
    exact kept.indexed other

theorem remains_syncGrid (world : World) : world.Remains world.syncGrid := by
  refine ⟨fun numbered kept => ?_, fun _ => rfl, fun _ => rfl, rfl, rfl⟩
  suffices fold : ∀ (entries : List (EntityId × Entity)) (grid : Grid),
      (∀ entry ∈ entries, (world.get? entry.1).isSome = true) →
      ({ world with grid } : World).IsKept →
      ({ world with
          grid := entries.foldl (fun grid entry => grid.place entry.1 entry.2.shape) grid } :
        World).IsKept from
    fold _ _ (fun entry member =>
      Option.isSome_of_eq_some (Roster.get?_of_mem_entries numbered member)) kept
  intro entries
  induction entries with
  | nil => exact fun _ _ kept => kept
  | cons entry rest ih =>
      intro grid alive kept
      exact ih _ (fun later member => alive later (List.mem_cons_of_mem _ member))
        (kept.place (alive entry List.mem_cons_self) entry.2.shape)

theorem remains_teleport? {position : Vec3} (moved : world.teleport? id position = some after) :
    world.Remains after := by
  obtain ⟨entity, found, -, rfl⟩ := teleport?_cases moved
  have changed : world.Remains
      (world.modify id fun _ => { entity with motion := .atRest position, dirty := true }) :=
    world.remains_modify id fun other held => by
      rw [found] at held
      cases held
      rfl
  refine changed.trans ⟨fun _ kept => kept.place ?_ _, fun _ => rfl, fun _ => rfl, rfl, rfl⟩
  rw [isSome_get?_modify, found]
  rfl

/-- Every entity is tracked as it stands, and nothing else is tracked. -/
def IsCurrent (world : World) : Prop :=
  ∀ id, world.grid.shapeOf? id = (world.get? id).map Entity.shape

/-- To place entities one by one leaves each where it was placed, as long as no two differ in what
they place under one id. -/
theorem shapeOf?_foldl_place {entity : Entity} (entries : List (EntityId × Entity))
    (same : ∀ entry ∈ entries, entry.1 = id → entry.2 = entity) {grid : Grid}
    (placed : id ∈ entries.map (·.1) ∨ grid.shapeOf? id = some entity.shape) :
    (entries.foldl (fun grid entry => grid.place entry.1 entry.2.shape) grid).shapeOf? id =
      some entity.shape := by
  induction entries generalizing grid with
  | nil => exact placed.resolve_left List.not_mem_nil
  | cons entry rest ih =>
      rw [List.foldl_cons]
      refine ih (fun later member => same later (List.mem_cons_of_mem _ member)) ?_
      rw [Grid.shapeOf?_place]
      by_cases isIt : entry.1 = id
      · rw [if_pos isIt, same entry List.mem_cons_self isIt]
        exact Or.inr rfl
      · rw [if_neg isIt]
        exact placed.imp_left fun member =>
          (List.mem_cons.mp member).resolve_left fun equal => isIt equal.symm

theorem IsKept.isCurrent_syncGrid (kept : world.IsKept) (numbered : world.places ≤ 4294967296) :
    world.syncGrid.IsCurrent := by
  intro id
  change world.syncGrid.grid.shapeOf? id = (world.get? id).map Entity.shape
  cases found : world.get? id with
  | none =>
      have tracked := (world.remains_syncGrid.kept numbered kept).indexed id
      change (world.syncGrid.grid.shapeOf? id).isSome = (world.get? id).isSome at tracked
      rw [found, Option.isSome_none, Option.isSome_eq_false_iff] at tracked
      exact Option.isNone_iff_eq_none.mp tracked
  | some entity =>
      refine shapeOf?_foldl_place _ (fun entry member isIt => ?_) (Or.inl ?_)
      · have held : world.entities.get? entry.1 = some entry.2 :=
          Roster.get?_of_mem_entries numbered member
        rw [isIt] at held
        exact Option.some.inj (held.symm.trans found)
      · exact List.mem_map_of_mem (f := (·.1)) ((kept.sound.mem_entries numbered).mpr found)

theorem IsCurrent.clearDirty (current : world.IsCurrent) : world.clearDirty.IsCurrent := by
  intro id
  rw [get?_clearDirty, Option.map_map]
  exact current id

end World

end Overworld
