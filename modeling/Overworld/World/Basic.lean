import Overworld.Grid.Index
import Overworld.Motion.History
import Overworld.World.Entity

set_option autoImplicit false

/-!
The authoritative world: its entities, their places in a spatial index, and the number of the last
tick. Only a step and a teleport change positions; the index follows when it is synchronised.
-/

namespace Overworld

structure World where
  entities : Roster Entity
  grid : Grid
  gait : Gait
  dt : Single
  tick : Tick

namespace World

def ofGrid (grid : Grid) (gait : Gait) (dt : Single) : World := ⟨.empty, grid, gait, dt, 0⟩

def beginTick (world : World) : World := { world with tick := world.tick + 1 }

def get? (world : World) (id : EntityId) : Option Entity := world.entities.get? id

def spawn (world : World) (position : Vec3) (halfExtent : Single) (behavior : Behavior) :
    EntityId × World :=
  let entity := Entity.spawned position halfExtent behavior
  let (id, entities) := world.entities.insert entity
  (id, { world with entities, grid := world.grid.place id entity.shape })

def despawn (world : World) (id : EntityId) : Option (Entity × World) :=
  match world.entities.remove id with
  | none => none
  | some (entity, entities) => some (entity, { world with entities, grid := world.grid.remove id })

/-- Changes an entity; an unknown or stale id changes nothing. -/
def modify (world : World) (id : EntityId) (change : Entity → Entity) : World :=
  { world with entities := world.entities.modify id change }

def setKeys (world : World) (id : EntityId) (keys : Keys) : World :=
  world.modify id fun entity => { entity with keys }

/-- Releases all keys, and has the owner told. -/
def neutralize (world : World) (id : EntityId) : World :=
  world.modify id fun entity => { entity with keys := .neutral, dirty := true }

/-- Puts an entity to rest elsewhere, at once also in the index. A target that is not finite and an
unknown id are refused. -/
def teleport? (world : World) (id : EntityId) (position : Vec3) : Option World :=
  match world.get? id with
  | none => none
  | some entity =>
    if position.isFinite then
      let moved := { entity with motion := .atRest position, dirty := true }
      some { world.modify id fun _ => moved with grid := world.grid.place id moved.shape }
    else none

/-- Behavior and movement of every entity, one tick. -/
def step (world : World) : World :=
  { world with
    entities := world.entities.mapEntities fun _ entity => entity.step world.gait world.dt }

/-- Places every entity in the index as it stands. -/
def syncGrid (world : World) : World :=
  { world with
    grid := world.entities.entries.foldl (fun grid (id, entity) => grid.place id entity.shape)
      world.grid }

def clearDirty (world : World) : World :=
  { world with
    entities := world.entities.mapEntities fun _ entity => { entity with dirty := false } }

end World

end Overworld
