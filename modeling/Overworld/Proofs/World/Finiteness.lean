import Overworld.Proofs.World.Register
import Overworld.Proofs.World.Upkeep

set_option autoImplicit false

/-!
What does not end up in a world: positions and velocities that are no finite numbers, whatever the
gait and the length of a tick are. They come about while an entity is moved, and are refused there
and where it is put elsewhere; no other change of the world writes a motion.
-/

namespace Overworld

namespace Motion

def isFinite (state : Motion) : Bool := state.position.isFinite && state.velocity.isFinite

/-- Where a step leads before it is looked at whether one can be there. -/
def integrated (state : Motion) (keys : Keys) (gait : Gait) (dt : Single) : Motion :=
  let target := keys.heading * gait.maxSpeed
  let toward := state.velocity.moveTowards target (gait.acceleration * dt)
  { position :=
      ⟨state.position.x + toward.x * dt, state.position.y + toward.y * dt, state.position.z⟩
    velocity := .planar toward.x toward.y }

theorem step_eq (state : Motion) (keys : Keys) (gait : Gait) (dt : Single) :
    state.step keys gait dt = if (state.integrated keys gait dt).isFinite then
      state.integrated keys gait dt
    else .atRest state.position :=
  rfl

theorem isFinite_atRest {position : Vec3} (finite : position.isFinite = true) :
    (atRest position).isFinite = true := by
  have still : Vec3.isFinite .zero = true := by decide
  rw [isFinite, Bool.and_eq_true]
  exact ⟨finite, still⟩

theorem isFinite_step {state : Motion} (finite : state.isFinite = true) (keys : Keys) (gait : Gait)
    (dt : Single) : (state.step keys gait dt).isFinite = true := by
  rw [step_eq]
  split
  · assumption
  · exact isFinite_atRest (Bool.and_eq_true_iff.mp finite).1

/-- A step keeps the height and lets no one rise or fall. -/
theorem z_step (state : Motion) (keys : Keys) (gait : Gait) (dt : Single) :
    (state.step keys gait dt).position.z = state.position.z ∧
      (state.step keys gait dt).velocity.z = .zero := by
  rw [step_eq]
  split <;> exact ⟨rfl, rfl⟩

end Motion

namespace Roster

variable {α : Type} {holds also : α → Prop} {roster after : Roster α}

/-- Whoever has a place, also one that no id reaches. -/
def All (holds : α → Prop) (roster : Roster α) : Prop :=
  ∀ (place : Nat) generation value,
    roster.slots[place]? = some ⟨generation, some value⟩ → holds value

theorem all_empty : All holds .empty := fun _ _ _ held => nomatch held

theorem All.get? (all : roster.All holds) {id : EntityId} {value : α}
    (found : roster.get? id = some value) : holds value :=
  all _ _ _ (get?_eq_some_iff.mp found)

theorem All.mem_occupants (all : roster.All holds) {entry : EntityId × α}
    (member : entry ∈ roster.occupants) : holds entry.2 := by
  obtain ⟨place, -, found⟩ := List.mem_filterMap.mp member
  unfold occupant? at found
  split at found
  · cases found
  · rename_i slot held
    obtain ⟨value, occupied, rfl⟩ := Option.map_eq_some_iff.mp found
    obtain ⟨generation, occupant⟩ := slot
    exact all place generation value (occupied ▸ held)

/-- Whoever is in one place of a roster that was written to was there before or was written. -/
theorem All.set (all : roster.All holds) {index : Nat} {slot : Slot α}
    (written : after.slots = roster.slots.set! index slot)
    (new : ∀ value, slot.occupant = some value → holds value) : after.All holds := by
  intro place generation value held
  rw [written, Array.set!_eq_setIfInBounds, Array.getElem?_setIfInBounds] at held
  split at held
  · split at held
    · cases held
      exact new value rfl
    · cases held
  · exact all place generation value held

theorem All.insert (all : roster.All holds) {value : α} (new : holds value) :
    (roster.insert value).2.All holds := by
  have atEnd : (roster.append value).2.All holds := by
    intro place generation other held
    change (roster.slots.push _)[place]? = _ at held
    rw [Array.getElem?_push] at held
    split at held
    · cases held
      exact new
    · exact all place generation other held
  unfold Roster.insert
  split
  · exact atEnd
  · split
    · exact atEnd
    · refine all.set rfl fun other occupied => ?_
      cases occupied
      exact new

theorem All.remove (all : roster.All holds) {id : EntityId} {value : α}
    (removed : roster.remove id = some (value, after)) : after.All holds := by
  obtain ⟨-, rfl⟩ := remove_cases removed
  exact all.set rfl fun _ occupied => nomatch occupied

theorem All.modify (all : roster.All holds) {id : EntityId} {change : α → α}
    (keeps : ∀ value, roster.get? id = some value → holds (change value)) :
    (roster.modify id change).All holds := by
  unfold Roster.modify
  split
  · exact all
  · rename_i value found
    refine all.set rfl fun other occupied => ?_
    cases occupied
    exact keeps value found

theorem All.mapEntities (all : roster.All holds) {change : EntityId → α → α}
    (keeps : ∀ id value, holds value → also (change id value)) :
    (roster.mapEntities change).All also := by
  intro place generation value held
  simp only [Roster.mapEntities, Array.getElem?_mapIdx, Option.map_eq_some_iff] at held
  obtain ⟨⟨generation, occupant⟩, was, isIt⟩ := held
  cases occupant with
  | none => cases isIt
  | some before =>
      cases isIt
      exact keeps _ before (all place generation before was)

end Roster

namespace World

inductive Change
  | beginTick
  /-- A newcomer starts where one can be. -/
  | spawn (position : Vec3) (finite : position.isFinite = true) (halfExtent : Single)
    (behavior : Behavior)
  | despawn (id : EntityId)
  | setKeys (id : EntityId) (keys : Keys)
  | neutralize (id : EntityId)
  /-- An entity is put elsewhere, unless that is refused. -/
  | teleport (id : EntityId) (position : Vec3)
  | step
  | syncGrid
  | clearDirty

def apply (world : World) : Change → World
  | .beginTick => world.beginTick
  | .spawn position _ halfExtent behavior => (world.spawn position halfExtent behavior).2
  | .despawn id => (world.despawn id).elim world (·.2)
  | .setKeys id keys => world.setKeys id keys
  | .neutralize id => world.neutralize id
  | .teleport id position => (world.teleport? id position).getD world
  | .step => world.step
  | .syncGrid => world.syncGrid
  | .clearDirty => world.clearDirty

def evolve (world : World) (changes : List Change) : World := changes.foldl apply world

/-- Entities are somewhere and move somehow. -/
def IsFinite (world : World) : Prop := world.entities.All fun entity => entity.motion.isFinite = true

variable {world after : World} {id : EntityId} {position : Vec3}

theorem isSome_teleport? :
    (world.teleport? id position).isSome = true ↔
      (world.get? id).isSome = true ∧ position.isFinite = true := by
  unfold teleport?
  cases world.get? id with
  | none => simp
  | some entity => cases position.isFinite <;> simp

theorem isFinite_ofGrid (grid : Grid) (gait : Gait) (dt : Single) : (ofGrid grid gait dt).IsFinite :=
  Roster.all_empty

theorem IsFinite.teleport? (finite : world.IsFinite)
    (moved : world.teleport? id position = some after) : after.IsFinite := by
  obtain ⟨entity, -, somewhere, rfl⟩ := teleport?_cases moved
  exact Roster.All.modify finite fun _ _ => Motion.isFinite_atRest somewhere

theorem IsFinite.modify (finite : world.IsFinite) (id : EntityId) {change : Entity → Entity}
    (keeps : ∀ entity, entity.motion.isFinite = true → (change entity).motion.isFinite = true) :
    (world.modify id change).IsFinite :=
  Roster.All.modify finite fun entity found => keeps entity (Roster.All.get? finite found)

theorem IsFinite.apply (finite : world.IsFinite) (change : Change) :
    (world.apply change).IsFinite := by
  cases change with
  | beginTick => exact finite
  | spawn position somewhere halfExtent behavior =>
      exact Roster.All.insert finite (Motion.isFinite_atRest somewhere)
  | despawn id =>
      change ((world.despawn id).elim world (·.2)).IsFinite
      cases gone : world.despawn id with
      | none => exact finite
      | some removed => exact Roster.All.remove finite (despawn_cases gone).1
  | setKeys id keys => exact finite.modify id fun _ still => still
  | neutralize id => exact finite.modify id fun _ still => still
  | teleport id position =>
      change ((world.teleport? id position).getD world).IsFinite
      cases moved : world.teleport? id position with
      | none => exact finite
      | some after => exact finite.teleport? moved
  | step => exact Roster.All.mapEntities finite fun _ _ still => Motion.isFinite_step still ..
  | syncGrid => exact finite
  | clearDirty => exact Roster.All.mapEntities finite fun _ _ still => still

/-- The height of an entity, while it is in the world. -/
def height? (world : World) (id : EntityId) : Option Single :=
  (world.get? id).map (·.motion.position.z)

theorem height?_modify (id other : EntityId) {change : Entity → Entity}
    (keeps : ∀ entity, (change entity).motion.position.z = entity.motion.position.z) :
    (world.modify id change).height? other = world.height? other := by
  unfold height?
  rw [get?_modify]
  split
  · rename_i same
    rw [Option.map_map, same]
    exact congrArg (Option.map · (world.get? id)) (funext keeps)
  · rfl

theorem height?_despawn {entity : Entity} (gone : world.despawn id = some (entity, after))
    (other : EntityId) :
    after.height? other = none ∨ after.height? other = world.height? other := by
  unfold height?
  rw [get?_despawn gone]
  split
  · exact Or.inl rfl
  · exact Or.inr rfl

theorem height?_teleport? (moved : world.teleport? id position = some after) {other : EntityId}
    (different : other ≠ id) : after.height? other = world.height? other := by
  obtain ⟨entity, -, -, rfl⟩ := teleport?_cases moved
  change ((world.modify id _).get? other).map _ = _
  rw [get?_modify, if_neg different]
  rfl

/-- Only who is put elsewhere can be at another height, as long as it is there. -/
theorem height?_apply (sound : world.entities.IsSound) (change : Change)
    (alive : (world.get? id).isSome = true) :
    (world.apply change).height? id = none ∨ (world.apply change).height? id = world.height? id ∨
      ∃ position, change = .teleport id position ∧
        (world.teleport? id position).isSome = true := by
  cases change with
  | beginTick => exact Or.inr (Or.inl rfl)
  | spawn position somewhere halfExtent behavior =>
      obtain ⟨entity, found⟩ := Option.isSome_iff_exists.mp alive
      have still := sound.get?_insert_of_some (.spawned position halfExtent behavior) found
      exact Or.inr (Or.inl (congrArg _ (still.trans found.symm)))
  | despawn other =>
      simp only [apply]
      cases gone : world.despawn other with
      | none => exact Or.inr (Or.inl rfl)
      | some removed => exact (height?_despawn gone id).imp_right Or.inl
  | setKeys other keys => exact Or.inr (Or.inl (height?_modify other id fun _ => rfl))
  | neutralize other => exact Or.inr (Or.inl (height?_modify other id fun _ => rfl))
  | teleport other position =>
      simp only [apply]
      cases moved : world.teleport? other position with
      | none => exact Or.inr (Or.inl rfl)
      | some after =>
          by_cases isIt : other = id
          · exact Or.inr (Or.inr ⟨position, by rw [isIt], by rw [← isIt, moved]; rfl⟩)
          · exact Or.inr (Or.inl (height?_teleport? moved fun same => isIt same.symm))
  | step =>
      refine Or.inr (Or.inl ?_)
      simp only [apply, height?, get?_step, Option.map_map]
      exact congrArg (Option.map · (world.get? id)) (funext fun _ => (Motion.z_step ..).1)
  | syncGrid => exact Or.inr (Or.inl rfl)
  | clearDirty =>
      refine Or.inr (Or.inl ?_)
      simp only [apply, height?, get?_clearDirty, Option.map_map]
      rfl

theorem isSound_apply (sound : world.entities.IsSound) (change : Change) :
    (world.apply change).entities.IsSound := by
  cases change with
  | beginTick => exact sound
  | spawn position somewhere halfExtent behavior => exact sound.insert _
  | despawn id =>
      change ((world.despawn id).elim world (·.2)).entities.IsSound
      cases gone : world.despawn id with
      | none => exact sound
      | some removed => exact sound.remove (despawn_cases gone).1
  | setKeys id keys => exact sound.modify ..
  | neutralize id => exact sound.modify ..
  | teleport id position =>
      change ((world.teleport? id position).getD world).entities.IsSound
      cases moved : world.teleport? id position with
      | none => exact sound
      | some after =>
          obtain ⟨entity, -, -, rfl⟩ := teleport?_cases moved
          exact sound.modify ..
  | step => exact Roster.IsSound.mapEntities sound fun _ entity => entity.step world.gait world.dt
  | syncGrid => exact sound
  | clearDirty =>
      exact Roster.IsSound.mapEntities sound fun _ entity => { entity with dirty := false }

theorem apply_frame (world : World) (change : Change) :
    (world.apply change).gait = world.gait ∧ (world.apply change).dt = world.dt := by
  cases change with
  | despawn id =>
      simp only [apply]
      cases gone : world.despawn id with
      | none => exact ⟨rfl, rfl⟩
      | some removed => exact (despawn_frame gone).2
  | teleport id position =>
      simp only [apply]
      cases moved : world.teleport? id position with
      | none => exact ⟨rfl, rfl⟩
      | some after =>
          obtain ⟨entity, -, -, rfl⟩ := teleport?_cases moved
          exact ⟨rfl, rfl⟩
  | _ => exact ⟨rfl, rfl⟩

theorem evolve_isFinite (finite : world.IsFinite) (changes : List Change) :
    (world.evolve changes).IsFinite := by
  induction changes generalizing world with
  | nil => exact finite
  | cons change rest ih => exact ih (finite.apply change)

theorem isSound_evolve (sound : world.entities.IsSound) (changes : List Change) :
    (world.evolve changes).entities.IsSound := by
  induction changes generalizing world with
  | nil => exact sound
  | cons change rest ih => exact ih (isSound_apply sound change)

theorem evolve_frame (world : World) (changes : List Change) :
    (world.evolve changes).gait = world.gait ∧ (world.evolve changes).dt = world.dt := by
  induction changes generalizing world with
  | nil => exact ⟨rfl, rfl⟩
  | cons change rest ih =>
      obtain ⟨gait, dt⟩ := world.apply_frame change
      exact gait ▸ dt ▸ ih (world.apply change)

/-- Whatever the gait and the length of a tick are, and whatever is done to a world: all entities are
at finite places and move at finite speeds. The height of an entity is another one only after it was
put elsewhere, which is refused for an unknown id and a target that is not finite, and then changes
nothing. In a step no one rises or falls, and whose motion would not be finite stops where it is. -/
theorem evolve_stays_finite (grid : Grid) (gait : Gait) (dt : Single) (changes : List Change) :
    let world := (ofGrid grid gait dt).evolve changes
    (∀ entry ∈ world.entities.occupants,
      entry.2.motion.position.isFinite = true ∧ entry.2.motion.velocity.isFinite = true) ∧
    (∀ id entity, world.get? id = some entity →
      entity.motion.position.isFinite = true ∧ entity.motion.velocity.isFinite = true) ∧
    (∀ change id before now, world.height? id = some before →
      (world.apply change).height? id = some now → now ≠ before →
        ∃ position, change = .teleport id position ∧
          (world.teleport? id position).isSome = true) ∧
    (∀ id position, ((world.teleport? id position).isSome = true ↔
        (world.get? id).isSome = true ∧ position.isFinite = true) ∧
      (world.teleport? id position = none → world.apply (.teleport id position) = world)) ∧
    (∀ entry ∈ world.step.entities.occupants, entry.2.motion.velocity.z = .zero) ∧
    ∀ id entity, world.get? id = some entity →
      ∃ next, world.step.get? id = some next ∧
        (next.behavior, next.keys) = entity.behavior.advance entity.keys ∧
        next.motion = if (entity.motion.integrated next.keys gait dt).isFinite then
          entity.motion.integrated next.keys gait dt
        else .atRest entity.motion.position := by
  intro world
  have finite : world.IsFinite := evolve_isFinite (isFinite_ofGrid grid gait dt) changes
  have sound : world.entities.IsSound := isSound_evolve Roster.isSound_empty changes
  obtain ⟨gaitKept, dtKept⟩ := evolve_frame (ofGrid grid gait dt) changes
  have level : world.step.entities.All fun entity => entity.motion.velocity.z = .zero :=
    Roster.All.mapEntities finite fun _ _ _ => (Motion.z_step ..).2
  refine ⟨fun entry member => ?_, fun id entity found => ?_,
    fun change id before now was is other => ?_,
    fun id position => ⟨isSome_teleport?, fun refused => ?_⟩, fun entry => level.mem_occupants,
    fun id entity found => ?_⟩
  · exact Bool.and_eq_true_iff.mp (Roster.All.mem_occupants finite member)
  · exact Bool.and_eq_true_iff.mp (Roster.All.get? finite found)
  · have alive : (world.get? id).isSome = true := by
      rw [← Option.isSome_map]
      exact Option.isSome_of_eq_some was
    refine ((height?_apply sound change alive).resolve_left ?_).resolve_left fun same => other ?_
    · rw [is]
      exact Option.some_ne_none now
    · exact Option.some.inj (is.symm.trans (same.trans was))
  · simp only [apply, refused]
    rfl
  · refine ⟨entity.step gait dt, ?_, rfl, ?_⟩
    · rw [get?_step, found, gaitKept, dtKept]
      rfl
    · exact Motion.step_eq ..

end World

end Overworld
