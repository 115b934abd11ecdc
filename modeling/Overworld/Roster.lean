set_option autoImplicit false

/-!
Entities behind ids that never come back. A place that falls vacant is taken again by the next
arrival, most recently vacated first, under a new generation; an id names its place and its
generation, so one kept from an earlier occupant finds nothing.
-/

namespace Overworld

structure EntityId where
  index : UInt32
  generation : UInt32
deriving DecidableEq, Hashable, Inhabited

namespace EntityId

def text (id : EntityId) : String := toString id.index.toNat ++ "v" ++ toString id.generation.toNat

/-- Ids in the order of their places, then of their generations. -/
def precedes (a b : EntityId) : Bool :=
  a.index < b.index || (a.index == b.index && a.generation ≤ b.generation)

def sort (ids : List EntityId) : List EntityId := ids.mergeSort precedes

end EntityId

/-- A place for one entity, and the generation of its next or current occupant. -/
structure Slot (α : Type) where
  generation : UInt32
  occupant : Option α

structure Roster (α : Type) where
  slots : Array (Slot α)
  /-- Vacant places, the most recently vacated first. -/
  vacant : List UInt32
  /-- Marks the occupied places. -/
  live : Array Bool

namespace Roster

variable {α : Type}

def empty : Roster α := ⟨#[], [], #[]⟩

/-- Takes a new place at the end. -/
def append (roster : Roster α) (value : α) : EntityId × Roster α :=
  (⟨roster.slots.size.toUInt32, 0⟩,
    { roster with slots := roster.slots.push ⟨0, some value⟩, live := roster.live.push true })

def insert (roster : Roster α) (value : α) : EntityId × Roster α :=
  match roster.vacant with
  | [] => roster.append value
  | index :: vacant =>
    match roster.slots[index.toNat]? with
    | none => roster.append value
    | some slot =>
      (⟨index, slot.generation⟩,
        { slots := roster.slots.set! index.toNat { slot with occupant := some value }
          vacant
          live := roster.live.set! index.toNat true })

def get? (roster : Roster α) (id : EntityId) : Option α :=
  match roster.slots[id.index.toNat]? with
  | none => none
  | some slot => if slot.generation = id.generation then slot.occupant else none

def contains (roster : Roster α) (id : EntityId) : Bool := (roster.get? id).isSome

/-- Vacates the place of `id` and moves it to its next generation. -/
def remove (roster : Roster α) (id : EntityId) : Option (α × Roster α) :=
  match roster.get? id with
  | none => none
  | some value =>
    some (value,
      { slots := roster.slots.set! id.index.toNat ⟨id.generation + 1, none⟩
        vacant := id.index :: roster.vacant
        live := roster.live.set! id.index.toNat false })

/-- Changes the entity of `id`, where there is one. -/
def modify (roster : Roster α) (id : EntityId) (change : α → α) : Roster α :=
  match roster.get? id with
  | none => roster
  | some value =>
    { roster with slots := roster.slots.set! id.index.toNat ⟨id.generation, some (change value)⟩ }

def size (roster : Roster α) : Nat := roster.live.count true

def isEmpty (roster : Roster α) : Bool := !roster.live.contains true

/-- The entity at a place, if the place is marked as occupied. -/
def entry? (roster : Roster α) (place : Nat) : Option (EntityId × α) :=
  match roster.live[place]?, roster.slots[place]? with
  | some true, some slot => slot.occupant.map fun value => (⟨place.toUInt32, slot.generation⟩, value)
  | _, _ => none

/-- The entities in the order of their places. -/
def entries (roster : Roster α) : List (EntityId × α) :=
  (List.range roster.live.size).filterMap roster.entry?

def ids (roster : Roster α) : List EntityId := roster.entries.map (·.1)

/-- Changes every entity. -/
def mapEntities (roster : Roster α) (change : EntityId → α → α) : Roster α :=
  { roster with
    slots := roster.slots.mapIdx fun place slot =>
      { slot with occupant := slot.occupant.map (change ⟨place.toUInt32, slot.generation⟩) } }

/-- An id finds an entity exactly where its place holds it under the id's generation. -/
theorem get?_eq_some_iff {roster : Roster α} {id : EntityId} {value : α} :
    roster.get? id = some value ↔
      roster.slots[id.index.toNat]? = some ⟨id.generation, some value⟩ := by
  unfold get?
  cases roster.slots[id.index.toNat]? with
  | none => simp
  | some slot =>
    obtain ⟨generation, occupant⟩ := slot
    by_cases same : generation = id.generation <;> simp [same]

theorem index_lt_size {roster : Roster α} {id : EntityId} {value : α}
    (found : roster.get? id = some value) : id.index.toNat < roster.slots.size := by
  obtain ⟨inside, -⟩ := Array.getElem?_eq_some_iff.mp (get?_eq_some_iff.mp found)
  exact inside

/-- What an id finds once the place `index` holds `slot`. -/
theorem get?_set {roster after : Roster α} {index : UInt32} {slot : Slot α}
    (inside : index.toNat < roster.slots.size)
    (written : after.slots = roster.slots.set! index.toNat slot) (id : EntityId) :
    after.get? id =
      if id.index = index then if slot.generation = id.generation then slot.occupant else none
      else roster.get? id := by
  unfold get?
  rw [written, Array.set!_eq_setIfInBounds, Array.getElem?_setIfInBounds]
  by_cases place : id.index = index
  · simp [place, inside]
  · have apart : index.toNat ≠ id.index.toNat := fun same => place (UInt32.toNat_inj.mp same).symm
    simp [place, apart]

theorem get?_modify (roster : Roster α) (id other : EntityId) (change : α → α) :
    (roster.modify id change).get? other =
      if other = id then (roster.get? id).map change else roster.get? other := by
  unfold modify
  split
  · rename_i absent
    split
    · rename_i same
      simp [same, absent]
    · rfl
  · rename_i value found
    rw [get?_set (index_lt_size found) rfl other]
    obtain ⟨index, generation⟩ := id
    obtain ⟨otherIndex, otherGeneration⟩ := other
    have held := get?_eq_some_iff.mp found
    by_cases place : otherIndex = index
    · subst place
      by_cases same : otherGeneration = generation
      · simp [same, found]
      · have different : generation ≠ otherGeneration := fun equal => same equal.symm
        simp [same, different, get?, held]
    · simp [place]

theorem get?_mapEntities (roster : Roster α) (change : EntityId → α → α) (id : EntityId) :
    (roster.mapEntities change).get? id = (roster.get? id).map (change id) := by
  simp only [get?, mapEntities, Array.getElem?_mapIdx]
  cases roster.slots[id.index.toNat]? with
  | none => rfl
  | some slot =>
    obtain ⟨index, generation⟩ := id
    by_cases same : slot.generation = generation
    · subst same
      simp
    · simp [same]

/-- A removed id finds nothing any more, and no other id is affected. -/
theorem get?_remove {roster after : Roster α} {id : EntityId} {value : α}
    (removed : roster.remove id = some (value, after)) (other : EntityId) :
    after.get? other = if other = id then none else roster.get? other := by
  unfold remove at removed
  split at removed
  · simp at removed
  · rename_i held found
    simp only [Option.some.injEq, Prod.mk.injEq] at removed
    obtain ⟨-, rfl⟩ := removed
    rw [get?_set (index_lt_size found) rfl other]
    obtain ⟨index, generation⟩ := id
    obtain ⟨otherIndex, otherGeneration⟩ := other
    have slot := get?_eq_some_iff.mp found
    by_cases place : otherIndex = index
    · subst place
      by_cases same : otherGeneration = generation
      · simp [same]
      · have different : generation ≠ otherGeneration := fun equal => same equal.symm
        simp [same, different, get?, slot]
    · simp [place]

end Roster

end Overworld
