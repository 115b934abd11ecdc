import Mathlib.Data.List.Nodup
import Overworld.Proofs.World.Roster

set_option autoImplicit false

/-!
The marks of a roster tell who is there: each operation keeps them in step with the places, so that
they count the entities, and an id given out is one that found nothing before.
-/

namespace Overworld

/-- Marking one place changes the count by that mark. -/
theorem count_set! {marks : Array Bool} {place : Nat} {was : Bool} (held : marks[place]? = some was)
    (now : Bool) :
    (marks.set! place now).count true + was.toNat = marks.count true + now.toNat := by
  obtain ⟨inside, isWas⟩ := Array.getElem?_eq_some_iff.mp held
  have counted : was = true → 0 < marks.count true := by
    rintro rfl
    exact Array.count_pos_iff.mpr (isWas ▸ Array.getElem_mem inside)
  rw [Array.set!_eq_setIfInBounds, Array.setIfInBounds, dif_pos inside, Array.count_set, isWas]
  cases was <;> cases now <;> simp_all

namespace Roster

variable {α : Type} {roster : Roster α}

structure IsSound (roster : Roster α) : Prop where
  marked : ∀ place : Nat, roster.live[place]? = roster.slots[place]?.map (·.occupant.isSome)
  free : ∀ index ∈ roster.vacant, ∃ generation, roster.slots[index.toNat]? = some ⟨generation, none⟩
  once : roster.vacant.Nodup
  spare : roster.size + roster.vacant.length = roster.slots.size

theorem isSound_empty : (empty : Roster α).IsSound :=
  ⟨fun _ => rfl, fun _ member => absurd member List.not_mem_nil, List.nodup_nil, rfl⟩

theorem IsSound.size_live (sound : roster.IsSound) : roster.live.size = roster.slots.size := by
  have marks := sound.marked roster.live.size
  have places := sound.marked roster.slots.size
  rw [Array.getElem?_eq_none (Nat.le_refl _), eq_comm, Option.map_eq_none_iff,
    Array.getElem?_eq_none_iff] at marks
  rw [Array.getElem?_eq_none (Nat.le_refl roster.slots.size), Option.map_none,
    Array.getElem?_eq_none_iff] at places
  exact Nat.le_antisymm places marks

/-- What is written to a place and its mark alike keeps them in step. -/
theorem IsSound.marked_set (sound : roster.IsSound) (index : Nat) (slot : Slot α) (place : Nat) :
    (roster.live.set! index slot.occupant.isSome)[place]? =
      (roster.slots.set! index slot)[place]?.map (·.occupant.isSome) := by
  rw [Array.set!_eq_setIfInBounds, Array.set!_eq_setIfInBounds, Array.getElem?_setIfInBounds,
    Array.getElem?_setIfInBounds, sound.size_live]
  split
  · split <;> rfl
  · exact sound.marked place

theorem IsSound.size_insert (sound : roster.IsSound) (value : α) :
    (roster.insert value).2.size = roster.size + 1 := by
  obtain atEnd | ⟨index, vacant, slot, isVacant, held, taken⟩ := roster.insert_cases value
  · rw [atEnd]
    exact Array.count_push
  · obtain ⟨generation, empty⟩ := sound.free index (isVacant ▸ List.mem_cons_self)
    have mark : roster.live[index.toNat]? = some false := by
      rw [sound.marked, empty]
      rfl
    rw [taken]
    exact count_set! mark true

theorem IsSound.insert (sound : roster.IsSound) (value : α) : (roster.insert value).2.IsSound := by
  have spare := sound.spare
  have size := sound.size_insert value
  obtain atEnd | ⟨index, vacant, slot, isVacant, held, taken⟩ := roster.insert_cases value
  · rw [atEnd] at size ⊢
    refine ⟨fun place => ?_, fun index member => ?_, sound.once, ?_⟩
    · simp only [append, Array.getElem?_push, sound.size_live]
      split
      · rfl
      · exact sound.marked place
    · obtain ⟨generation, empty⟩ := sound.free index member
      obtain ⟨inside, _⟩ := Array.getElem?_eq_some_iff.mp empty
      refine ⟨generation, ?_⟩
      simp only [append, Array.getElem?_push, Nat.ne_of_lt inside, if_false]
      exact empty
    · rw [size, slots_size_append, ← spare]
      exact Nat.add_right_comm ..
  · rw [taken] at size ⊢
    obtain ⟨once, distinct⟩ := List.nodup_cons.mp (isVacant ▸ sound.once)
    refine ⟨sound.marked_set index.toNat ⟨slot.generation, some value⟩, fun other member => ?_,
      distinct, ?_⟩
    · have apart : index.toNat ≠ other.toNat := fun same =>
        once (UInt32.toNat_inj.mp same ▸ member)
      obtain ⟨generation, empty⟩ := sound.free other (isVacant ▸ List.mem_cons_of_mem _ member)
      refine ⟨generation, ?_⟩
      rw [Array.set!_eq_setIfInBounds, Array.getElem?_setIfInBounds, if_neg apart]
      exact empty
    · rw [isVacant, List.length_cons] at spare
      rw [size, Array.set!_eq_setIfInBounds, Array.size_setIfInBounds, ← spare]
      exact Nat.add_right_comm ..

/-- A newcomer takes a place at the end only when all others are occupied. -/
theorem IsSound.slots_size_insert_le (sound : roster.IsSound) (value : α) :
    (roster.insert value).2.slots.size ≤ max roster.slots.size (roster.size + 1) := by
  have spare := sound.spare
  cases vacant : roster.vacant with
  | nil =>
      rw [vacant, List.length_nil] at spare
      obtain same | more := roster.slots_size_insert value <;> omega
  | cons index rest =>
      obtain ⟨generation, empty⟩ := sound.free index (vacant ▸ List.mem_cons_self)
      unfold Roster.insert
      rw [vacant]
      dsimp only
      rw [empty]
      dsimp only
      rw [Array.set!_eq_setIfInBounds, Array.size_setIfInBounds]
      exact Nat.le_max_left ..

/-- The id of a newcomer found nothing before. -/
theorem IsSound.get?_fst_insert (sound : roster.IsSound) (value : α)
    (numbered : (roster.insert value).2.slots.size ≤ 4294967296) :
    roster.get? (roster.insert value).1 = none := by
  obtain atEnd | ⟨index, vacant, slot, isVacant, held, taken⟩ := roster.insert_cases value
  · rw [atEnd, slots_size_append] at numbered
    rw [atEnd]
    exact roster.get?_fst_append numbered value
  · obtain ⟨generation, empty⟩ := sound.free index (isVacant ▸ List.mem_cons_self)
    rw [taken]
    simp [get?, empty]

/-- Whoever is there stays when another comes. -/
theorem IsSound.get?_insert_of_some (sound : roster.IsSound) (value : α) {id : EntityId}
    {occupant : α} (found : roster.get? id = some occupant) :
    (roster.insert value).2.get? id = some occupant := by
  have held := get?_eq_some_iff.mp found
  obtain ⟨inside, _⟩ := Array.getElem?_eq_some_iff.mp held
  refine get?_eq_some_iff.mpr ?_
  obtain atEnd | ⟨index, vacant, slot, isVacant, -, taken⟩ := roster.insert_cases value
  · rw [atEnd]
    simp only [append, Array.getElem?_push, Nat.ne_of_lt inside, if_false]
    exact held
  · have apart : index.toNat ≠ id.index.toNat := by
      intro same
      obtain ⟨generation, empty⟩ := sound.free index (isVacant ▸ List.mem_cons_self)
      rw [same, held] at empty
      cases empty
    rw [taken, Array.set!_eq_setIfInBounds, Array.getElem?_setIfInBounds, if_neg apart]
    exact held

theorem remove_cases {after : Roster α} {id : EntityId} {value : α}
    (removed : roster.remove id = some (value, after)) :
    roster.slots[id.index.toNat]? = some ⟨id.generation, some value⟩ ∧
      after = {
        slots := roster.slots.set! id.index.toNat ⟨id.generation + 1, none⟩
        vacant := id.index :: roster.vacant
        live := roster.live.set! id.index.toNat false } := by
  unfold remove at removed
  split at removed
  · cases removed
  · rename_i found
    cases removed
    exact ⟨get?_eq_some_iff.mp found, rfl⟩

theorem IsSound.size_remove (sound : roster.IsSound) {after : Roster α} {id : EntityId} {value : α}
    (removed : roster.remove id = some (value, after)) : after.size + 1 = roster.size := by
  obtain ⟨held, rfl⟩ := remove_cases removed
  have mark : roster.live[id.index.toNat]? = some true := by
    rw [sound.marked, held]
    rfl
  exact count_set! mark false

theorem IsSound.remove (sound : roster.IsSound) {after : Roster α} {id : EntityId} {value : α}
    (removed : roster.remove id = some (value, after)) : after.IsSound := by
  have size := sound.size_remove removed
  have places := slots_size_remove removed
  obtain ⟨held, rfl⟩ := remove_cases removed
  obtain ⟨inside, _⟩ := Array.getElem?_eq_some_iff.mp held
  have occupied : id.index ∉ roster.vacant := by
    intro member
    obtain ⟨generation, empty⟩ := sound.free id.index member
    rw [held] at empty
    cases empty
  refine ⟨sound.marked_set id.index.toNat ⟨id.generation + 1, none⟩, fun index member => ?_,
    List.nodup_cons.mpr ⟨occupied, sound.once⟩, ?_⟩
  · rw [Array.set!_eq_setIfInBounds, Array.getElem?_setIfInBounds]
    obtain rfl | member := List.mem_cons.mp member
    · exact ⟨id.generation + 1, by rw [if_pos rfl, if_pos inside]⟩
    · have apart : id.index.toNat ≠ index.toNat := fun same =>
        occupied (UInt32.toNat_inj.mp same ▸ member)
      rw [if_neg apart]
      exact sound.free index member
  · rw [places, ← sound.spare, ← size]
    exact Nat.add_right_comm _ roster.vacant.length 1

theorem size_modify (roster : Roster α) (id : EntityId) (change : α → α) :
    (roster.modify id change).size = roster.size := by
  unfold modify
  split <;> rfl

theorem IsSound.modify (sound : roster.IsSound) (id : EntityId) (change : α → α) :
    (roster.modify id change).IsSound := by
  unfold Roster.modify
  split
  · exact sound
  · rename_i value found
    have held := get?_eq_some_iff.mp found
    have mark : roster.live[id.index.toNat]? = some true := by
      rw [sound.marked, held]
      rfl
    have unmarked : roster.live.set! id.index.toNat true = roster.live := by
      apply Array.ext_getElem?
      intro place
      rw [Array.set!_eq_setIfInBounds, Array.getElem?_setIfInBounds]
      split
      · rename_i same
        rw [← same, mark, if_pos (Array.getElem?_eq_some_iff.mp mark).1]
      · rfl
    refine ⟨fun place => ?_, fun index member => ?_, sound.once, ?_⟩
    · have written := sound.marked_set id.index.toNat ⟨id.generation, some (change value)⟩ place
      rw [Option.isSome_some, unmarked] at written
      exact written
    · obtain ⟨generation, empty⟩ := sound.free index member
      refine ⟨generation, ?_⟩
      rw [Array.set!_eq_setIfInBounds, Array.getElem?_setIfInBounds]
      split
      · rename_i same
        rw [← same, held] at empty
        cases empty
      · exact empty
    · rw [Array.set!_eq_setIfInBounds, Array.size_setIfInBounds]
      exact sound.spare

theorem IsSound.mapEntities (sound : roster.IsSound) (change : EntityId → α → α) :
    (roster.mapEntities change).IsSound := by
  refine ⟨fun place => ?_, fun index member => ?_, sound.once, ?_⟩
  · simp only [Roster.mapEntities, Array.getElem?_mapIdx, Option.map_map]
    rw [sound.marked]
    congr 1
    funext slot
    exact Option.isSome_map.symm
  · obtain ⟨generation, empty⟩ := sound.free index member
    refine ⟨generation, ?_⟩
    simp only [Roster.mapEntities, Array.getElem?_mapIdx]
    rw [empty]
    rfl
  · rw [slots_size_mapEntities]
    exact sound.spare

theorem entry?_eq_some_iff (sound : roster.IsSound) {place : Nat} {entry : EntityId × α} :
    roster.entry? place = some entry ↔
      ∃ slot, roster.slots[place]? = some slot ∧ slot.occupant = some entry.2 ∧
        entry.1 = ⟨place.toUInt32, slot.generation⟩ := by
  obtain ⟨id, value⟩ := entry
  unfold entry?
  rw [sound.marked]
  cases held : roster.slots[place]? with
  | none => simp
  | some slot =>
      obtain ⟨generation, _ | occupant⟩ := slot <;> simp [and_comm, eq_comm]

theorem IsSound.mem_entries (sound : roster.IsSound) (numbered : roster.slots.size ≤ 4294967296)
    {id : EntityId} {value : α} :
    (id, value) ∈ roster.entries ↔ roster.get? id = some value := by
  refine ⟨get?_of_mem_entries numbered, fun found => ?_⟩
  have held := get?_eq_some_iff.mp found
  obtain ⟨inside, _⟩ := Array.getElem?_eq_some_iff.mp held
  refine List.mem_filterMap.mpr ⟨id.index.toNat, ?_, ?_⟩
  · rw [List.mem_range, sound.size_live]
    exact inside
  · refine (entry?_eq_some_iff sound).mpr ⟨_, held, rfl, ?_⟩
    simp

theorem IsSound.mem_ids (sound : roster.IsSound) (numbered : roster.slots.size ≤ 4294967296)
    {id : EntityId} : id ∈ roster.ids ↔ (roster.get? id).isSome = true := by
  unfold ids
  rw [List.mem_map, Option.isSome_iff_exists]
  constructor
  · rintro ⟨⟨_, value⟩, member, rfl⟩
    exact ⟨value, (sound.mem_entries numbered).mp member⟩
  · rintro ⟨value, found⟩
    exact ⟨(id, value), (sound.mem_entries numbered).mpr found, rfl⟩

theorem IsSound.nodup_ids (sound : roster.IsSound) (numbered : roster.slots.size ≤ 4294967296) :
    roster.ids.Nodup := by
  unfold ids entries
  rw [List.map_filterMap]
  refine List.Nodup.filterMap ?_ List.nodup_range
  intro place other id here there
  obtain ⟨entry, found, rfl⟩ := Option.map_eq_some_iff.mp here
  obtain ⟨twin, alsoFound, same⟩ := Option.map_eq_some_iff.mp there
  obtain ⟨slot, held, -, isHere⟩ := (entry?_eq_some_iff sound).mp found
  obtain ⟨otherSlot, alsoHeld, -, isThere⟩ := (entry?_eq_some_iff sound).mp alsoFound
  obtain ⟨inside, _⟩ := Array.getElem?_eq_some_iff.mp held
  obtain ⟨alsoInside, _⟩ := Array.getElem?_eq_some_iff.mp alsoHeld
  rw [isHere, isThere, EntityId.mk.injEq] at same
  have numbers := congrArg UInt32.toNat same.1
  rw [UInt32.toNat_ofNat_of_lt' (Nat.lt_of_lt_of_le inside numbered),
    UInt32.toNat_ofNat_of_lt' (Nat.lt_of_lt_of_le alsoInside numbered)] at numbers
  exact numbers.symm

theorem IsSound.length_ids (sound : roster.IsSound) : roster.ids.length = roster.size := by
  have marks : roster.live.toList = (List.range roster.live.size).map fun place =>
      (roster.entry? place).isSome := by
    refine List.ext_getElem (by simp) fun place inside _ => ?_
    have held : roster.live[place]? = some roster.live[place] := Array.getElem?_eq_getElem inside
    rw [Array.getElem_toList, List.getElem_map, List.getElem_range]
    rw [sound.marked] at held
    obtain ⟨⟨generation, occupant⟩, isHere, mark⟩ := Option.map_eq_some_iff.mp held
    unfold entry?
    rw [sound.marked, isHere, ← mark]
    cases occupant <;> rfl
  rw [ids, List.length_map, entries, List.length_filterMap_eq_countP, size, ← Array.count_toList,
    marks, List.count, List.countP_map]
  congr 1
  funext place
  simp

/-- The generation of a place, and whether someone is there. -/
def tenancy? (roster : Roster α) (place : Nat) : Option (UInt32 × Bool) :=
  roster.slots[place]?.map fun slot => (slot.generation, slot.occupant.isSome)

theorem isSome_get?_iff {id : EntityId} :
    (roster.get? id).isSome = true ↔
      roster.tenancy? id.index.toNat = some (id.generation, true) := by
  unfold get? tenancy?
  cases roster.slots[id.index.toNat]? with
  | none => simp
  | some slot =>
      obtain ⟨generation, _ | occupant⟩ := slot <;> by_cases same : generation = id.generation <;>
        simp [same]

/-- What is written to a place is its tenancy from then on. -/
theorem tenancy?_set {after : Roster α} {index : UInt32} {slot : Slot α}
    (inside : index.toNat < roster.slots.size)
    (written : after.slots = roster.slots.set! index.toNat slot) (place : Nat) :
    after.tenancy? place =
      if place = index.toNat then some (slot.generation, slot.occupant.isSome)
      else roster.tenancy? place := by
  unfold tenancy?
  rw [written, Array.set!_eq_setIfInBounds, Array.getElem?_setIfInBounds]
  by_cases here : place = index.toNat
  · rw [if_pos here, if_pos here.symm, if_pos inside]
    rfl
  · rw [if_neg here, if_neg fun same => here same.symm]

/-- A newcomer takes a place at the end, or one that stands vacant under its generation. -/
theorem IsSound.tenancy?_newcomer (sound : roster.IsSound) (value : α)
    (numbered : (roster.insert value).2.slots.size ≤ 4294967296) :
    (roster.tenancy? (roster.insert value).1.index.toNat = none ∧
        (roster.insert value).1 = ⟨roster.slots.size.toUInt32, 0⟩ ∧
        (roster.insert value).1.index.toNat = roster.slots.size) ∨
      roster.tenancy? (roster.insert value).1.index.toNat =
        some ((roster.insert value).1.generation, false) := by
  obtain atEnd | ⟨index, vacant, slot, isVacant, held, taken⟩ := roster.insert_cases value
  · left
    rw [atEnd, slots_size_append] at numbered
    have place : roster.slots.size.toUInt32.toNat = roster.slots.size :=
      UInt32.toNat_ofNat_of_lt' numbered
    rw [atEnd]
    refine ⟨?_, rfl, place⟩
    unfold tenancy? append
    rw [place, Array.getElem?_eq_none (Nat.le_refl _)]
    rfl
  · right
    obtain ⟨generation, empty⟩ := sound.free index (isVacant ▸ List.mem_cons_self)
    rw [held] at empty
    cases empty
    rw [taken, tenancy?, held]
    rfl

theorem tenancy?_insert (value : α)
    (numbered : (roster.insert value).2.slots.size ≤ 4294967296) (place : Nat) :
    (roster.insert value).2.tenancy? place =
      if place = (roster.insert value).1.index.toNat then
        some ((roster.insert value).1.generation, true)
      else roster.tenancy? place := by
  obtain atEnd | ⟨index, vacant, slot, isVacant, held, taken⟩ := roster.insert_cases value
  · rw [atEnd, slots_size_append] at numbered
    have last : roster.slots.size.toUInt32.toNat = roster.slots.size :=
      UInt32.toNat_ofNat_of_lt' numbered
    rw [atEnd]
    unfold tenancy? append
    rw [last, Array.getElem?_push]
    split <;> rfl
  · obtain ⟨inside, _⟩ := Array.getElem?_eq_some_iff.mp held
    rw [taken, tenancy?_set inside rfl]
    rfl

theorem tenancy?_remove {after : Roster α} {id : EntityId} {value : α}
    (removed : roster.remove id = some (value, after)) (place : Nat) :
    after.tenancy? place =
      if place = id.index.toNat then some (id.generation + 1, false)
      else roster.tenancy? place := by
  obtain ⟨held, rfl⟩ := remove_cases removed
  obtain ⟨inside, _⟩ := Array.getElem?_eq_some_iff.mp held
  rw [tenancy?_set inside rfl]
  rfl

theorem tenancy?_modify (roster : Roster α) (id : EntityId) (change : α → α) (place : Nat) :
    (roster.modify id change).tenancy? place = roster.tenancy? place := by
  unfold modify
  split
  · rfl
  · rename_i value found
    rw [tenancy?_set (index_lt_size found) rfl]
    split
    · rename_i here
      rw [here, isSome_get?_iff.mp (Option.isSome_of_eq_some found)]
      rfl
    · rfl

theorem tenancy?_mapEntities (roster : Roster α) (change : EntityId → α → α) (place : Nat) :
    (roster.mapEntities change).tenancy? place = roster.tenancy? place := by
  simp only [tenancy?, mapEntities, Array.getElem?_mapIdx, Option.map_map]
  congr 1
  funext slot
  exact congrArg (slot.generation, ·) Option.isSome_map

end Roster

end Overworld
