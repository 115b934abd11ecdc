import Overworld.Roster

set_option autoImplicit false

/-!
How the operations of a roster change what ids find, as long as all its places have numbers of their
own: an id has room for 2^32 of them.
-/

namespace Overworld

namespace Roster

variable {α : Type}

theorem slots_size_append (roster : Roster α) (value : α) :
    (roster.append value).2.slots.size = roster.slots.size + 1 :=
  Array.size_push ..

/-- A newcomer goes to the end, or takes a vacant place under the generation noted there. -/
theorem insert_cases (roster : Roster α) (value : α) :
    roster.insert value = roster.append value ∨
    ∃ index vacant slot, roster.vacant = index :: vacant ∧
      roster.slots[index.toNat]? = some slot ∧
      roster.insert value =
        (⟨index, slot.generation⟩,
          { slots := roster.slots.set! index.toNat { slot with occupant := some value }
            vacant
            live := roster.live.set! index.toNat true }) := by
  unfold insert
  split
  · exact Or.inl rfl
  · rename_i index vacant first
    cases held : roster.slots[index.toNat]? with
    | none => exact Or.inl rfl
    | some slot => exact Or.inr ⟨index, vacant, slot, first, held, rfl⟩

theorem slots_size_insert (roster : Roster α) (value : α) :
    (roster.insert value).2.slots.size = roster.slots.size ∨
      (roster.insert value).2.slots.size = roster.slots.size + 1 := by
  rcases roster.insert_cases value with atEnd | ⟨index, vacant, slot, -, -, taken⟩
  · rw [atEnd, slots_size_append]
    exact Or.inr rfl
  · rw [taken]
    exact Or.inl (Array.size_setIfInBounds ..)

theorem slots_size_modify (roster : Roster α) (id : EntityId) (change : α → α) :
    (roster.modify id change).slots.size = roster.slots.size := by
  unfold modify
  split
  · rfl
  · rw [Array.set!_eq_setIfInBounds, Array.size_setIfInBounds]

theorem slots_size_mapEntities (roster : Roster α) (change : EntityId → α → α) :
    (roster.mapEntities change).slots.size = roster.slots.size :=
  Array.size_mapIdx

theorem slots_size_remove {roster after : Roster α} {id : EntityId} {value : α}
    (removed : roster.remove id = some (value, after)) : after.slots.size = roster.slots.size := by
  unfold remove at removed
  split at removed
  · cases removed
  · cases removed
    rw [Array.set!_eq_setIfInBounds, Array.size_setIfInBounds]

theorem get?_append (roster : Roster α) (value : α) (numbered : roster.slots.size < 4294967296)
    (id : EntityId) :
    (roster.append value).2.get? id =
      if id = (roster.append value).1 then some value else roster.get? id := by
  have place : roster.slots.size.toUInt32.toNat = roster.slots.size :=
    UInt32.toNat_ofNat_of_lt' numbered
  obtain ⟨index, generation⟩ := id
  simp only [append, get?, Array.getElem?_push, EntityId.mk.injEq, ← UInt32.toNat_inj, place]
  by_cases last : index.toNat = roster.slots.size
  · rw [if_pos last, Array.getElem?_eq_none (Nat.le_of_eq last.symm)]
    simp [last, eq_comm]
  · simp [last]

/-- An id other than the newcomer's finds what it found, also where numbers have run out. -/
theorem get?_insert_of_ne (roster : Roster α) (value : α) {id : EntityId}
    (different : id ≠ (roster.insert value).1) :
    (roster.insert value).2.get? id = roster.get? id := by
  obtain ⟨index, generation⟩ := id
  rcases roster.insert_cases value with atEnd | ⟨place, vacant, slot, -, held, taken⟩
  · rw [atEnd] at different ⊢
    simp only [append, get?, Array.getElem?_push]
    by_cases last : index.toNat = roster.slots.size
    · have number : roster.slots.size.toUInt32 = index := by
        rw [← last]
        exact UInt32.ofNat_toNat
      have later : (0 : UInt32) ≠ generation := by
        rintro rfl
        exact different (congrArg (EntityId.mk · 0) number.symm)
      rw [if_pos last, Array.getElem?_eq_none (Nat.le_of_eq last.symm)]
      exact if_neg later
    · rw [if_neg last]
  · obtain ⟨inside, _⟩ := Array.getElem?_eq_some_iff.mp held
    rw [taken] at different ⊢
    rw [get?_set inside rfl]
    by_cases here : index = place
    · subst here
      have other : slot.generation ≠ generation := fun same =>
        different (congrArg (EntityId.mk index) same.symm)
      simp [get?, held, other]
    · rw [if_neg here]

/-- The newcomer is found, and nothing else changes. -/
theorem get?_insert (roster : Roster α) (value : α)
    (numbered : (roster.insert value).2.slots.size ≤ 4294967296) (id : EntityId) :
    (roster.insert value).2.get? id =
      if id = (roster.insert value).1 then some value else roster.get? id := by
  by_cases newcomer : id = (roster.insert value).1
  · rw [if_pos newcomer]
    rcases roster.insert_cases value with atEnd | ⟨index, vacant, slot, -, held, taken⟩
    · rw [atEnd] at newcomer numbered ⊢
      rw [slots_size_append] at numbered
      rw [roster.get?_append value numbered, if_pos newcomer]
    · obtain ⟨inside, _⟩ := Array.getElem?_eq_some_iff.mp held
      rw [taken] at newcomer ⊢
      rw [newcomer, get?_set inside rfl]
      simp
  · rw [if_neg newcomer, roster.get?_insert_of_ne value newcomer]

/-- Where no place is vacant, a newcomer goes to the end. -/
theorem insert_of_full {roster : Roster α} (full : roster.vacant = []) (value : α) :
    roster.insert value = roster.append value := by
  unfold insert
  rw [full]

/-- The id of a newcomer at the end found nothing before. -/
theorem get?_fst_append (roster : Roster α) (numbered : roster.slots.size < 4294967296)
    (value : α) : roster.get? (roster.append value).1 = none := by
  have place : roster.slots.size.toUInt32.toNat = roster.slots.size :=
    UInt32.toNat_ofNat_of_lt' numbered
  have absent : roster.slots[roster.slots.size]? = none := Array.getElem?_eq_none (Nat.le_refl _)
  simp only [append, get?, place, absent]

theorem vacant_modify (roster : Roster α) (id : EntityId) (change : α → α) :
    (roster.modify id change).vacant = roster.vacant := by
  unfold modify
  split <;> rfl

theorem get?_of_mem_entries {roster : Roster α} {id : EntityId} {value : α}
    (numbered : roster.slots.size ≤ 4294967296) (member : (id, value) ∈ roster.entries) :
    roster.get? id = some value := by
  obtain ⟨place, -, found⟩ := List.mem_filterMap.mp member
  unfold entry? at found
  split at found
  · rename_i slot _ held
    obtain ⟨inside, _⟩ := Array.getElem?_eq_some_iff.mp held
    obtain ⟨occupant, lives, same⟩ := Option.map_eq_some_iff.mp found
    cases same
    have number : place.toUInt32.toNat = place :=
      UInt32.toNat_ofNat_of_lt' (Nat.lt_of_lt_of_le inside numbered)
    rw [get?_eq_some_iff, number, held, ← lives]
  · cases found

end Roster

end Overworld
