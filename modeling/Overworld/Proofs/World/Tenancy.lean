import Overworld.Proofs.World.Upkeep

set_option autoImplicit false

/-!
The places of a world over a while. With every departure a place moves to its next generation, and
between two departures someone has to arrive; so as long as not too many arrive, whoever left the
world does not come back under the old id.
-/

namespace Overworld

namespace World

variable {world before middle after : World} {id : EntityId} {arrivals : Nat}

section Spawn

variable {position : Vec3} {halfExtent : Single} {behavior : Behavior}

theorem IsKept.tenancy?_newcomer (kept : world.IsKept)
    (came : world.spawn position halfExtent behavior = (id, after))
    (numbered : after.places ≤ 4294967296) :
    world.tenancy? id.index.toNat = none ∨
      world.tenancy? id.index.toNat = some (id.generation, false) := by
  cases came
  exact (kept.sound.tenancy?_newcomer _ numbered).imp_left (·.1)

theorem tenancy?_spawn (came : world.spawn position halfExtent behavior = (id, after))
    (numbered : after.places ≤ 4294967296) (place : Nat) :
    after.tenancy? place =
      if place = id.index.toNat then some (id.generation, true) else world.tenancy? place := by
  cases came
  exact Roster.tenancy?_insert _ numbered place

end Spawn

theorem tenancy?_despawn {entity : Entity} (gone : world.despawn id = some (entity, after))
    (place : Nat) :
    after.tenancy? place =
      if place = id.index.toNat then some (id.generation + 1, false) else world.tenancy? place :=
  Roster.tenancy?_remove (despawn_cases gone).1 place

/-- Each place of `before` has moved on by so many generations in `after`, at most one for each of
the arrivals and one more while it is vacant, and by none only where whoever was there still is. -/
structure Ages (before after : World) (arrivals : Nat) : Prop where
  aged : ∀ place generation occupied, before.tenancy? place = some (generation, occupied) →
    ∃ (turns : Nat) (now : Bool),
      after.tenancy? place = some (generation + turns.toUInt32, now) ∧
      turns ≤ arrivals + (!now).toNat ∧ (turns = 0 → occupied = true → now = true)

theorem Ages.refl (world : World) : world.Ages world 0 :=
  ⟨fun _ generation occupied held => ⟨0, occupied, by simpa using held, Nat.zero_le _, fun _ => id⟩⟩

theorem Ages.mono (ages : before.Ages after arrivals) {more : Nat} (order : arrivals ≤ more) :
    before.Ages after more := by
  refine ⟨fun place generation occupied held => ?_⟩
  obtain ⟨turns, now, found, bounded, stayed⟩ := ages.aged place generation occupied held
  exact ⟨turns, now, found, Nat.le_trans bounded (Nat.add_le_add_right order _), stayed⟩

theorem Ages.remains (ages : before.Ages middle arrivals) (remains : middle.Remains after) :
    before.Ages after arrivals := by
  refine ⟨fun place generation occupied held => ?_⟩
  rw [remains.tenancy]
  exact ages.aged place generation occupied held

theorem Ages.spawn (ages : before.Ages middle arrivals) (kept : middle.IsKept)
    {position : Vec3} {halfExtent : Single} {behavior : Behavior}
    (came : middle.spawn position halfExtent behavior = (id, after))
    (numbered : after.places ≤ 4294967296) : before.Ages after (arrivals + 1) := by
  refine ⟨fun place generation occupied held => ?_⟩
  obtain ⟨turns, now, found, bounded, stayed⟩ := ages.aged place generation occupied held
  rw [tenancy?_spawn came numbered]
  by_cases here : place = id.index.toNat
  · rw [if_pos here]
    rw [here] at found
    have vacant := (kept.tenancy?_newcomer came numbered).resolve_left (by
      rw [found]
      exact Option.some_ne_none _)
    rw [found] at vacant
    obtain ⟨same, rfl⟩ := Prod.mk.inj (Option.some.inj vacant)
    exact ⟨turns, true, by rw [same], bounded, fun _ _ => rfl⟩
  · rw [if_neg here]
    exact ⟨turns, now, found, by omega, stayed⟩

theorem Ages.despawn (ages : before.Ages middle arrivals) {entity : Entity}
    (gone : middle.despawn id = some (entity, after)) : before.Ages after arrivals := by
  obtain ⟨removed, -⟩ := despawn_cases gone
  obtain ⟨slot, -⟩ := Roster.remove_cases removed
  refine ⟨fun place generation occupied held => ?_⟩
  obtain ⟨turns, now, found, bounded, stayed⟩ := ages.aged place generation occupied held
  rw [tenancy?_despawn gone]
  by_cases here : place = id.index.toNat
  · rw [if_pos here]
    rw [here, tenancy?, slot] at found
    obtain ⟨same, occupiedNow⟩ := Prod.mk.inj (Option.some.inj found)
    cases occupiedNow
    refine ⟨turns + 1, false, ?_, by simpa using bounded, fun never => by omega⟩
    have next : id.generation + 1 = generation + (turns + 1).toUInt32 := by
      change id.generation = _ at same
      rw [same, UInt32.add_assoc]
      congr 1
      exact (UInt32.ofNat_add turns 1).symm
    rw [next]
  · rw [if_neg here]
    exact ⟨turns, now, found, bounded, stayed⟩

/-- Where a place is vacant under its generation, no one was there under it before. -/
theorem Ages.not_before (ages : before.Ages after arrivals) (few : arrivals < 4294967295)
    (vacant : after.tenancy? id.index.toNat = none ∨
      after.tenancy? id.index.toNat = some (id.generation, false)) :
    (before.get? id).isSome = false := by
  rw [← Bool.not_eq_true, isSome_get?_iff]
  intro held
  obtain ⟨turns, now, found, bounded, stayed⟩ := ages.aged _ _ _ held
  rw [found] at vacant
  obtain ⟨same, rfl⟩ := Prod.mk.inj (Option.some.inj (vacant.resolve_left (Option.some_ne_none _)))
  have none : turns = 0 := by
    have number := congrArg UInt32.toNat same
    have room : turns ≤ arrivals + 1 := bounded
    have turned : turns.toUInt32.toNat = turns :=
      UInt32.toNat_ofNat_of_lt' (show turns < 4294967296 by omega)
    have := id.generation.toNat_lt
    rw [UInt32.toNat_add, turned] at number
    omega
  exact Bool.false_ne_true (stayed none rfl)

end World

end Overworld
