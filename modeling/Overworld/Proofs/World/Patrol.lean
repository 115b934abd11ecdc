import Overworld.Proofs.Number.Guarded
import Overworld.Proofs.World.Finiteness

set_option autoImplicit false

/-!
Patrols in closed form. Whatever else is done to a world, a patrol that has taken some steps walks leg
after leg of its period, forth in the first one and back in the second; the count of the ticks of a leg
never exceeds the period.
-/

namespace Overworld

namespace PatrolAxis

/-- The way a patrol sets out. -/
def forth : PatrolAxis → Direction
  | .horizontal => .right
  | .vertical => .down

def back : PatrolAxis → Direction
  | .horizontal => .left
  | .vertical => .up

/-- The way a patrol walks in a leg, counted from the first one. -/
def wayIn (axis : PatrolAxis) (leg : Nat) : Direction :=
  if leg % 2 = 0 then axis.forth else axis.back

end PatrolAxis

namespace Patrol

/-- `advance` in exact arithmetic: the period is looked at first, and then the tick is counted. -/
def guardedAdvance? (walk : Patrol) : Option Patrol := do
  let isOver := walk.period ≤ walk.elapsed
  let counted ← uint32? ((if isOver then 0 else walk.elapsed.toNat) + 1)
  return { walk with elapsed := counted, forward := if isOver then !walk.forward else walk.forward }

/-- A count below the period has a successor. -/
theorem guardedAdvance?_eq (walk : Patrol) : walk.guardedAdvance? = some walk.advance := by
  unfold guardedAdvance? advance
  by_cases isOver : walk.period ≤ walk.elapsed
  · simp only [isOver, if_true]
    rfl
  · have below : walk.elapsed.toNat < walk.period.toNat := by
      simpa [UInt32.le_iff_toNat_le] using isOver
    have most := walk.period.toNat_lt
    have counted : uint32? (walk.elapsed.toNat + 1) = some (walk.elapsed + 1) := by
      rw [uint32?_eq_some_iff, UInt32.toNat_add]
      exact Nat.mod_eq_of_lt (by simp; omega)
    simp only [isOver, if_false, counted]
    rfl

theorem direction_eq (walk : Patrol) :
    walk.direction = if walk.forward then walk.axis.forth else walk.axis.back := by
  unfold direction
  cases walk.axis <;> cases walk.forward <;> rfl

/-- A patrol after so many steps, in legs of so many ticks: its last step was in one of them. -/
structure HasWalked (walk : Patrol) (line : PatrolAxis) (leg steps : Nat) : Prop where
  positive : 0 < leg
  axis : walk.axis = line
  period : walk.period.toNat = leg
  elapsed : walk.elapsed.toNat = if steps = 0 then 0 else (steps - 1) % leg + 1
  forward : walk.forward = decide ((steps - 1) / leg % 2 = 0)

variable {walk : Patrol} {line : PatrolAxis} {leg steps : Nat}

theorem start_hasWalked (axis : PatrolAxis) (period : UInt32) :
    (start axis period).HasWalked axis (max period.toNat 1) 0 where
  positive := by omega
  axis := rfl
  period := toNat_ite_eq_zero period
  elapsed := rfl
  forward := by simp [start]

theorem HasWalked.elapsed_le (walked : walk.HasWalked line leg steps) :
    walk.elapsed.toNat ≤ leg := by
  have inside : (steps - 1) % leg < leg := Nat.mod_lt _ walked.positive
  rw [walked.elapsed]
  split <;> omega

/-- The last tick of a leg is followed by the first one of the next. -/
theorem div_mod_succ_of_last {tick leg : Nat} (last : tick % leg + 1 = leg) :
    (tick + 1) / leg = tick / leg + 1 ∧ (tick + 1) % leg = 0 := by
  have split := Nat.div_add_mod tick leg
  rw [Nat.div_mod_unique (by omega), Nat.mul_add]
  omega

theorem div_mod_succ_of_within {tick leg : Nat} (within : tick % leg + 1 < leg) :
    (tick + 1) / leg = tick / leg ∧ (tick + 1) % leg = tick % leg + 1 := by
  have split := Nat.div_add_mod tick leg
  rw [Nat.div_mod_unique (by omega)]
  omega

theorem HasWalked.advance (walked : walk.HasWalked line leg steps) :
    walk.advance.HasWalked line leg (steps + 1) := by
  have isOver : walk.period ≤ walk.elapsed ↔ leg ≤ walk.elapsed.toNat := by
    rw [UInt32.le_iff_toNat_le, walked.period]
  have inside : (steps - 1) % leg < leg := Nat.mod_lt _ walked.positive
  have elapsed := walked.elapsed
  have forward := walked.forward
  unfold Patrol.advance
  by_cases isPast : leg ≤ walk.elapsed.toNat
  · have later : steps ≠ 0 := by
      intro first
      rw [if_pos first] at elapsed
      have := walked.positive
      omega
    rw [if_neg later] at elapsed
    have last : (steps - 1) % leg + 1 = leg := by omega
    obtain ⟨nextLeg, firstTick⟩ := div_mod_succ_of_last last
    have tick : steps - 1 + 1 = steps := by omega
    rw [tick] at nextLeg firstTick
    rw [if_pos (isOver.mpr isPast)]
    refine ⟨walked.positive, walked.axis, walked.period, ?_, ?_⟩
    · simp [firstTick]
    · simp only [forward, Nat.add_sub_cancel, nextLeg]
      rw [← decide_not, decide_eq_decide]
      omega
  · have counted : (walk.elapsed + 1).toNat = walk.elapsed.toNat + 1 := by
      have most := walk.period.toNat_lt
      have period := walked.period
      rw [UInt32.toNat_add]
      exact Nat.mod_eq_of_lt (by simp; omega)
    rw [if_neg (mt isOver.mp isPast)]
    by_cases first : steps = 0
    · refine ⟨walked.positive, walked.axis, walked.period, ?_, ?_⟩
      · simp [counted, elapsed, first]
      · simp [forward, first]
    · rw [if_neg first] at elapsed
      have within : (steps - 1) % leg + 1 < leg := by omega
      obtain ⟨sameLeg, nextTick⟩ := div_mod_succ_of_within within
      have tick : steps - 1 + 1 = steps := by omega
      rw [tick] at sameLeg nextTick
      refine ⟨walked.positive, walked.axis, walked.period, ?_, ?_⟩
      · simp [counted, elapsed, nextTick]
      · simp [forward, sameLeg]

/-- The step after so many is taken in the leg that they lead to. -/
theorem HasWalked.direction_advance (walked : walk.HasWalked line leg steps) :
    walk.advance.direction = line.wayIn (steps / leg) := by
  have next := walked.advance
  rw [direction_eq, next.axis, next.forward, Nat.add_sub_cancel]
  unfold PatrolAxis.wayIn
  simp

end Patrol

namespace World

variable {world : World} {id : EntityId} {line : PatrolAxis} {leg steps : Nat}

namespace Change

def isStep : Change → Bool
  | .step => true
  | _ => false

end Change

/-- Someone is on patrol and has taken so many steps of it. -/
def Patrols (world : World) (id : EntityId) (line : PatrolAxis) (leg steps : Nat) : Prop :=
  ∃ entity walk, world.get? id = some entity ∧ entity.behavior = .patrol walk ∧
    walk.HasWalked line leg steps

/-- What leaves the behavior of an entity alone leaves its patrol alone. -/
theorem Patrols.of_map {after : World} (patrols : world.Patrols id line leg steps)
    (same : (after.get? id).map (·.behavior) = (world.get? id).map (·.behavior)) :
    after.Patrols id line leg steps := by
  obtain ⟨entity, walk, found, behavior, walked⟩ := patrols
  rw [found] at same
  obtain ⟨now, stands, unchanged⟩ := Option.map_eq_some_iff.mp same
  exact ⟨now, walk, stands, unchanged.trans behavior, walked⟩

theorem Patrols.modify (patrols : world.Patrols id line leg steps) (other : EntityId)
    {change : Entity → Entity} (keeps : ∀ entity, (change entity).behavior = entity.behavior) :
    (world.modify other change).Patrols id line leg steps := by
  apply patrols.of_map
  rw [get?_modify]
  split
  · rename_i isIt
    rw [isIt, Option.map_map]
    exact congrArg (Option.map · (world.get? other)) (funext keeps)
  · rfl

theorem Patrols.step (patrols : world.Patrols id line leg steps) :
    world.step.Patrols id line leg (steps + 1) := by
  obtain ⟨entity, walk, found, behavior, walked⟩ := patrols
  refine ⟨entity.step world.gait world.dt, walk.advance, ?_, ?_, walked.advance⟩
  · rw [get?_step, found]
    rfl
  · simp [Entity.step, Behavior.advance, behavior]

theorem Patrols.apply (patrols : world.Patrols id line leg steps)
    (sound : world.entities.IsSound) {change : Change} (stays : change ≠ .despawn id) :
    (world.apply change).Patrols id line leg (steps + change.isStep.toNat) := by
  cases change with
  | beginTick => exact patrols
  | spawn position finite halfExtent behavior =>
      obtain ⟨entity, walk, found, isPatrol, walked⟩ := patrols
      exact ⟨entity, walk, sound.get?_insert_of_some _ found, isPatrol, walked⟩
  | despawn other =>
      simp only [World.apply]
      cases gone : world.despawn other with
      | none => exact patrols
      | some removed =>
          apply patrols.of_map
          have apart : id ≠ other := fun same => stays (by rw [same])
          change (removed.2.get? id).map _ = _
          rw [get?_despawn gone, if_neg apart]
  | setKeys other keys => exact patrols.modify other fun _ => rfl
  | neutralize other => exact patrols.modify other fun _ => rfl
  | teleport other position =>
      simp only [World.apply]
      cases moved : world.teleport? other position with
      | none => exact patrols
      | some after =>
          obtain ⟨entity, found, -, rfl⟩ := teleport?_cases moved
          apply patrols.of_map
          change ((world.modify other _).get? id).map _ = _
          rw [get?_modify]
          split
          · rename_i isIt
            rw [isIt, found]
            rfl
          · rfl
  | step => exact patrols.step
  | syncGrid => exact patrols
  | clearDirty =>
      apply patrols.of_map
      simp only [World.apply, get?_clearDirty, Option.map_map]
      rfl

/-- A patrol goes on through all changes but the one that takes its entity away, as many steps as
there are among them. -/
theorem Patrols.evolve (patrols : world.Patrols id line leg steps)
    (sound : world.entities.IsSound) {changes : List Change} (stays : Change.despawn id ∉ changes) :
    (world.evolve changes).Patrols id line leg (steps + changes.countP Change.isStep) := by
  induction changes generalizing world steps with
  | nil => exact patrols
  | cons change rest ih =>
      have here : change ≠ .despawn id := fun same => stays (same ▸ List.mem_cons_self)
      have later : Change.despawn id ∉ rest := fun member => stays (List.mem_cons_of_mem _ member)
      have next := ih (patrols.apply sound here) (isSound_apply sound change) later
      have total : steps + (change :: rest).countP Change.isStep =
          steps + change.isStep.toNat + rest.countP Change.isStep := by
        rw [List.countP_cons]
        cases change.isStep <;> simp [Nat.add_comm, Nat.add_left_comm]
      rw [total]
      exact next

/-- A patrol that starts in a world follows its closed form, whatever else is done to the world. The
step after `steps` of them, the first one being step zero, is taken with one key alone, that of the way
of leg `steps / leg`, and moves the entity by it. A leg has as many ticks as the period says, and one
where it says none. The ticks counted in a leg never exceed it, so that to count one more is exact. -/
theorem evolve_patrols_in_legs (grid : Grid) (gait : Gait) (dt : Single) (before : List Change)
    {id : EntityId} {entity : Entity} {axis : PatrolAxis} {period : UInt32}
    (found : ((ofGrid grid gait dt).evolve before).get? id = some entity)
    (starts : entity.behavior = .patrol (.start axis period)) (changes : List Change)
    (stays : Change.despawn id ∉ changes) :
    let world := ((ofGrid grid gait dt).evolve before).evolve changes
    let leg := max period.toNat 1
    let steps := changes.countP Change.isStep
    ∃ now walk next, world.get? id = some now ∧ world.step.get? id = some next ∧
      next.keys = Keys.neutral.press (axis.wayIn (steps / leg)) ∧
      next.motion = now.motion.step next.keys gait dt ∧
      now.behavior = .patrol walk ∧ walk.elapsed.toNat ≤ leg ∧
      walk.guardedAdvance? = some walk.advance := by
  intro world leg steps
  have sound : ((ofGrid grid gait dt).evolve before).entities.IsSound :=
    isSound_evolve Roster.isSound_empty before
  have begins : ((ofGrid grid gait dt).evolve before).Patrols id axis leg 0 :=
    ⟨entity, _, found, starts, Patrol.start_hasWalked axis period⟩
  obtain ⟨now, walk, stands, isPatrol, walked⟩ := begins.evolve sound stays
  obtain ⟨gaitKept, dtKept⟩ := evolve_frame ((ofGrid grid gait dt).evolve before) changes
  obtain ⟨gaitBefore, dtBefore⟩ := evolve_frame (ofGrid grid gait dt) before
  rw [Nat.zero_add] at walked
  refine ⟨now, walk, now.step gait dt, stands, ?_, ?_, rfl, isPatrol, walked.elapsed_le,
    walk.guardedAdvance?_eq⟩
  · have sameGait : world.gait = gait := gaitKept.trans gaitBefore
    have sameDt : world.dt = dt := dtKept.trans dtBefore
    rw [get?_step, stands, sameGait, sameDt]
    rfl
  · rw [← walked.direction_advance]
    simp [Entity.step, Behavior.advance, isPatrol]

/-- A patrol of legs of two ticks, disturbed on its way, takes its third step back. -/
theorem disturbed_patrol_turns_on_time :
    let start := ofGrid (.ofSize .standard) .standard standardStep
    let patrol : Behavior := .patrol (.start .horizontal 2)
    let before : List Change := [.spawn .zero (by decide) .one patrol]
    let id : EntityId := ⟨0, 0⟩
    let changes : List Change :=
      [.step, .setKeys id ⟨1⟩, .teleport id (.planar .one .one), .step, .neutralize id]
    ((start.evolve before).get? id).map (·.behavior) = some patrol ∧
    Change.despawn id ∉ changes ∧
    ((((start.evolve before).evolve changes).step).get? id).map (·.keys) =
      some (Keys.neutral.press .left) := by
  intro start patrol before id changes
  have found : (start.evolve before).get? id = some (.spawned .zero .one patrol) := by decide +kernel
  have stays : Change.despawn id ∉ changes := by simp [changes]
  obtain ⟨now, walk, next, -, after, keys, -⟩ := evolve_patrols_in_legs (.ofSize .standard)
    .standard standardStep before found rfl changes stays
  have way : PatrolAxis.wayIn .horizontal
      (changes.countP Change.isStep / max (UInt32.toNat 2) 1) = .left := by decide
  rw [way] at keys
  refine ⟨by rw [found]; rfl, stays, ?_⟩
  rw [after, Option.map_some, keys]

end World

end Overworld
