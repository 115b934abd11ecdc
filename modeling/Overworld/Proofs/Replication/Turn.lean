import Overworld.Proofs.Grid.Query
import Overworld.Proofs.Replication.Feed
import Overworld.Proofs.World.Index

set_option autoImplicit false

/-!
One turn of replication: what a client is told at the end of a tick keeps its feed, the snapshots
recorded for it and the view in step.
-/

namespace Overworld

namespace Observed

variable {observed : Observed}

theorem getElem?_forget (observed : Observed) (gone : List EntityId) (id : EntityId) :
    (observed.forget gone)[id]? = if id ∈ gone then none else observed[id]? := by
  unfold forget
  induction gone generalizing observed with
  | nil => simp
  | cons first rest ih =>
      rw [List.foldl_cons, ih, Std.HashMap.getElem?_erase]
      by_cases same : first = id
      · simp [same]
      · have apart : id ≠ first := fun equal => same equal.symm
        simp [same, apart]

theorem isSome_getElem?_record (observed : Observed) (snapshots : List Snapshot) (id : EntityId) :
    ((observed.record snapshots)[id]?).isSome = true ↔
      (observed[id]?).isSome = true ∨ id ∈ snapshots.map (·.entity) := by
  unfold record
  induction snapshots generalizing observed with
  | nil => simp
  | cons first rest ih =>
      rw [List.foldl_cons, ih, Std.HashMap.getElem?_insert]
      by_cases same : first.entity = id
      · simp [same]
      · have apart : id ≠ first.entity := fun equal => same equal.symm
        simp [same, apart]

/-- No snapshot is younger than `tick`. -/
def IsPast (observed : Observed) (tick : Tick) : Prop :=
  ∀ (id : EntityId) (snapshot : Snapshot), observed[id]? = some snapshot → snapshot.tick ≤ tick

theorem IsPast.mono {tick later : Tick} (past : observed.IsPast tick) (order : tick ≤ later) :
    observed.IsPast later :=
  fun id snapshot held => UInt64.le_trans (past id snapshot held) order

theorem IsPast.erase {tick : Tick} (past : observed.IsPast tick) (entity : EntityId) :
    Observed.IsPast (observed.erase entity) tick := by
  intro id snapshot held
  rw [Std.HashMap.getElem?_erase] at held
  split at held
  · cases held
  · exact past id snapshot held

theorem IsPast.forget {tick : Tick} (past : observed.IsPast tick) (gone : List EntityId) :
    (observed.forget gone).IsPast tick := by
  intro id snapshot held
  rw [getElem?_forget] at held
  split at held
  · cases held
  · exact past id snapshot held

theorem IsPast.insert {tick : Tick} (past : observed.IsPast tick) {snapshot : Snapshot}
    (bounded : snapshot.tick ≤ tick) :
    Observed.IsPast (observed.insert snapshot.entity snapshot) tick := by
  intro id other held
  rw [Std.HashMap.getElem?_insert] at held
  split at held
  · cases held
    exact bounded
  · exact past id other held

theorem IsPast.record {tick : Tick} (past : observed.IsPast tick) {snapshots : List Snapshot}
    (bounded : ∀ snapshot ∈ snapshots, snapshot.tick ≤ tick) :
    (observed.record snapshots).IsPast tick := by
  unfold Observed.record
  induction snapshots generalizing observed with
  | nil => exact past
  | cons first rest ih =>
      exact ih (past.insert (bounded first List.mem_cons_self))
        (fun snapshot member => bounded snapshot (List.mem_cons_of_mem _ member))

end Observed

namespace Conveys

variable {own : EntityId} {feed : List ServerMessage} {observed : Observed}

theorem asides (conveys : Conveys own feed observed) (messages : List ServerMessage)
    (areAside : ∀ message ∈ messages, message.isAside = true) :
    Conveys own (feed ++ messages) observed := by
  induction messages generalizing feed with
  | nil => simpa using conveys
  | cons first rest ih =>
      have more := ih (conveys.aside (areAside first List.mem_cons_self))
        (fun message member => areAside message (List.mem_cons_of_mem _ member))
      simpa using more

theorem leftAll (conveys : Conveys own feed observed) (tick : Tick) {gone : List EntityId}
    (distinct : gone.Nodup) (seen : ∀ id ∈ gone, (observed[id]?).isSome = true) :
    Conveys own (feed ++ gone.map (.entityLeft tick)) (observed.forget gone) := by
  unfold Observed.forget
  induction gone generalizing feed observed with
  | nil => simpa using conveys
  | cons first rest ih =>
      obtain ⟨once, distinct⟩ := List.nodup_cons.mp distinct
      have more := ih (conveys.left tick (seen first List.mem_cons_self)) distinct (by
        intro id member
        have apart : first ≠ id := fun same => once (same ▸ member)
        rw [Std.HashMap.getElem?_erase, beq_eq_false_iff_ne.mpr apart]
        exact seen id (List.mem_cons_of_mem _ member))
      simpa using more

theorem enteredAll (conveys : Conveys own feed observed) {arrivals : List Snapshot}
    (distinct : (arrivals.map (·.entity)).Nodup)
    (foreign : ∀ snapshot ∈ arrivals, snapshot.entity ≠ own)
    (unseen : ∀ snapshot ∈ arrivals, observed[snapshot.entity]? = none) :
    Conveys own (feed ++ arrivals.map .entityEntered) (observed.record arrivals) := by
  unfold Observed.record
  induction arrivals generalizing feed observed with
  | nil => simpa using conveys
  | cons first rest ih =>
      rw [List.map_cons] at distinct
      obtain ⟨once, distinct⟩ := List.nodup_cons.mp distinct
      have more := ih
        (conveys.entered (foreign first List.mem_cons_self) (unseen first List.mem_cons_self))
        distinct (fun snapshot member => foreign snapshot (List.mem_cons_of_mem _ member)) (by
          intro snapshot member
          have apart : first.entity ≠ snapshot.entity := fun same =>
            once (same ▸ List.mem_map_of_mem member)
          rw [Std.HashMap.getElem?_insert, beq_eq_false_iff_ne.mpr apart]
          exact unseen snapshot (List.mem_cons_of_mem _ member))
      simpa using more

theorem updateAll (conveys : Conveys own feed observed) {tick : Tick} (past : observed.IsPast tick)
    {updates : List Snapshot} (now : ∀ snapshot ∈ updates, snapshot.tick = tick)
    (foreign : ∀ snapshot ∈ updates, snapshot.entity ≠ own)
    (seen : ∀ snapshot ∈ updates, (observed[snapshot.entity]?).isSome = true) :
    Conveys own (feed ++ updates.map .entityUpdate) (observed.record updates) := by
  unfold Observed.record
  induction updates generalizing feed observed with
  | nil => simpa using conveys
  | cons first rest ih =>
      have isNow := now first List.mem_cons_self
      obtain ⟨previous, held⟩ := Option.isSome_iff_exists.mp (seen first List.mem_cons_self)
      have order : previous.tick ≤ first.tick := isNow ▸ past _ previous held
      have more := ih (conveys.update (foreign first List.mem_cons_self) held order)
        (past.insert (UInt64.le_of_eq isNow))
        (fun snapshot member => now snapshot (List.mem_cons_of_mem _ member))
        (fun snapshot member => foreign snapshot (List.mem_cons_of_mem _ member)) (by
          intro snapshot member
          rw [Std.HashMap.getElem?_insert]
          split
          · rfl
          · exact seen snapshot (List.mem_cons_of_mem _ member))
      simpa using more

end Conveys

namespace Interest

/-- What is in view after an update: entities that are placed, but for the owner. -/
theorem visible_update (interest : Interest) (owner : EntityId) (position : Vec3) (grid : Grid) :
    (interest.update owner position grid).2.visible =
      (grid.query (.rect (interest.rules.areaFor position).rect)).filter (· != owner) := rfl

theorem nodup_visible_update (interest : Interest) (owner : EntityId) (position : Vec3)
    (grid : Grid) : (interest.update owner position grid).2.visible.Nodup :=
  (grid.query_nodup _).filter _

theorem ne_of_mem_visible_update {interest : Interest} {owner : EntityId} {position : Vec3}
    {grid : Grid} {id : EntityId}
    (member : id ∈ (interest.update owner position grid).2.visible) : id ≠ owner := by
  rw [visible_update] at member
  simpa using (List.mem_filter.mp member).2

theorem isSome_shapeOf?_of_mem_visible_update {interest : Interest} {owner : EntityId}
    {position : Vec3} {grid : Grid} {id : EntityId}
    (member : id ∈ (interest.update owner position grid).2.visible) :
    (grid.shapeOf? id).isSome = true := by
  rw [visible_update] at member
  exact Grid.isSome_shapeOf?_of_mem_query (List.mem_filter.mp member).1

end Interest

namespace World

theorem entity_of_snapshot? {world : World} {id : EntityId} {snapshot : Snapshot}
    (found : world.snapshot? id = some snapshot) :
    snapshot.entity = id ∧ snapshot.tick = world.tick := by
  obtain ⟨entity, -, rfl⟩ := Option.map_eq_some_iff.mp found
  exact ⟨rfl, rfl⟩

theorem map_entity_filterMap_snapshot? {world : World} {ids : List EntityId}
    (alive : ∀ id ∈ ids, (world.get? id).isSome = true) :
    (ids.filterMap world.snapshot?).map (·.entity) = ids := by
  induction ids with
  | nil => rfl
  | cons first rest ih =>
      obtain ⟨entity, found⟩ := Option.isSome_iff_exists.mp (alive first List.mem_cons_self)
      have shown : world.snapshot? first = some (.ofEntity world.tick first entity) := by
        rw [snapshot?, found]
        rfl
      rw [List.filterMap_cons_some shown, List.map_cons,
        ih fun id member => alive id (List.mem_cons_of_mem _ member)]
      rfl

end World

theorem Observed.of_update?_eq_some {observed : Observed} {world : World} {id : EntityId}
    {snapshot : Snapshot} (due : observed.update? world id = some snapshot) :
    world.snapshot? id = some snapshot := by
  unfold Observed.update? at due
  unfold World.snapshot?
  split at due
  · cases due
  · rename_i entity found
    rw [found, Option.map_some]
    exact (Option.ite_none_right_eq_some.mp due).2

/-- Those of the second view that are not in the first. -/
def newIn (before now : List EntityId) : List EntityId := now.filter (!before.contains ·)

theorem mem_newIn {before now : List EntityId} {id : EntityId} :
    id ∈ newIn before now ↔ id ∈ now ∧ id ∉ before := by
  simp [newIn]

/-- The recorded snapshots once a client was told who left and who came. -/
def Observed.shift (observed : Observed) (world : World) (before now : List EntityId) : Observed :=
  (observed.forget (newIn now before)).record ((newIn before now).filterMap world.snapshot?)

section Shift

variable {own : EntityId} {feed : List ServerMessage} {observed : Observed} {world : World}
  {before now : List EntityId}

theorem mem_arrivals (alive : ∀ id ∈ now, (world.get? id).isSome = true) {snapshot : Snapshot}
    (member : snapshot ∈ (newIn before now).filterMap world.snapshot?) :
    snapshot.entity ∈ newIn before now ∧ snapshot.tick = world.tick := by
  have ids : ((newIn before now).filterMap world.snapshot?).map (·.entity) = newIn before now :=
    World.map_entity_filterMap_snapshot? fun id member => alive id (mem_newIn.mp member).1
  refine ⟨ids ▸ List.mem_map_of_mem member, ?_⟩
  obtain ⟨id, -, found⟩ := List.mem_filterMap.mp member
  exact (World.entity_of_snapshot? found).2

theorem Observed.isSome_getElem?_shift
    (visible_iff : ∀ id, id ∈ before ↔ (observed[id]?).isSome = true)
    (alive : ∀ id ∈ now, (world.get? id).isSome = true) (id : EntityId) :
    ((observed.shift world before now)[id]?).isSome = true ↔ id ∈ now := by
  have was := visible_iff id
  rw [shift, isSome_getElem?_record, getElem?_forget,
    World.map_entity_filterMap_snapshot? fun id member => alive id (mem_newIn.mp member).1]
  by_cases inNow : id ∈ now <;> by_cases inBefore : id ∈ before <;>
    simp_all [mem_newIn]

theorem Observed.IsPast.shift (past : observed.IsPast world.tick)
    (alive : ∀ id ∈ now, (world.get? id).isSome = true) :
    (observed.shift world before now).IsPast world.tick :=
  (past.forget _).record fun _ member => UInt64.le_of_eq (mem_arrivals alive member).2

theorem Conveys.shift (conveys : Conveys own feed observed)
    (visible_iff : ∀ id, id ∈ before ↔ (observed[id]?).isSome = true)
    (distinctBefore : before.Nodup) (distinct : now.Nodup) (foreign : ∀ id ∈ now, id ≠ own)
    (alive : ∀ id ∈ now, (world.get? id).isSome = true) :
    Conveys own
      (feed ++ (newIn now before).map (.entityLeft world.tick) ++
        ((newIn before now).filterMap world.snapshot?).map .entityEntered)
      (observed.shift world before now) := by
  refine (conveys.leftAll world.tick (distinctBefore.filter _) ?_).enteredAll ?_ ?_ ?_
  · exact fun id member => (visible_iff id).mp (mem_newIn.mp member).1
  · rw [World.map_entity_filterMap_snapshot? fun id member => alive id (mem_newIn.mp member).1]
    exact distinct.filter _
  · exact fun snapshot member => foreign _ (mem_newIn.mp (mem_arrivals alive member).1).1
  · intro snapshot member
    have unseen := (mem_newIn.mp (mem_arrivals alive member).1).2
    rw [visible_iff, Bool.not_eq_true, Option.isSome_eq_false_iff,
      Option.isNone_iff_eq_none] at unseen
    rw [Observed.getElem?_forget, unseen, ite_self]

end Shift

end Overworld
