import Overworld.Proofs.Number.Lengths
import Overworld.Proofs.Replication.Connection
import Overworld.Proofs.World.Finiteness

set_option autoImplicit false

/-!
What a connection remembers of the entities in view: for each of them the last snapshot that was
sent. It stays until the entity is looked at and has changed, is marked or is new in view; so what is
remembered is either what is, or not far from it.
-/

namespace Overworld

namespace Snapshot

def isFinite (snapshot : Snapshot) : Bool :=
  snapshot.position.isFinite && snapshot.velocity.isFinite

/-- Two snapshots that an observer need not tell apart. -/
structure Resembles (first second : Snapshot) : Prop where
  keys : first.keys = second.keys
  position : first.position.planarDistance second.position ≤ positionTolerance
  velocity : first.velocity.planarDistance second.velocity ≤ velocityTolerance
  height : first.position.z.sameValue second.position.z = true

variable {first second : Snapshot}

theorem z_isFinite {v : Vec3} (finite : v.isFinite = true) : v.z.isFinite = true :=
  (Bool.and_eq_true_iff.mp finite).2

theorem resembles_self (finite : first.isFinite = true) : first.Resembles first := by
  obtain ⟨position, velocity⟩ := Bool.and_eq_true_iff.mp finite
  refine ⟨rfl, ?_, ?_, ?_⟩
  · rw [Vec3.planarDistance_self position]
    decide
  · rw [Vec3.planarDistance_self velocity]
    decide
  · simp [Single.sameValue, Single.isNaN_of_isFinite (z_isFinite position)]

/-- Between finite snapshots every difference that counts is found. -/
theorem resembles_of_not_differs (finite : first.isFinite = true) (also : second.isFinite = true)
    (same : first.differs second = false) : first.Resembles second := by
  obtain ⟨position, velocity⟩ := Bool.and_eq_true_iff.mp finite
  obtain ⟨alsoPosition, alsoVelocity⟩ := Bool.and_eq_true_iff.mp also
  simp only [differs, decide_eq_false_iff_not, not_or, not_not, Bool.not_eq_true',
    Bool.not_eq_false] at same
  obtain ⟨keys, near, slow, level⟩ := same
  exact ⟨keys, Single.le_of_not_lt (by decide) (Vec3.isNaN_planarDistance position alsoPosition) near,
    Single.le_of_not_lt (by decide) (Vec3.isNaN_planarDistance velocity alsoVelocity) slow, level⟩

end Snapshot

theorem World.IsFinite.isFinite_snapshot? {world : World} (finite : world.IsFinite) {id : EntityId}
    {snapshot : Snapshot} (found : world.snapshot? id = some snapshot) :
    snapshot.isFinite = true := by
  obtain ⟨entity, isEntity, rfl⟩ := Option.map_eq_some_iff.mp found
  exact Roster.All.get? finite isEntity

namespace Observed

variable {observed : Observed} {world : World}

/-- To record what is overwrites with what is. -/
theorem getElem?_record (observed : Observed) {snapshots : List Snapshot}
    (current : ∀ snapshot ∈ snapshots, world.snapshot? snapshot.entity = some snapshot)
    (id : EntityId) :
    (observed.record snapshots)[id]? =
      if id ∈ snapshots.map (·.entity) then world.snapshot? id else observed[id]? := by
  unfold record
  induction snapshots generalizing observed with
  | nil => simp
  | cons first rest ih =>
      have later : ∀ snapshot ∈ rest, world.snapshot? snapshot.entity = some snapshot :=
        fun snapshot member => current snapshot (List.mem_cons_of_mem _ member)
      rw [List.foldl_cons, ih _ later, Std.HashMap.getElem?_insert]
      by_cases same : first.entity = id
      · simp [← same, current first List.mem_cons_self]
      · have apart : id ≠ first.entity := fun equal => same equal.symm
        simp [same, apart]

theorem current_of_filterMap {ids : List EntityId} {look : EntityId → Option Snapshot}
    (honest : ∀ id snapshot, look id = some snapshot → world.snapshot? id = some snapshot) :
    ∀ snapshot ∈ ids.filterMap look, world.snapshot? snapshot.entity = some snapshot := by
  intro snapshot member
  obtain ⟨id, -, found⟩ := List.mem_filterMap.mp member
  have current := honest id snapshot found
  rw [(World.entity_of_snapshot? current).1]
  exact current

theorem getElem?_shift (observed : Observed) {before now : List EntityId}
    (alive : ∀ id ∈ now, (world.get? id).isSome = true) (id : EntityId) :
    (observed.shift world before now)[id]? =
      if id ∈ newIn before now then world.snapshot? id
      else if id ∈ newIn now before then none else observed[id]? := by
  have arrived : ∀ id ∈ newIn before now, (world.get? id).isSome = true :=
    fun id member => alive id (mem_newIn.mp member).1
  unfold shift
  rw [getElem?_record _ (current_of_filterMap fun _ _ found => found),
    World.map_entity_filterMap_snapshot? arrived, getElem?_forget]

/-- Who is not told of again is not marked, and shows no difference where one is looked for. -/
theorem of_update?_eq_none {id : EntityId} {entity : Entity} {snapshot : Snapshot}
    (found : world.get? id = some entity) (held : observed[id]? = some snapshot)
    (silent : observed.update? world id = none) :
    entity.dirty = false ∧ (world.tick % observationInterval = 0 →
      snapshot.differs (.ofEntity world.tick id entity) = false) := by
  unfold update? at silent
  simp only [found, held, ite_eq_right_iff, reduceCtorEq, imp_false, not_or, not_and,
    Bool.not_eq_true] at silent
  exact silent

end Observed

namespace Connection

/-- Everyone in view is remembered, in a state that is true. -/
structure Remembers (connection : Connection) (isTrue : EntityId → Snapshot → Prop) : Prop where
  complete : ∀ id ∈ connection.interest.visible, (connection.observed[id]?).isSome = true
  honest : ∀ id snapshot, connection.observed[id]? = some snapshot → isTrue id snapshot

variable {connection : Connection} {isTrue : EntityId → Snapshot → Prop} {world : World}
  {owner : Entity}

theorem Remembers.mono (remembers : connection.Remembers isTrue) {also : EntityId → Snapshot → Prop}
    (weaker : ∀ id snapshot, isTrue id snapshot → also id snapshot) : connection.Remembers also :=
  ⟨remembers.complete, fun id snapshot held => weaker id snapshot (remembers.honest id snapshot held)⟩

theorem Remembers.of_hasSameView (remembers : connection.Remembers isTrue) {after : Connection}
    (same : connection.HasSameView after) : after.Remembers isTrue := by
  obtain ⟨-, visible, observed⟩ := same
  refine ⟨?_, ?_⟩
  · rw [visible, observed]
    exact remembers.complete
  · rw [observed]
    exact remembers.honest

theorem remembers_nothing (blank : connection.interest.visible = [])
    (unseen : connection.observed = ∅) : connection.Remembers isTrue := by
  refine ⟨fun id seen => ?_, fun id snapshot held => ?_⟩
  · rw [blank] at seen
    cases seen
  · rw [unseen, Std.HashMap.getElem?_empty] at held
    cases held

theorem Remembers.forget (remembers : connection.Remembers isTrue) (gone : EntityId) :
    ({ connection with
      interest := connection.interest.forget gone
      observed := connection.observed.erase gone } : Connection).Remembers isTrue := by
  refine ⟨fun id seen => ?_, fun id snapshot held => ?_⟩
  · obtain ⟨seen, other⟩ := List.mem_filter.mp seen
    have apart : gone ≠ id := by
      rintro rfl
      simp at other
    change (connection.observed.erase gone)[id]?.isSome = true
    rw [Std.HashMap.getElem?_erase, if_neg (by simpa using apart)]
    exact remembers.complete id seen
  · change (connection.observed.erase gone)[id]? = some snapshot at held
    rw [Std.HashMap.getElem?_erase] at held
    split at held
    · cases held
    · exact remembers.honest id snapshot held

/-- What a look leaves behind, entity by entity. -/
theorem replicate_cases (found : world.get? connection.entity = some owner)
    (indexed : world.IndexesEntities) (map : TileMap) :
    ∃ now : List EntityId, ∃ updates : List Snapshot,
      (connection.replicate world map).connection.interest.visible = now ∧
      (∀ id ∈ now, (world.get? id).isSome = true) ∧
      updates = (now.filter (!(newIn connection.interest.visible now).contains ·)).filterMap
        (Observed.update? (Observed.shift connection.observed world connection.interest.visible
          now) world) ∧
      ∀ id, (connection.replicate world map).connection.observed[id]? =
        if id ∈ updates.map (·.entity) then world.snapshot? id
        else if id ∈ newIn connection.interest.visible now then world.snapshot? id
        else if id ∈ newIn now connection.interest.visible then none
        else connection.observed[id]? := by
  obtain ⟨now, looked⟩ : ∃ now, (connection.interest.update connection.entity
    owner.motion.position world.grid).2.visible = now := ⟨_, rfl⟩
  obtain ⟨interest, streamer, chunks, updates, isNow, due, -, after⟩ :=
    connection.replicate_eq found map looked
  have alive : ∀ id ∈ now, (world.get? id).isSome = true := by
    rw [← looked]
    exact fun id member => indexed id (Interest.isSome_shapeOf?_of_mem_visible_update member)
  have current : ∀ snapshot ∈ updates, world.snapshot? snapshot.entity = some snapshot := by
    rw [due]
    exact Observed.current_of_filterMap fun id snapshot => Observed.of_update?_eq_some
  refine ⟨now, updates, after ▸ isNow, alive, due, fun id => ?_⟩
  rw [after]
  change (Observed.record _ updates)[id]? = _
  rw [Observed.getElem?_record _ current, Observed.getElem?_shift _ alive]

/-- What is remembered after a look was remembered before, or is. -/
theorem observed_replicate (found : world.get? connection.entity = some owner)
    (indexed : world.IndexesEntities) (map : TileMap) {id : EntityId} {snapshot : Snapshot}
    (held : (connection.replicate world map).connection.observed[id]? = some snapshot) :
    world.snapshot? id = some snapshot ∨ connection.observed[id]? = some snapshot := by
  obtain ⟨now, updates, -, -, -, observed⟩ := replicate_cases found indexed map
  rw [observed] at held
  split at held
  · exact Or.inl held
  · split at held
    · exact Or.inl held
    · split at held
      · cases held
      · exact Or.inr held

/-- What is remembered of an entity in view is what is, unless it was in view before, is not marked,
and shows no difference where one was looked for. -/
theorem exists_observed (found : world.get? connection.entity = some owner)
    (indexed : world.IndexesEntities) (map : TileMap)
    (complete : ∀ id ∈ connection.interest.visible, (connection.observed[id]?).isSome = true)
    {id : EntityId}
    (seen : id ∈ (connection.replicate world map).connection.interest.visible) :
    ∃ snapshot entity, (connection.replicate world map).connection.observed[id]? = some snapshot ∧
      world.get? id = some entity ∧
      (snapshot = .ofEntity world.tick id entity ∨
        id ∈ connection.interest.visible ∧ entity.dirty = false ∧
          (world.tick % observationInterval = 0 →
            snapshot.differs (.ofEntity world.tick id entity) = false)) := by
  obtain ⟨now, updates, isNow, alive, due, observed⟩ := replicate_cases found indexed map
  rw [isNow] at seen
  obtain ⟨entity, isEntity⟩ := Option.isSome_iff_exists.mp (alive id seen)
  have current : world.snapshot? id = some (.ofEntity world.tick id entity) :=
    congrArg (Option.map _) isEntity
  rw [observed]
  by_cases updated : id ∈ updates.map (·.entity)
  · exact ⟨_, entity, (if_pos updated).trans current, isEntity, Or.inl rfl⟩
  · rw [if_neg updated]
    by_cases entered : id ∈ newIn connection.interest.visible now
    · exact ⟨_, entity, (if_pos entered).trans current, isEntity, Or.inl rfl⟩
    · have inView : id ∈ connection.interest.visible :=
        not_not.mp fun unseen => entered (mem_newIn.mpr ⟨seen, unseen⟩)
      have stayed : id ∉ newIn now connection.interest.visible :=
        fun left => (mem_newIn.mp left).2 seen
      obtain ⟨snapshot, held⟩ := Option.isSome_iff_exists.mp (complete id inView)
      have shown : (Observed.shift connection.observed world connection.interest.visible
          now)[id]? = some snapshot := by
        rw [Observed.getElem?_shift _ alive, if_neg entered, if_neg stayed, held]
      refine ⟨snapshot, entity, ?_, isEntity, Or.inr ⟨inView, ?_⟩⟩
      · rw [if_neg entered, if_neg stayed, held]
      · refine Observed.of_update?_eq_none isEntity shown ?_
        refine Option.eq_none_iff_forall_ne_some.mpr fun update found => updated ?_
        have remaining : id ∈ now.filter (!(newIn connection.interest.visible now).contains ·) :=
          List.mem_filter.mpr ⟨seen, by simpa using entered⟩
        rw [due]
        refine List.mem_map.mpr ⟨update, List.mem_filterMap.mpr ⟨id, remaining, found⟩, ?_⟩
        exact (World.entity_of_snapshot? (Observed.of_update?_eq_some found)).1

theorem Remembers.replicate (remembers : connection.Remembers isTrue)
    (found : world.get? connection.entity = some owner) (indexed : world.IndexesEntities)
    (map : TileMap) :
    (connection.replicate world map).connection.Remembers fun id snapshot =>
      world.snapshot? id = some snapshot ∨ isTrue id snapshot := by
  refine ⟨fun id seen => ?_, fun id snapshot held => ?_⟩
  · obtain ⟨snapshot, entity, held, -⟩ := exists_observed found indexed map remembers.complete seen
    exact Option.isSome_of_eq_some held
  · exact (observed_replicate found indexed map held).imp_right (remembers.honest id snapshot)

end Connection

end Overworld
