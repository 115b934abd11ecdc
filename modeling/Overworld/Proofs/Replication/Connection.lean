import Overworld.Proofs.Replication.Turn

set_option autoImplicit false

/-!
A connection and what its client was told. The view, the recorded snapshots and the feed agree from
the welcome on, whether entities leave by a look at the surroundings or by leaving the world.
-/

namespace Overworld

namespace Connection

/-- The client's replicas after `feed`, the recorded snapshots and the view are of the same
entities; `tick` is the tick of the world. -/
structure IsTold (connection : Connection) (tick : Tick) (feed : List ServerMessage) : Prop where
  conveys : Conveys connection.entity feed connection.observed
  visible_iff : ∀ id,
    id ∈ connection.interest.visible ↔ (connection.observed[id]?).isSome = true
  distinct : connection.interest.visible.Nodup
  foreign : connection.entity ∉ connection.interest.visible
  past : Observed.IsPast connection.observed tick

/-- The parts of a connection that its client's view depends on are the same. -/
def HasSameView (before after : Connection) : Prop :=
  after.entity = before.entity ∧ after.interest.visible = before.interest.visible ∧
    after.observed = before.observed

variable {connection : Connection} {tick : Tick} {feed : List ServerMessage}

theorem IsTold.of_hasSameView (told : connection.IsTold tick feed) {after : Connection}
    (same : connection.HasSameView after) : after.IsTold tick feed := by
  obtain ⟨entity, visible, observed⟩ := same
  refine ⟨?_, ?_, ?_, ?_, ?_⟩
  · rw [entity, observed]
    exact told.conveys
  · rw [visible, observed]
    exact told.visible_iff
  · rw [visible]
    exact told.distinct
  · rw [entity, visible]
    exact told.foreign
  · rw [observed]
    exact told.past

theorem IsTold.later (told : connection.IsTold tick feed) {later : Tick} (order : tick ≤ later) :
    connection.IsTold later feed :=
  { told with past := told.past.mono order }

theorem IsTold.aside (told : connection.IsTold tick feed) {message : ServerMessage}
    (isAside : message.isAside = true) : connection.IsTold tick (feed ++ [message]) :=
  { told with conveys := told.conveys.aside isAside }

theorem isTold_opened (client : ClientId) (endpoint : Endpoint) (entity : EntityId)
    (inputs : SequencerRules) (view : InterestRules) (chunks : StreamRules) (now : Nat) (tick : Tick)
    (spawn : Vec3) :
    (opened client endpoint entity inputs view chunks now).IsTold tick
      [.connectionResponse tick entity spawn] where
  conveys := Conveys.welcome tick entity spawn
  visible_iff id := by simp [opened, Interest.ofRules]
  distinct := List.nodup_nil
  foreign := List.not_mem_nil
  past id snapshot held := by simp [opened] at held

/-- An entity of the view that is gone is taken out of everything at once. -/
theorem IsTold.forget (told : connection.IsTold tick feed) {gone : EntityId}
    (seen : gone ∈ connection.interest.visible) :
    ({ connection with
      interest := connection.interest.forget gone
      observed := connection.observed.erase gone } : Connection).IsTold tick
        (feed ++ [.entityLeft tick gone]) where
  conveys := told.conveys.left tick ((told.visible_iff gone).mp seen)
  visible_iff id := by
    have same := told.visible_iff id
    simp only [Interest.forget, List.mem_filter, same, Std.HashMap.getElem?_erase]
    by_cases isGone : gone = id
    · simp [isGone]
    · have apart : id ≠ gone := fun equal => isGone equal.symm
      simp [isGone, apart]
  distinct := told.distinct.filter _
  foreign member := told.foreign (List.mem_filter.mp member).1
  past := told.past.erase gone

/-- A turn of a client whose entity finds `now` around it. -/
theorem replicate_eq {world : World} {owner : Entity}
    (found : world.get? connection.entity = some owner) (map : TileMap) {now : List EntityId}
    (looked : (connection.interest.update connection.entity owner.motion.position
      world.grid).2.visible = now) :
    ∃ (interest : Interest) (streamer : Streamer) (chunks : List ChunkPosition)
        (updates : List Snapshot),
      interest.visible = now ∧
      updates = (now.filter (!(newIn connection.interest.visible now).contains ·)).filterMap
        (Observed.update? (Observed.shift connection.observed world connection.interest.visible
          now) world) ∧
      (connection.replicate world map).messages =
        (newIn now connection.interest.visible).map (.entityLeft world.tick) ++
          ((newIn connection.interest.visible now).filterMap world.snapshot?).map
            .entityEntered ++
        chunks.map (fun chunk => .chunkData (.ofMap map chunk)) ++
        [.entityUpdate (.ofEntity world.tick connection.entity owner)] ++
        updates.map .entityUpdate ∧
      (connection.replicate world map).connection =
        { connection with
          interest, streamer
          observed := (Observed.shift connection.observed world connection.interest.visible
            now).record updates } := by
  subst looked
  unfold replicate
  rw [found]
  exact ⟨_, _, _, _, rfl, rfl, rfl, rfl⟩

theorem mem_updates {world : World} {observed : Observed} {before now : List EntityId}
    {snapshot : Snapshot}
    (member : snapshot ∈ (now.filter (!(newIn before now).contains ·)).filterMap
      (observed.update? world)) :
    snapshot.entity ∈ now ∧ snapshot.tick = world.tick := by
  obtain ⟨id, remaining, found⟩ := List.mem_filterMap.mp member
  obtain ⟨same, now⟩ := World.entity_of_snapshot? (Observed.of_update?_eq_some found)
  exact ⟨same ▸ (List.mem_filter.mp remaining).1, now⟩

/-- A turn tells of leavers, of states at the tick of the world, and of chunks of the map. -/
theorem cases_of_mem_replicate {world : World} {map : TileMap} {message : ServerMessage}
    (member : message ∈ (connection.replicate world map).messages) :
    (∃ id, message = .entityLeft world.tick id) ∨
    (∃ snapshot : Snapshot, snapshot.tick = world.tick ∧
      (message = .entityEntered snapshot ∨ message = .entityUpdate snapshot)) ∨
    ∃ position, message = .chunkData (.ofMap map position) := by
  cases found : world.get? connection.entity with
  | none =>
      unfold replicate at member
      rw [found] at member
      cases member
  | some owner =>
      obtain ⟨_, _, _, updates, -, isUpdates, replicated, -⟩ :=
        connection.replicate_eq found map rfl
      rw [replicated] at member
      simp only [List.mem_append, List.mem_map, List.mem_singleton] at member
      rcases member with (((⟨id, -, rfl⟩ | ⟨arrival, isNew, rfl⟩) | ⟨position, -, rfl⟩) | rfl) |
        ⟨update, isDue, rfl⟩
      · exact Or.inl ⟨id, rfl⟩
      · obtain ⟨id, -, shown⟩ := List.mem_filterMap.mp isNew
        exact Or.inr (Or.inl ⟨arrival, (World.entity_of_snapshot? shown).2, Or.inl rfl⟩)
      · exact Or.inr (Or.inr ⟨position, rfl⟩)
      · exact Or.inr (Or.inl ⟨_, rfl, Or.inr rfl⟩)
      · rw [isUpdates] at isDue
        exact Or.inr (Or.inl ⟨update, (mem_updates isDue).2, Or.inr rfl⟩)

theorem isWelcome_of_mem_replicate (connection : Connection) (world : World) (map : TileMap) :
    ∀ message ∈ (connection.replicate world map).messages, message.isWelcome = false := by
  intro message member
  rcases cases_of_mem_replicate member with ⟨_, rfl⟩ | ⟨_, -, rfl | rfl⟩ | ⟨_, rfl⟩ <;> rfl

theorem IsTold.replicate {world : World} (told : connection.IsTold world.tick feed)
    (indexed : world.IndexesEntities) (map : TileMap) :
    (connection.replicate world map).connection.IsTold world.tick
      (feed ++ (connection.replicate world map).messages) := by
  cases found : world.get? connection.entity with
  | none =>
      have nothing : connection.replicate world map = .nothing connection := by
        unfold Connection.replicate
        rw [found]
      rw [nothing]
      change connection.IsTold world.tick (feed ++ [])
      rw [List.append_nil]
      exact told
  | some owner =>
      obtain ⟨now, looked⟩ : ∃ now, (connection.interest.update connection.entity
        owner.motion.position world.grid).2.visible = now := ⟨_, rfl⟩
      obtain ⟨interest, streamer, chunks, updates, isNow, due, replicated, isTold⟩ :=
        connection.replicate_eq found map looked
      have distinct : now.Nodup := looked ▸ Interest.nodup_visible_update ..
      have foreign : ∀ id ∈ now, id ≠ connection.entity := by
        rw [← looked]
        exact fun id => Interest.ne_of_mem_visible_update
      have alive : ∀ id ∈ now, (world.get? id).isSome = true := by
        rw [← looked]
        exact fun id member => indexed id (Interest.isSome_shapeOf?_of_mem_visible_update member)
      have updateOf : ∀ snapshot ∈ updates,
          snapshot.entity ∈ now ∧ snapshot.tick = world.tick := by
        rw [due]
        exact fun snapshot => mem_updates
      rw [replicated, isTold]
      have shown := told.conveys.shift told.visible_iff told.distinct distinct foreign alive
      have seen := Observed.isSome_getElem?_shift told.visible_iff alive
      have past : (Observed.shift connection.observed world connection.interest.visible
        now).IsPast world.tick := told.past.shift alive
      refine ⟨?_, ?_, isNow ▸ distinct, fun member => foreign _ (isNow ▸ member) rfl, ?_⟩
      · have framed := (shown.asides (chunks.map fun chunk => .chunkData (.ofMap map chunk))
          (by simp [ServerMessage.isAside])).updateOwn
            (.ofEntity world.tick connection.entity owner) rfl
        have told := framed.updateAll past (fun snapshot member => (updateOf snapshot member).2)
          (fun snapshot member => foreign _ (updateOf snapshot member).1)
          (fun snapshot member => (seen _).mpr (updateOf snapshot member).1)
        simpa using told
      · intro id
        rw [Observed.isSome_getElem?_record, seen, isNow]
        constructor
        · exact Or.inl
        · rintro (member | updated)
          · exact member
          · obtain ⟨snapshot, member, rfl⟩ := List.mem_map.mp updated
            exact (updateOf snapshot member).1
      · exact past.record fun snapshot member => UInt64.le_of_eq (updateOf snapshot member).2

end Connection

end Overworld
