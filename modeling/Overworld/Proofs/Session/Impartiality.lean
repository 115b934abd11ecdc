import Overworld.Proofs.Session.Dismissal
import Overworld.Proofs.Session.Exactness

set_option autoImplicit false

/-!
The order in which a tick goes over the clients, pass by pass, is of no account. All that a client can
notice of it is the order in which the entities of several clients leave its view that were given up
in one pass.
-/

namespace Overworld

namespace World

variable {first second : World}

theorem Like.beginTick (like : first.Like second) : first.beginTick.Like second.beginTick :=
  ⟨like.gait, like.dt, congrArg (· + 1) like.tick, like.entities⟩

theorem Like.move (like : first.Like second) : first.step.syncGrid.Like second.step.syncGrid := by
  refine ⟨like.gait, like.dt, like.tick, fun id => ?_⟩
  change first.step.get? id = second.step.get? id
  rw [get?_step, get?_step, like.entities, like.gait, like.dt]

theorem Like.clearDirty (like : first.Like second) : first.clearDirty.Like second.clearDirty := by
  refine ⟨like.gait, like.dt, like.tick, fun id => ?_⟩
  rw [get?_clearDirty, get?_clearDirty, like.entities]

end World

namespace Session

variable {first second : Session} {settings : Settings} {client : ClientId}

/-- The sessions have entities that are the same and connections that nothing could tell apart but
the layout of a table. -/
structure Akin (first second : Session) : Prop where
  settings : first.settings = second.settings
  map : first.map = second.map
  world : first.world.Like second.world
  connections : ∀ client,
    Option.Rel Connection.Like (first.connection? client) (second.connection? client)

theorem rel_map {one two : Option Connection} {change other : Connection → Connection}
    (related : Option.Rel Connection.Like one two)
    (kept : ∀ connection twin, connection.Like twin → (change connection).Like (other twin)) :
    Option.Rel Connection.Like (one.map change) (two.map other) := by
  cases related with
  | none => exact .none
  | some like => exact .some (kept _ _ like)

/-- Whoever is in one of the sessions has a twin in the other. -/
theorem Akin.exists_twin (akin : first.Akin second) {connection : Connection}
    (found : first.connection? client = some connection) :
    ∃ twin, second.connection? client = some twin ∧ connection.Like twin := by
  have related := akin.connections client
  rw [found] at related
  generalize second.connection? client = other at related ⊢
  cases related with
  | some like => exact ⟨_, rfl, like⟩

theorem Akin.entityOf? (akin : first.Akin second) (client : ClientId) :
    first.entityOf? client = second.entityOf? client := by
  have related := akin.connections client
  unfold Session.entityOf?
  generalize first.connection? client = one at related ⊢
  generalize second.connection? client = two at related ⊢
  cases related with
  | none => rfl
  | some like =>
      obtain ⟨table, rfl, -⟩ := like
      rfl

theorem Akin.isConnected (akin : first.Akin second) (client : ClientId) :
    first.isConnected client = second.isConnected client := by
  have same := congrArg Option.isSome (akin.entityOf? client)
  rw [isConnected_eq, isConnected_eq]
  simpa [Session.entityOf?] using same

theorem Akin.onWorld (akin : first.Akin second) {change : World → World}
    (like : (change first.world).Like (change second.world)) :
    (first.onWorld change).Akin (second.onWorld change) :=
  ⟨akin.settings, akin.map, like, akin.connections⟩

theorem Akin.recordLevels (akin : first.Akin second) :
    first.recordLevels.Akin second.recordLevels := by
  unfold Session.recordLevels
  dsimp only
  -- left as they are, the counts would be computed to see that nothing here reads them
  generalize Metrics.set _ .connectionsActive _ = metrics
  generalize Metrics.set _ .connectionsActive _ = others
  exact ⟨akin.settings, akin.map, akin.world, akin.connections⟩

theorem owns_leavers (signed : first.IsSigned) {visiting : Visiting} {now : Nat}
    {leaver : Connection} (isLeaver : leaver ∈ first.leavers visiting now) :
    first.entityOf? leaver.client = some leaver.entity :=
  congrArg _ ((mem_leavers signed).mp isLeaver).1

theorem departed_leavers (signed : first.IsSigned) (visiting : Visiting) (now : Nat) :
    ((first.leavers visiting now).map (·.client)).filterMap first.entityOf? =
      (first.leavers visiting now).map (·.entity) := by
  rw [List.filterMap_map, ← List.filterMap_eq_map]
  exact List.filterMap_congr fun leaver isLeaver => owns_leavers signed isLeaver

theorem givesUp_dropSilent (signed : first.IsSigned) (visiting : Visiting) (now : Nat) :
    first.GivesUp (first.dropSilent visiting now) []
      ((first.leavers visiting now).map (·.client)) := by
  rw [dropSilent_eq]
  exact givesUp_dismiss_foldl visiting now (nodup_leavers signed visiting now) first

theorem connection?_dropSilent (signed : first.IsSigned) (visiting : Visiting) (now : Nat)
    (client : ClientId) :
    (first.dropSilent visiting now).connection? client =
      if client ∈ (first.leavers visiting now).map (·.client) then none
      else (first.connection? client).map
        (·.loseAll ((first.leavers visiting now).map (·.entity))) := by
  rw [dropSilent_eq]
  exact connection?_dismiss_foldl visiting now (nodup_leavers signed visiting now) first
    (fun _ => owns_leavers signed) client

theorem Alike.akin_dropSilent (alike : first.Alike second) (signed : first.IsSigned)
    (one two : Visiting) (now : Nat) :
    (first.dropSilent one now).Akin (second.dropSilent two now) := by
  have alsoSigned := signed.of_same fun client => (alike.connections client).symm
  have perm := alike.leavers_perm one two now
  have follows := first.follows_dropSilent one now
  have alsoFollows := second.follows_dropSilent two now
  have gone := givesUp_dropSilent signed one now
  have alsoGone := givesUp_dropSilent alsoSigned two now
  refine ⟨?_, ?_, ⟨?_, ?_, ?_, fun id => ?_⟩, fun client => ?_⟩
  · rw [follows.settings, alsoFollows.settings, alike.settings]
  · rw [follows.map, alsoFollows.map, alike.map]
  · rw [follows.gait, alsoFollows.gait, alike.world]
  · rw [follows.dt, alsoFollows.dt, alike.world]
  · exact (gone.tick.trans alike.tick).trans alsoGone.tick.symm
  · rw [gone.world, alsoGone.world, departed_leavers signed, departed_leavers alsoSigned, alike.world]
    simp only [(perm.map (·.entity)).mem_iff]
  · rw [connection?_dropSilent signed, connection?_dropSilent alsoSigned, alike.connections]
    simp only [(perm.map (·.client)).mem_iff]
    split
    · exact .none
    · cases second.connection? client with
      | none => exact .none
      | some connection =>
          exact .some ((Connection.Like.refl connection).loseAll_of_perm (perm.map (·.entity)))

/-- Who stays is told of those who went that it saw. -/
theorem letters_dropSilent (signed : first.IsSigned) (visiting : Visiting) (now : Nat)
    (stays : (first.dropSilent visiting now).isConnected client = true) :
    dispatchesTo client (first.dropSilent visiting now).outbound.toList =
      dispatchesTo client first.outbound.toList ++
        farewells first.tick (first.sees client)
          ((first.leavers visiting now).map (·.entity)) := by
  have stayed : client ∉ (first.leavers visiting now).map (·.client) := by
    intro isLeaver
    rw [isConnected_eq, connection?_dropSilent signed, if_pos isLeaver] at stays
    cases stays
  rw [← departed_leavers signed]
  exact (givesUp_dropSilent signed visiting now).told client stayed

theorem CensusHolds.nodup_departed (census : first.CensusHolds settings) (signed : first.IsSigned)
    (visiting : Visiting) (now : Nat) : ((first.leavers visiting now).map (·.entity)).Nodup := by
  have once := nodup_leavers signed visiting now
  refine ((List.pairwise_map.mp once).imp_of_mem ?_).map _ fun _ _ => id
  intro leaver other isLeaver isOther apart same
  refine apart (census.own _ _ leaver.entity (owns_leavers signed isLeaver) ?_)
  rw [owns_leavers signed isOther, same]

end Session

/-- Those who went in one pass leave a view in the order of the pass. -/
theorem farewells_perm {tick : Tick} {saw : EntityId → Bool} {departed others : List EntityId}
    (once : departed.Nodup) (perm : departed.Perm others) :
    (farewells tick saw departed).Perm (farewells tick saw others) := by
  unfold farewells
  rw [eraseDups_of_nodup once, eraseDups_of_nodup (perm.nodup_iff.mp once)]
  exact (perm.filter _).map _

namespace Session

variable {first second : Session} {settings : Settings} {client : ClientId}

theorem outbound_releaseInputs (session : Session) (visiting : Visiting) :
    (session.releaseInputs visiting).outbound = session.outbound := by
  refine List.foldlRecOn (motive := fun later : Session => later.outbound = session.outbound) _ _ rfl
    fun later same client _ => ?_
  rw [← same]
  unfold releaseFor
  split <;> rfl

theorem Akin.releaseInputs (akin : first.Akin second)
    (apart : ∀ client other id, first.entityOf? client = some id →
      first.entityOf? other = some id → client = other) (one two : Visiting) :
    (first.releaseInputs one).Akin (second.releaseInputs two) := by
  have follows := first.follows_releaseInputs one
  have alsoFollows := second.follows_releaseInputs two
  have tick : first.tick = second.tick := akin.world.tick
  refine ⟨?_, ?_, ⟨?_, ?_, ?_, fun id => ?_⟩, fun client => ?_⟩
  · rw [follows.settings, alsoFollows.settings, akin.settings]
  · rw [follows.map, alsoFollows.map, akin.map]
  · rw [follows.gait, alsoFollows.gait, akin.world.gait]
  · rw [follows.dt, alsoFollows.dt, akin.world.dt]
  · exact ((first.tick_releaseInputs one).trans tick).trans (second.tick_releaseInputs two).symm
  · by_cases owned : ∃ client, first.entityOf? client = some id
    · obtain ⟨client, isOwner⟩ := owned
      obtain ⟨connection, found, rfl⟩ := Option.map_eq_some_iff.mp isOwner
      obtain ⟨_, alsoFound, table, rfl, -⟩ := akin.exists_twin found
      have alsoApart : ∀ client other id, second.entityOf? client = some id →
          second.entityOf? other = some id → client = other := by
        intro client other id
        rw [← akin.entityOf?, ← akin.entityOf?]
        exact apart client other id
      have handed := get?_releaseInputs two alsoApart alsoFound
      rw [get?_releaseInputs one apart found, akin.world.entities, tick]
      exact handed.symm
    · have foreign : ∀ client, first.entityOf? client ≠ some id := fun client isOwner =>
        owned ⟨client, isOwner⟩
      rw [get?_releaseInputs_of_ne one foreign, akin.world.entities,
        get?_releaseInputs_of_ne two fun client => akin.entityOf? client ▸ foreign client]
  · rw [connection?_releaseInputs, connection?_releaseInputs, tick]
    refine rel_map (akin.connections client) fun connection twin like => ?_
    obtain ⟨table, rfl, same⟩ := like
    exact ⟨table, rfl, same⟩

theorem Akin.replicate (akin : first.Akin second)
    (areas : ∀ area : Area,
      first.world.grid.query (.rect area.rect) = second.world.grid.query (.rect area.rect))
    (one two : Visiting) : (first.replicate one).Akin (second.replicate two) := by
  have follows := first.follows_replicate one
  have alsoFollows := second.follows_replicate two
  refine ⟨?_, ?_, ?_, fun client => ?_⟩
  · rw [follows.settings, alsoFollows.settings, akin.settings]
  · rw [follows.map, alsoFollows.map, akin.map]
  · rw [world_replicate, world_replicate]
    exact akin.world
  · rw [connection?_replicate, connection?_replicate, akin.map]
    exact rel_map (akin.connections client) fun _ _ like => like.informed akin.world areas _

theorem dispatchesTo_replicateFor (session : Session) {connection : Connection}
    (found : session.connection? client = some connection) (other : ClientId) :
    dispatchesTo client (session.replicateFor other).outbound.toList =
      dispatchesTo client session.outbound.toList ++
        if other = client then
          (connection.replicate session.world session.map).messages.map .message else [] := by
  cases held : session.connection? other with
  | none =>
      have different : other ≠ client := by
        rintro rfl
        rw [found] at held
        cases held
      unfold replicateFor
      rw [held, if_neg different, List.append_nil]
  | some turned =>
      rw [(frame_replicateFor held).2, dispatchesTo_append, dispatchesTo_messages]
      by_cases isClient : other = client
      · subst isClient
        rw [found] at held
        cases held
        rfl
      · rw [if_neg isClient, if_neg isClient]

/-- Each client is told what concerns it in its own turn. -/
theorem dispatchesTo_replicateFor_foldl {clients : List ClientId} (once : clients.Nodup)
    (session : Session) {connection : Connection}
    (found : session.connection? client = some connection) :
    dispatchesTo client (clients.foldl replicateFor session).outbound.toList =
      dispatchesTo client session.outbound.toList ++
        if client ∈ clients then
          (connection.replicate session.world session.map).messages.map .message else [] := by
  induction clients generalizing session connection with
  | nil => simp
  | cons other rest ih =>
      obtain ⟨single, distinct⟩ := List.nodup_cons.mp once
      have kept := session.connection?_replicateFor other client
      rw [List.foldl_cons]
      by_cases isClient : other = client
      · subst isClient
        rw [if_pos rfl, found] at kept
        rw [ih distinct _ kept, dispatchesTo_replicateFor session found, if_pos rfl, if_neg single,
          if_pos List.mem_cons_self, List.append_nil]
      · have different : client ≠ other := fun same => isClient same.symm
        rw [if_neg isClient, found] at kept
        rw [ih distinct _ kept, dispatchesTo_replicateFor session found, if_neg isClient,
          List.append_nil, world_replicateFor, map_replicateFor]
        simp [different]

theorem dispatchesTo_replicate (session : Session) (visiting : Visiting) {connection : Connection}
    (found : session.connection? client = some connection) :
    dispatchesTo client (session.replicate visiting).outbound.toList =
      dispatchesTo client session.outbound.toList ++
        (connection.replicate session.world session.map).messages.map .message := by
  have isIn : client ∈ visiting.order .replicate session.clients := by
    rw [mem_order, isConnected_eq, found]
    rfl
  unfold Session.replicate
  rw [dispatchesTo_replicateFor_foldl (session.nodup_order visiting .replicate) session found,
    if_pos isIn]

/-- A tick takes the same places in whatever order it goes. -/
theorem places_moved_le (session : Session) (one two : Visiting) (now : Nat) :
    (session.moved two now).world.places ≤ (session.moved one now).world.places := by
  rw [(session.rests_moved two now).world.places, (session.rests_moved one now).world.places]
  calc ((session.handleAll two now).dropSilent two now).world.places
      ≤ (session.handleAll two now).world.places :=
        ((session.handleAll two now).follows_dropSilent two now).places
    _ = (session.handleAll one now).world.places :=
        congrArg World.places (session.alike_handleAll two one now).world
    _ ≤ ((session.handleAll one now).dropSilent one now).world.places :=
        @Lasts.dropSilent (session.handleAll one now) _ 0 (lasts_places _) (Nat.le_refl _) one now

variable {session : Session}

theorem KeepsCensus.akin_moved (keeps : session.KeepsCensus settings) (signed : session.IsSigned)
    (one two : Visiting) (now : Nat)
    (numbered : (session.moved one now).world.places ≤ 4294967296) :
    (session.moved one now).Akin (session.moved two now) := by
  have present := (session.alike_handleAll one two now).akin_dropSilent
    (signed.handleAll one now) one two now
  have census := keeps.present one now (by
    rwa [← (session.rests_moved one now).world.places])
  have begun := present.onWorld present.world.beginTick
  have ready := begun.releaseInputs census.own one two
  exact ready.onWorld ready.world.move

theorem KeepsCensus.areas_moved (keeps : session.KeepsCensus settings) (signed : session.IsSigned)
    (one two : Visiting) (now : Nat)
    (numbered : (session.moved one now).world.places ≤ 4294967296) (area : Area) :
    (session.moved one now).world.grid.query (.rect area.rect) =
      (session.moved two now).world.grid.query (.rect area.rect) := by
  have alsoNumbered := Nat.le_trans (session.places_moved_le one two now) numbered
  exact (keeps.akin_moved signed one two now numbered).world.query
    (keeps.moved one now numbered).kept (keeps.isCurrent_moved one now numbered)
    (keeps.moved two now alsoNumbered).kept (keeps.isCurrent_moved two now alsoNumbered) area

theorem KeepsCensus.akin_runTick (keeps : session.KeepsCensus settings) (signed : session.IsSigned)
    (one two : Visiting) (now : Nat)
    (numbered : (session.moved one now).world.places ≤ 4294967296) :
    (session.runTick one now).Akin (session.runTick two now) := by
  have moved := keeps.akin_moved signed one two now numbered
  have told := moved.replicate (keeps.areas_moved signed one two now numbered) one two
  rw [runTick_eq, runTick_eq]
  exact (told.onWorld told.world.clearDirty).recordLevels

/-- Who is in after a tick was told what happened in the events, who of those it saw was given up for
silence, and what its own turn says. -/
theorem letters_runTick (signed : session.IsSigned) (visiting : Visiting) (now : Nat)
    {connection : Connection}
    (found : (session.moved visiting now).connection? client = some connection) :
    dispatchesTo client (session.runTick visiting now).outbound.toList =
      dispatchesTo client (session.handleAll visiting now).outbound.toList ++
        farewells session.tick ((session.handleAll visiting now).sees client)
          (((session.handleAll visiting now).leavers visiting now).map (·.entity)) ++
        (connection.replicate (session.moved visiting now).world
          (session.moved visiting now).map).1.map .message := by
  have stays : ((session.handleAll visiting now).dropSilent visiting now).isConnected client =
      true := by
    have moved := session.connection?_moved visiting now client
    rw [found] at moved
    rw [isConnected_eq, ← Option.isSome_map, ← moved]
    rfl
  have present := letters_dropSilent (signed.handleAll visiting now) visiting now stays
  rw [tick_handleAll] at present
  have kept : (session.moved visiting now).outbound =
      ((session.handleAll visiting now).dropSilent visiting now).outbound :=
    outbound_releaseInputs _ visiting
  have told := dispatchesTo_replicate (session.moved visiting now) visiting found
  rw [kept, present] at told
  exact told

namespace Chronicle

/-- In whatever orders the passes of a tick go over the clients, in every state that a session can come
to and whatever events are waiting: the same clients are in afterwards, every entity is the same, and
the connections differ in the layout of a table at most. Who is in was sent the same letters in the
same order, but that it may have been told in another order of those who were given up for silence in
this tick that their entities are gone. -/
theorem run_tick_in_any_order (settings : Settings) (map : TileMap) (actions : List Action)
    (one two : Visiting) (now : Nat)
    (numbered : (run settings map (actions ++ [.tick one now])).session.world.places ≤ 4294967296) :
    let session := (run settings map actions).session
    let first := session.runTick one now
    let second := session.runTick two now
    (∀ client, first.isConnected client = second.isConnected client) ∧
    (∀ id, first.world.get? id = second.world.get? id) ∧
    (∀ client connection twin, first.connection? client = some connection →
      second.connection? client = some twin →
        ∃ observed : Observed, twin = { connection with observed } ∧
          ∀ id : EntityId, connection.observed[id]? = observed[id]?) ∧
    ∀ client, first.isConnected client = true → ∃ before leaves others after,
      dispatchesTo client first.outbound.toList = before ++ leaves ++ after ∧
      dispatchesTo client second.outbound.toList = before ++ others ++ after ∧
      leaves.Perm others ∧
      ∀ letter ∈ leaves, ∃ gone leaver,
        (session.handleAll one now).connection? gone = some leaver ∧
          leaver.isTimedOut now settings.timeoutUs = true ∧
          letter = .message (.entityLeft session.tick leaver.entity) := by
  intro session first second
  have ended : (run settings map (actions ++ [.tick one now])).session = first := by
    rw [run_append]
    rfl
  rw [ended, (session.stays_told one now).world.places] at numbered
  have keeps : session.KeepsCensus settings := run_keepsCensus settings map actions
  have signed : session.IsSigned := run_isSigned settings map actions
  have akin : first.Akin second := keeps.akin_runTick signed one two now numbered
  have alike := session.alike_handleAll one two now
  refine ⟨akin.isConnected, akin.world.entities, fun client connection twin found alsoFound => ?_,
    fun client isIn => ?_⟩
  · obtain ⟨other, isOther, table, same, tables⟩ := akin.exists_twin found
    rw [alsoFound] at isOther
    cases isOther
    exact ⟨table, same, fun id => tables.getElem?_eq⟩
  · have handledSigned := signed.handleAll one now
    obtain ⟨told, isTold⟩ := Option.isSome_iff_exists.mp (isConnected_eq first client ▸ isIn)
    obtain ⟨connection, found, -⟩ :=
      Option.map_eq_some_iff.mp ((session.connection?_runTick one now client).symm.trans isTold)
    have moved := keeps.akin_moved signed one two now numbered
    have areas := keeps.areas_moved signed one two now numbered
    obtain ⟨twin, alsoFound, like⟩ := moved.exists_twin found
    have messages := (like.replicate moved.world areas (session.moved one now).map).1
    have letters := letters_runTick signed one now found
    have alsoLetters := letters_runTick signed two now alsoFound
    rw [← alike.letters, ← alike.sees, ← moved.map, ← messages] at alsoLetters
    have numberedPresent := numbered
    rw [(session.rests_moved one now).world.places] at numberedPresent
    have numberedHandled := Nat.le_trans (@Lasts.dropSilent (session.handleAll one now) _ 0
      (lasts_places _) (Nat.le_refl _) one now) numberedPresent
    have census := @Lasts.handleAll session _ 0 lasts_keepsCensus keeps one now numberedHandled
    refine ⟨_, _, _, _, letters, alsoLetters, ?_, fun letter member => ?_⟩
    · exact farewells_perm (census.nodup_departed handledSigned one now)
        ((alike.leavers_perm one two now).map (·.entity))
    · obtain ⟨id, isGone, rfl⟩ := List.mem_map.mp member
      obtain ⟨leaver, isLeaver, rfl⟩ :=
        List.mem_map.mp (List.mem_eraseDups.mp (List.mem_filter.mp isGone).1)
      obtain ⟨held, silent⟩ := (mem_leavers handledSigned).mp isLeaver
      exact ⟨leaver.client, leaver, held, census.governed ▸ silent, rfl⟩

/-- Clients by descending number. -/
def descending : Visiting := ⟨fun _ clients => clients.reverse, fun _ clients => clients.reverse_perm⟩

/-- Two clients that join in one tick are in after it, where there is room for both. -/
theorem isConnected_both (settings : Settings) (map : TileMap) (room : 1 < settings.maxConnections)
    {one two : ClientId} (apart : one ≠ two) (endpoint other : Endpoint) (visiting : Visiting)
    {client : ClientId} (isEither : client = one ∨ client = two) :
    (run settings map [.submit ⟨one, .connected endpoint, 0⟩, .submit ⟨two, .connected other, 0⟩,
      .tick visiting 0]).session.isConnected client = true := by
  obtain ⟨begun, isBegun⟩ : ∃ begun : Session, begun = { ofSettings settings map with
    inbox := .ofCapacity Inbox.standardCapacity } := ⟨_, rfl⟩
  have governed : begun.settings = settings := by rw [isBegun]; rfl
  have empty : begun.connections = ∅ := by rw [isBegun]; rfl
  have absent : ∀ client, begun.connection? client = none := by
    intro client
    unfold connection?
    rw [empty, Std.HashMap.getElem?_empty]
  have free : begun.isConnected one = false := by
    rw [isConnected_eq, absent]
    rfl
  have roomForOne : begun.connections.size < begun.settings.maxConnections := by
    rw [empty, Std.HashMap.size_empty, governed]
    omega
  obtain ⟨_, members⟩ := connection?_connect endpoint 0 free roomForOne
  have freeStill : (begun.connect one endpoint 0).isConnected two = false := by
    rw [isConnected_eq, members, if_neg apart, absent]
    rfl
  have roomForTwo : (begun.connect one endpoint 0).connections.size <
      (begun.connect one endpoint 0).settings.maxConnections := by
    have alone : (begun.connect one endpoint 0).connections.size ≤ [one].length := by
      refine size_le_of_members fun other isIn => ?_
      by_cases isOne : one = other
      · exact List.mem_singleton.mpr isOne.symm
      · rw [isConnected_eq, members, if_neg isOne, absent] at isIn
        cases isIn
    rw [(begun.follows_connect one endpoint 0).settings, governed]
    exact Nat.lt_of_le_of_lt alone room
  obtain ⟨_, alsoMembers⟩ := connection?_connect other 0 freeStill roomForTwo
  have handled : ({ ofSettings settings map with
      inbox := ⟨.atLeastOne Inbox.standardCapacity, [⟨one, .connected endpoint, 0⟩,
        ⟨two, .connected other, 0⟩], true⟩ } : Session).handleAll visiting 0 =
      (begun.connect one endpoint 0).connect two other 0 := by
    rw [isBegun]
    rfl
  change (Session.runTick visiting 0 { ofSettings settings map with
    inbox := ⟨.atLeastOne Inbox.standardCapacity, [⟨one, .connected endpoint, 0⟩,
      ⟨two, .connected other, 0⟩], true⟩ }).isConnected client = true
  rw [isConnected_runTick, handled, dropSilent_zero, isConnected_eq, alsoMembers]
  rcases isEither with rfl | rfl
  · rw [if_neg apart.symm, members, if_pos rfl]
    rfl
  · rw [if_pos rfl]
    rfl

/-- A session of standard settings over a map without tiles, and two clients that are about to join
it. -/
def twoClients : List Action :=
  [.submit ⟨⟨0⟩, .connected (.v6 (.replicate 8 0) 0 4000), 0⟩,
    .submit ⟨⟨1⟩, .connected (.v6 (.replicate 8 0) 0 4001), 0⟩]

/-- Both are in after the tick in which they join, whichever of them each pass comes to first, and
their entities are the same. -/
theorem two_clients_in_either_order :
    let session := (run .standard ⟨16, fun _ => []⟩ twoClients).session
    descending.order .replicate [⟨0⟩, ⟨1⟩] = [⟨1⟩, ⟨0⟩] ∧
    (∀ client : ClientId, client = ⟨0⟩ ∨ client = ⟨1⟩ →
      (session.runTick .ascending 0).isConnected client = true ∧
      (session.runTick descending 0).isConnected client = true) ∧
    ∀ id, (session.runTick .ascending 0).world.get? id =
      (session.runTick descending 0).world.get? id := by
  intro session
  obtain ⟨members, entities, -, -⟩ := run_tick_in_any_order .standard ⟨16, fun _ => []⟩ twoClients
    .ascending descending 0 (Nat.le_trans (places_run_le ..) (by decide))
  refine ⟨rfl, fun client isEither => ?_, entities⟩
  have isIn : (session.runTick .ascending 0).isConnected client = true :=
    isConnected_both .standard _ (by decide) (by decide) _ _ .ascending isEither
  exact ⟨isIn, (members client).symm.trans isIn⟩

end Chronicle

end Session

end Overworld
