import Overworld.Proofs.Session.Members
import Overworld.Proofs.Session.Stillness

set_option autoImplicit false

/-!
What is left when a client has gone: its connection and its entity are no more, and everyone else
sees what it saw, less that entity.
-/

namespace Overworld

theorem Interest.forget_of_unseen {interest : Interest} {gone : EntityId}
    (unseen : gone ∉ interest.visible) : interest.forget gone = interest := by
  have same : interest.visible.filter (· != gone) = interest.visible := by
    refine List.filter_eq_self.mpr fun id member => bne_iff_ne.mpr ?_
    rintro rfl
    exact unseen member
  unfold forget
  rw [same]

theorem Interest.isVisible_forget (interest : Interest) (gone id : EntityId) :
    (interest.forget gone).isVisible id = (interest.isVisible id && id != gone) := by
  rw [Bool.eq_iff_iff]
  simp [Interest.isVisible, Interest.forget]

/-- A connection after an entity has gone: one that saw it forgets it, and is told. -/
def Connection.lose (gone : EntityId) (connection : Connection) : Connection :=
  if connection.interest.isVisible gone then
    { connection with
      interest := connection.interest.forget gone
      observed := connection.observed.erase gone
      messagesSent := connection.messagesSent + 1 }
  else connection

theorem Connection.lose_lose (gone : EntityId) (connection : Connection) :
    (connection.lose gone).lose gone = connection.lose gone := by
  by_cases seen : connection.interest.isVisible gone = true
  · have unseen : (connection.interest.forget gone).isVisible gone = false := by
      simp [Interest.isVisible_forget]
    unfold lose
    rw [if_pos seen]
    simp [unseen]
  · unfold lose
    rw [if_neg seen, if_neg seen]

theorem Connection.entity_lose (gone : EntityId) (connection : Connection) :
    (connection.lose gone).entity = connection.entity := by
  unfold lose
  split <;> rfl

theorem Connection.sequencer_lose (gone : EntityId) (connection : Connection) :
    (connection.lose gone).sequencer = connection.sequencer := by
  unfold lose
  split <;> rfl

theorem Connection.interest_lose (gone : EntityId) (connection : Connection) :
    (connection.lose gone).interest = connection.interest.forget gone := by
  unfold lose
  split
  · rfl
  · rename_i seen
    have unseen : gone ∉ connection.interest.visible := fun member =>
      seen (List.contains_iff_mem.mpr member)
    exact (Interest.forget_of_unseen unseen).symm

namespace Session

variable {session after : Session} {client : ClientId}

def interestOf? (session : Session) (client : ClientId) : Option Interest :=
  (session.connection? client).map (·.interest)

theorem interestOf?_send (session : Session) (client other : ClientId) (message : ServerMessage) :
    (session.send client message).interestOf? other = session.interestOf? other :=
  (session.rests_send client message).interest other

theorem connection?_tellLeft (session : Session) (gone : EntityId) (client other : ClientId) :
    (session.tellLeft gone client).connection? other =
      if client = other then (session.connection? other).map (·.lose gone)
      else session.connection? other := by
  unfold tellLeft
  cases held : session.connection? client with
  | none =>
      by_cases isClient : client = other
      · rw [if_pos isClient, ← isClient, held]
        rfl
      · rw [if_neg isClient]
  | some connection =>
      dsimp only
      by_cases seen : connection.interest.isVisible gone = true
      · rw [if_pos seen, connection?_onMetrics, connection?_send, connection?_modifyConnection]
        by_cases isClient : client = other
        · subst isClient
          simp [held, Connection.lose, seen, Connection.recordSent]
        · simp only [isClient, if_false]
      · rw [if_neg seen]
        by_cases isClient : client = other
        · subst isClient
          simp [held, Connection.lose, seen]
        · rw [if_neg isClient]

theorem connection?_tellLeft_foldl (gone : EntityId) (clients : List ClientId) (session : Session)
    (other : ClientId) :
    (clients.foldl (tellLeft gone) session).connection? other =
      if other ∈ clients then (session.connection? other).map (·.lose gone)
      else session.connection? other := by
  induction clients generalizing session with
  | nil => rfl
  | cons client rest ih =>
      rw [List.foldl_cons, ih, connection?_tellLeft]
      by_cases isClient : client = other
      · subst isClient
        simp [Option.map_map, Function.comp_def, Connection.lose_lose]
      · have apart : other ≠ client := fun same => isClient same.symm
        simp [isClient, apart]

theorem interestOf?_tellLeft (session : Session) (gone : EntityId) (client other : ClientId) :
    (session.tellLeft gone client).interestOf? other =
      if client = other then (session.interestOf? other).map (·.forget gone)
      else session.interestOf? other := by
  rw [interestOf?, connection?_tellLeft, interestOf?]
  split
  · rw [Option.map_map, Option.map_map]
    exact congrArg (Option.map · _) (funext fun _ => Connection.interest_lose ..)
  · rfl

theorem world_tellLeft_foldl (gone : EntityId) (clients : List ClientId) (session : Session) :
    (clients.foldl (tellLeft gone) session).world = session.world := by
  refine List.foldlRecOn (motive := fun later : Session => later.world = session.world) _ _ rfl
    fun later same client _ => ?_
  rw [← same]
  unfold tellLeft
  split
  · rfl
  · split <;> rfl

/-- Who leaves is out, and everyone else has lost its entity, whatever the order they are told in. -/
theorem connection?_disconnect {connection : Connection}
    (found : session.connection? client = some connection) (visiting : Visiting)
    (fault : Option ConnectionFault) (other : ClientId) :
    (session.disconnect visiting client fault).connection? other =
      if client = other then none
      else (session.connection? other).map (·.lose connection.entity) := by
  obtain ⟨parted, told, removed, isParted, isTold, isRemoved, left⟩ :=
    disconnect_cases found visiting fault
  have same : removed.connection? other = told.connection? other := by
    rcases isRemoved with ⟨-, rfl⟩ | ⟨entity, world, -, rfl⟩ <;> rfl
  have remaining : removed.connection? other =
      if client = other then none else session.connection? other := by
    rw [same]
    rcases isTold with ⟨-, rfl⟩ | ⟨reason, -, rfl⟩
    · rw [isParted, connection?_erase]
    · rw [connection?_send, connection?_onMetrics, isParted, connection?_erase]
      by_cases isClient : client = other <;> simp [isClient]
  rw [left, connection?_tellLeft_foldl, remaining]
  by_cases isClient : client = other
  · simp [isClient]
  · rw [if_neg isClient] at remaining
    simp only [if_neg isClient]
    split
    · rfl
    · rename_i absent
      rw [mem_order, Bool.not_eq_true, ← connection?_eq_none_iff, remaining] at absent
      rw [absent]
      rfl

/-- Everything that changes when a client goes, apart from what is queued. -/
structure Parts (before after : Session) (client : ClientId) (connection : Connection) : Prop where
  entity : ∀ other, after.entityOf? other =
    if client = other then none else before.entityOf? other
  interest : ∀ other, after.interestOf? other =
    if client = other then none
    else (before.interestOf? other).map (·.forget connection.entity)
  world : before.world.despawn connection.entity = none ∧ after.world = before.world ∨
    ∃ entity, before.world.despawn connection.entity = some (entity, after.world)
  settings : after.settings = before.settings
  npcCount : after.npcCount = before.npcCount
  size : after.connections.size + 1 = before.connections.size

theorem Parts.places {connection : Connection} (parts : session.Parts after client connection) :
    after.world.places = session.world.places := by
  obtain ⟨-, same⟩ | ⟨entity, gone⟩ := parts.world
  · rw [same]
  · exact World.places_despawn gone

/-- The entity of the client is gone, and no other is. -/
theorem Parts.get? {connection : Connection} (parts : session.Parts after client connection)
    (id : EntityId) :
    after.world.get? id = if id = connection.entity then none else session.world.get? id := by
  obtain ⟨unknown, same⟩ | ⟨entity, gone⟩ := parts.world
  · rw [same]
    split
    · rename_i isIt
      rw [isIt]
      cases found : session.world.get? connection.entity with
      | none => rfl
      | some entity =>
          obtain ⟨_, _, gone⟩ := World.exists_despawn (Option.isSome_of_eq_some found)
          rw [unknown] at gone
          cases gone
    · rfl
  · exact World.get?_despawn gone id

theorem size_erase_add_one {κ β : Type} [BEq κ] [Hashable κ] [EquivBEq κ] [LawfulHashable κ]
    {map : Std.HashMap κ β} {key : κ} (member : key ∈ map) :
    (map.erase key).size + 1 = map.size := by
  have some : map.isEmpty = false := Std.HashMap.isEmpty_eq_false_iff_exists_mem.mpr ⟨key, member⟩
  rw [Std.HashMap.isEmpty_eq_size_eq_zero, beq_eq_false_iff_ne] at some
  rw [Std.HashMap.size_erase, if_pos member]
  omega

theorem parts_disconnect {connection : Connection}
    (found : session.connection? client = some connection) (visiting : Visiting)
    (fault : Option ConnectionFault) :
    session.Parts (session.disconnect visiting client fault) client connection := by
  obtain ⟨parted, told, removed, isParted, isTold, isRemoved, left⟩ :=
    disconnect_cases found visiting fault
  have closed : parted.Rests (told.close client) := by
    rcases isTold with ⟨-, rfl⟩ | ⟨reason, -, rfl⟩
    · exact rests_close ..
    · exact ((rests_onMetrics ..).trans (rests_send ..)).trans (rests_close ..)
  have sameWorld : told.world = session.world := by
    have partedWorld : parted.world = session.world := by rw [isParted]
    rcases isTold with ⟨-, rfl⟩ | ⟨reason, -, rfl⟩ <;> exact partedWorld
  rw [sameWorld] at isRemoved
  have isIn : client ∈ session.connections := by
    rw [← Std.HashMap.contains_iff_mem]
    exact isConnected_of_connection? found
  -- the world apart, nothing changes from `told.close client` to `removed`
  have same : removed.connections = (told.close client).connections ∧
      removed.settings = (told.close client).settings ∧
      removed.npcCount = (told.close client).npcCount := by
    rcases isRemoved with ⟨-, rfl⟩ | ⟨entity, world, -, rfl⟩ <;> exact ⟨rfl, rfl, rfl⟩
  obtain ⟨connections, settings, npcCount⟩ := same
  have stays := stays_foldl (fun session => session.stays_tellLeft connection.entity)
    (visiting.order (.farewell connection.entity) removed.clients) removed
  refine ⟨fun other => ?_, fun other => ?_, ?_, ?_, ?_, ?_⟩
  · rw [entityOf?, connection?_disconnect found, entityOf?]
    split
    · rfl
    · rw [Option.map_map]
      exact congrArg (Option.map · _) (funext fun _ => Connection.entity_lose ..)
  · rw [interestOf?, connection?_disconnect found, interestOf?]
    split
    · rfl
    · rw [Option.map_map, Option.map_map]
      exact congrArg (Option.map · _) (funext fun _ => Connection.interest_lose ..)
  · rw [left, world_tellLeft_foldl]
    rcases isRemoved with ⟨unknown, rfl⟩ | ⟨entity, world, gone, rfl⟩
    · exact Or.inl ⟨unknown, sameWorld⟩
    · exact Or.inr ⟨entity, gone⟩
  · rw [left, stays.settings, settings, closed.settings, isParted]
  · rw [left, stays.npcCount, npcCount, closed.npcCount, isParted]
  · rw [left, stays.size, connections, closed.size, isParted]
    exact size_erase_add_one isIn

theorem places_disconnect (session : Session) (visiting : Visiting) (client : ClientId)
    (fault : Option ConnectionFault) :
    (session.disconnect visiting client fault).world.places = session.world.places := by
  cases found : session.connection? client with
  | none =>
      unfold disconnect
      rw [found]
  | some connection => exact (parts_disconnect found visiting fault).places

end Session

end Overworld
