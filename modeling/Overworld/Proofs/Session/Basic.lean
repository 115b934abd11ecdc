import Overworld.Server.Session.Events

set_option autoImplicit false

/-!
What the small steps of a session do to its connections and to what is queued for its clients.
-/

namespace Overworld

namespace Session

theorem connection?_modifyConnection (session : Session) (client other : ClientId)
    (change : Connection → Connection) :
    (session.modifyConnection client change).connection? other =
      if client = other then (session.connection? other).map change
      else session.connection? other := by
  unfold connection? modifyConnection
  rw [Std.HashMap.getElem?_modify]
  by_cases same : client = other
  · subst same
    simp
  · simp [same]

@[simp] theorem world_modifyConnection (session : Session) (client : ClientId)
    (change : Connection → Connection) :
    (session.modifyConnection client change).world = session.world :=
  rfl

@[simp] theorem connection?_onMetrics (session : Session) (change : Metrics → Metrics)
    (client : ClientId) :
    (session.onMetrics change).connection? client = session.connection? client :=
  rfl

@[simp] theorem world_onMetrics (session : Session) (change : Metrics → Metrics) :
    (session.onMetrics change).world = session.world :=
  rfl

@[simp] theorem outbound_onMetrics (session : Session) (change : Metrics → Metrics) :
    (session.onMetrics change).outbound = session.outbound :=
  rfl

theorem connection?_send (session : Session) (client other : ClientId) (message : ServerMessage) :
    (session.send client message).connection? other =
      if client = other then (session.connection? other).map (·.recordSent)
      else session.connection? other :=
  session.connection?_modifyConnection client other (·.recordSent)

theorem connection?_erase (session : Session) (client other : ClientId) :
    ({ session with connections := session.connections.erase client } : Session).connection? other =
      if client = other then none else session.connection? other := by
  unfold connection?
  rw [Std.HashMap.getElem?_erase]
  by_cases same : client = other <;> simp [same]

theorem connection?_of_insert {session after : Session} {client : ClientId}
    {connection : Connection}
    (inserted : after.connections = session.connections.insert client connection)
    (other : ClientId) :
    after.connection? other = if client = other then some connection else session.connection? other := by
  unfold connection?
  rw [inserted, Std.HashMap.getElem?_insert]
  by_cases same : client = other <;> simp [same]

theorem isConnected_eq (session : Session) (client : ClientId) :
    session.isConnected client = (session.connection? client).isSome :=
  Std.HashMap.contains_eq_isSome_getElem?

theorem isConnected_of_connection? {session : Session} {client : ClientId} {connection : Connection}
    (found : session.connection? client = some connection) :
    session.isConnected client = true := by
  rw [isConnected_eq, found]
  rfl

theorem connection?_eq_none_iff {session : Session} {client : ClientId} :
    session.connection? client = none ↔ session.isConnected client = false := by
  rw [isConnected_eq, Option.isSome_eq_false_iff, Option.isNone_iff_eq_none]

theorem outbound_send (session : Session) (client : ClientId) (message : ServerMessage) :
    (session.send client message).outbound.toList =
      session.outbound.toList ++ [⟨client, .message message⟩] :=
  Array.toList_push

theorem outbound_close (session : Session) (client : ClientId) :
    (session.close client).outbound.toList = session.outbound.toList ++ [⟨client, .close⟩] :=
  Array.toList_push

theorem outbound_sendAll (session : Session) (client : ClientId) (messages : List ServerMessage) :
    (session.sendAll client messages).outbound.toList =
      session.outbound.toList ++ messages.map fun message => ⟨client, .message message⟩ := by
  unfold sendAll
  induction messages generalizing session with
  | nil => simp
  | cons message rest ih =>
      rw [List.foldl_cons, ih, outbound_send, List.map_cons, List.append_assoc,
        List.singleton_append]

/-- A connection counts the messages that are sent over it. -/
theorem connection?_sendAll (session : Session) (client other : ClientId)
    (messages : List ServerMessage) :
    (session.sendAll client messages).connection? other =
      if client = other then
        (session.connection? other).map fun connection =>
          messages.foldl (fun connection _ => connection.recordSent) connection
      else session.connection? other := by
  unfold sendAll
  induction messages generalizing session with
  | nil => simp
  | cons message rest ih =>
      rw [List.foldl_cons, ih, connection?_send]
      by_cases same : client = other <;> simp [same, Function.comp_def]

/-- Apart from that count it is as it was. -/
theorem exists_recordSents (messages : List ServerMessage) (connection : Connection) :
    ∃ sent, messages.foldl (fun connection _ => connection.recordSent) connection =
      { connection with messagesSent := sent } := by
  induction messages generalizing connection with
  | nil => exact ⟨_, rfl⟩
  | cons message rest ih => exact ih connection.recordSent

theorem world_sendAll (session : Session) (client : ClientId) (messages : List ServerMessage) :
    (session.sendAll client messages).world = session.world := by
  unfold sendAll
  induction messages generalizing session with
  | nil => rfl
  | cons message rest ih => exact ih (session.send client message)

/-- A client that leaves is told why where there is a reason, its line is closed, and its entity goes
if the world has it; the rest is to tell the others. -/
theorem disconnect_cases {session : Session} {client : ClientId} {connection : Connection}
    (found : session.connection? client = some connection) (visiting : Visiting)
    (fault : Option ConnectionFault) :
    ∃ parted told removed : Session,
      parted = { session with connections := session.connections.erase client } ∧
      (fault = none ∧ told = parted ∨
        ∃ reason, fault = some reason ∧
          told = (parted.onMetrics (·.tally .connectionsKicked)).send client
            (.kicked reason.message)) ∧
      (told.world.despawn connection.entity = none ∧ removed = told.close client ∨
        ∃ entity world, told.world.despawn connection.entity = some (entity, world) ∧
          removed = { told.close client with world }) ∧
      session.disconnect visiting client fault =
        (visiting.order (.farewell connection.entity) removed.clients).foldl
          (tellLeft connection.entity) removed := by
  unfold disconnect
  rw [found]
  cases fault with
  | none =>
      refine ⟨_, _, _, rfl, Or.inl ⟨rfl, rfl⟩, ?_, rfl⟩
      split
      · rename_i unknown
        exact Or.inl ⟨unknown, rfl⟩
      · rename_i entity world gone
        exact Or.inr ⟨entity, world, gone, rfl⟩
  | some reason =>
      refine ⟨_, _, _, rfl, Or.inr ⟨reason, rfl, rfl⟩, ?_, rfl⟩
      split
      · rename_i unknown
        exact Or.inl ⟨unknown, rfl⟩
      · rename_i entity world gone
        exact Or.inr ⟨entity, world, gone, rfl⟩

/-- A client that asks to join is in already, is turned away, or is in from then on. -/
theorem connect_cases (session : Session) (client : ClientId) (endpoint : Endpoint) (now : Nat) :
    session.isConnected client = true ∧ session.connect client endpoint now = session ∨
    session.isConnected client = false ∧
      session.settings.maxConnections ≤ session.connections.size ∧
      session.connect client endpoint now =
        ((session.send client
          (.kicked (ConnectionFault.serverFull session.settings.maxConnections).message)).close
            client).onMetrics (·.tally .connectionsKicked) ∨
    session.isConnected client = false ∧
      session.connections.size < session.settings.maxConnections ∧
      ∃ place random entity world joined,
        drawPlace clientSpread session.random = (place, random) ∧
        session.world.spawn place actorHalfExtent .controlled = (entity, world) ∧
        joined = { session with
          random
          world
          connections := session.connections.insert client
            (.opened client endpoint entity session.settings.sequencerRules
              session.settings.interestRules session.settings.streamRules now)
          metrics := session.metrics.tally .connectionsTotal } ∧
        session.connect client endpoint now =
          joined.send client (.connectionResponse world.tick entity place) := by
  unfold connect
  cases isIn : session.isConnected client with
  | true => exact Or.inl ⟨rfl, rfl⟩
  | false =>
      rw [if_neg Bool.false_ne_true]
      by_cases full : session.settings.maxConnections ≤ session.connections.size
      · rw [if_pos full]
        exact Or.inr (Or.inl ⟨rfl, full, rfl⟩)
      · rw [if_neg full]
        exact Or.inr (Or.inr ⟨rfl, Nat.lt_of_not_le full, _, _, _, _, _, rfl, rfl, rfl, rfl⟩)

/-- Who is not connected is not heard. -/
theorem handle_message_of_unknown {session : Session} {client : ClientId}
    (unknown : session.connection? client = none) (visiting : Visiting) (now : Nat)
    (message : ClientMessage) (bytes : UInt64) :
    session.handle visiting now ⟨client, .message message, bytes⟩ = session := by
  have out := connection?_eq_none_iff.mp unknown
  exact if_neg (out ▸ Bool.false_ne_true)

/-- A message of a client that is in is counted first. -/
theorem handle_message_of_connected {session : Session} {client : ClientId} {connection : Connection}
    (found : session.connection? client = some connection) (visiting : Visiting) (now : Nat)
    (message : ClientMessage) (bytes : UInt64) :
    ∃ counted : Session,
      counted = { session.modifyConnection client (·.recordReceived bytes now) with
        metrics := session.metrics.recordReceived bytes } ∧
      counted.connection? client = some (connection.recordReceived bytes now) ∧
      session.handle visiting now ⟨client, .message message, bytes⟩ =
        counted.receive visiting client message := by
  refine ⟨_, rfl, ?_, if_pos (isConnected_of_connection? found)⟩
  refine (session.connection?_modifyConnection client client _).trans ?_
  rw [if_pos rfl, found]
  rfl

end Session

theorem mem_of_mem_dispatchesTo {client : ClientId} {dispatch : Dispatch} {batch : List Outbound}
    (member : dispatch ∈ dispatchesTo client batch) : ⟨client, dispatch⟩ ∈ batch := by
  obtain ⟨item, among, rfl⟩ := List.mem_map.mp member
  obtain ⟨isIn, addressed⟩ := List.mem_filter.mp among
  rwa [← of_decide_eq_true addressed]

theorem dispatchesTo_push (client : ClientId) (batch : List Outbound) (item : Outbound) :
    dispatchesTo client (batch ++ [item]) =
      if item.client = client then dispatchesTo client batch ++ [item.dispatch]
      else dispatchesTo client batch := by
  rw [dispatchesTo_append, dispatchesTo_cons, dispatchesTo_nil]
  split
  · rfl
  · rw [List.append_nil]

theorem dispatchesTo_all (client other : ClientId) (dispatches : List Dispatch) :
    dispatchesTo other (dispatches.map fun dispatch => ⟨client, dispatch⟩) =
      if client = other then dispatches else [] := by
  induction dispatches with
  | nil => rw [List.map_nil, dispatchesTo_nil, ite_self]
  | cons dispatch rest ih =>
      rw [List.map_cons, dispatchesTo_cons, ih]
      by_cases same : client = other
      · simp [same]
      · simp [same]

theorem dispatchesTo_messages (client other : ClientId) (messages : List ServerMessage) :
    dispatchesTo other (messages.map fun message => ⟨client, .message message⟩) =
      if client = other then messages.map .message else [] := by
  have all := dispatchesTo_all client other (messages.map .message)
  rw [List.map_map] at all
  exact all

end Overworld
