import Mathlib.Data.List.Perm.Subperm
import Overworld.Proofs.Session.Frame

set_option autoImplicit false

/-!
Who is connected. A client that joins and is not silent stays so through the tick; the phases after
the events take no one out. In a pass over all clients each has one turn, a turn concerns its own
client only, and so what a pass does to a client does not depend on when it has its turn.
-/

namespace Overworld

namespace Session

theorem mem_clients {session : Session} {client : ClientId} :
    client ∈ session.clients ↔ session.isConnected client = true := by
  unfold clients ClientId.sort isConnected
  rw [List.mem_mergeSort, Std.HashMap.mem_keys, ← Std.HashMap.contains_iff_mem]

theorem mem_order {visiting : Visiting} {pass : Pass} {session : Session} {client : ClientId} :
    client ∈ visiting.order pass session.clients ↔ session.isConnected client = true :=
  (visiting.perm pass session.clients).mem_iff.trans mem_clients

theorem nodup_clients (session : Session) : session.clients.Nodup :=
  (List.mergeSort_perm ..).nodup_iff.mpr Std.HashMap.nodup_keys

theorem nodup_order (session : Session) (visiting : Visiting) (pass : Pass) :
    (visiting.order pass session.clients).Nodup := by
  rw [(visiting.perm pass session.clients).nodup_iff]
  exact session.nodup_clients

theorem size_le_of_members {session : Session} {clients : List ClientId}
    (inside : ∀ client, session.isConnected client = true → client ∈ clients) :
    session.connections.size ≤ clients.length := by
  have keys : session.connections.keys ⊆ clients := fun client member =>
    inside client (Std.HashMap.contains_iff_mem.mpr (Std.HashMap.mem_keys.mp member))
  rw [← Std.HashMap.length_keys]
  exact (List.subperm_of_subset Std.HashMap.nodup_keys keys).length_le

/-- A new client is in where there is room for it. -/
theorem connection?_connect {session : Session} {client : ClientId} (endpoint : Endpoint)
    (now : Nat) (free : session.isConnected client = false)
    (room : session.connections.size < session.settings.maxConnections) :
    ∃ entity, ∀ other, (session.connect client endpoint now).connection? other =
      if client = other then
        some (Connection.opened client endpoint entity session.settings.sequencerRules
          session.settings.interestRules session.settings.streamRules now).recordSent
      else session.connection? other := by
  obtain ⟨isIn, -⟩ | ⟨-, full, -⟩ |
    ⟨-, -, place, random, entity, world, joined, -, -, isJoined, accepted⟩ :=
    session.connect_cases client endpoint now
  · rw [free] at isIn
    cases isIn
  · omega
  · refine ⟨entity, fun other => ?_⟩
    have members := connection?_of_insert (congrArg Session.connections isJoined)
    rw [accepted, connection?_send, members]
    by_cases same : client = other
    · rw [if_pos same, if_pos same, if_pos same]
      rfl
    · rw [if_neg same, if_neg same, if_neg same]

/-- Where no one is silent for too long, no one is dropped. -/
theorem dropSilent_of_active {session : Session} {now : Nat} (visiting : Visiting)
    (active : ∀ client connection, session.connection? client = some connection →
      connection.isTimedOut now session.settings.timeoutUs = false) :
    session.dropSilent visiting now = session := by
  unfold dropSilent
  rw [List.filter_eq_nil_iff.mpr]
  · rfl
  · intro connection member
    obtain ⟨client, -, found⟩ := List.mem_filterMap.mp member
    simp [active client connection found]

theorem connection?_releaseFor (session : Session) (client other : ClientId) :
    (session.releaseFor client).connection? other =
      if client = other then
        (session.connection? other).map fun connection =>
          { connection with sequencer := (connection.sequencer.release session.tick).2 }
      else session.connection? other := by
  unfold releaseFor
  cases held : session.connection? client with
  | none =>
      by_cases same : client = other
      · rw [if_pos same, ← same, held]
        rfl
      · rw [if_neg same]
  | some connection =>
      refine (session.connection?_modifyConnection client other _).trans ?_
      by_cases same : client = other
      · rw [if_pos same, if_pos same, ← same, held]
        rfl
      · rw [if_neg same, if_neg same]

theorem connection?_replicateFor (session : Session) (client other : ClientId) :
    (session.replicateFor client).connection? other =
      if client = other then
        (session.connection? other).map fun connection =>
          (connection.replicate session.world session.map).messages.foldl
            (fun connection _ => connection.recordSent)
            (connection.replicate session.world session.map).connection
      else session.connection? other := by
  unfold replicateFor
  cases held : session.connection? client with
  | none =>
      by_cases same : client = other
      · rw [if_pos same, ← same, held]
        rfl
      · rw [if_neg same]
  | some connection =>
      refine (connection?_sendAll _ client other _).trans ?_
      rw [connection?_modifyConnection, connection?_onMetrics]
      by_cases same : client = other
      · rw [if_pos same, if_pos same, if_pos same, ← same, held]
        rfl
      · rw [if_neg same, if_neg same, if_neg same]

/-- A client that has a turn in a pass is changed by it, and no other is. What a turn does may depend
on things that turns leave alone. -/
theorem connection?_pass (fixed : Session → Prop) {turn : Session → ClientId → Session}
    {change : Connection → Connection}
    (one : ∀ session client other, fixed session → (turn session client).connection? other =
      if client = other then (session.connection? other).map change else session.connection? other)
    (still : ∀ session client, fixed session → fixed (turn session client))
    {clients : List ClientId} (once : clients.Nodup) (session : Session) (now : fixed session)
    (other : ClientId) :
    (clients.foldl turn session).connection? other =
      if other ∈ clients then (session.connection? other).map change
      else session.connection? other := by
  induction clients generalizing session with
  | nil => rfl
  | cons client rest ih =>
      obtain ⟨single, distinct⟩ := List.nodup_cons.mp once
      rw [List.foldl_cons, ih distinct _ (still session client now), one session client other now]
      by_cases isClient : client = other
      · subst isClient
        simp [single]
      · have different : other ≠ client := fun same => isClient same.symm
        simp [isClient, different]

/-- A pass comes to every client. -/
theorem connection?_pass_order (fixed : Session → Prop) {turn : Session → ClientId → Session}
    {change : Connection → Connection}
    (one : ∀ session client other, fixed session → (turn session client).connection? other =
      if client = other then (session.connection? other).map change else session.connection? other)
    (still : ∀ session client, fixed session → fixed (turn session client))
    (session : Session) (now : fixed session) (visiting : Visiting) (pass : Pass)
    (other : ClientId) :
    ((visiting.order pass session.clients).foldl turn session).connection? other =
      (session.connection? other).map change := by
  rw [connection?_pass fixed one still (session.nodup_order visiting pass) session now]
  split
  · rfl
  · rename_i absent
    rw [mem_order, Bool.not_eq_true, ← connection?_eq_none_iff] at absent
    rw [absent]
    rfl

theorem isConnected_foldl {α : Type} {step : Session → α → Session} {client : ClientId}
    (one : ∀ session item, (step session item).isConnected client = session.isConnected client)
    (items : List α) (session : Session) :
    (items.foldl step session).isConnected client = session.isConnected client := by
  induction items generalizing session with
  | nil => rfl
  | cons item rest ih => exact (ih (step session item)).trans (one session item)

theorem isConnected_releaseFor (session : Session) (client other : ClientId) :
    (session.releaseFor client).isConnected other = session.isConnected other := by
  rw [isConnected_eq, isConnected_eq, connection?_releaseFor]
  split
  · rw [Option.isSome_map]
  · rfl

theorem isConnected_replicateFor (session : Session) (client other : ClientId) :
    (session.replicateFor client).isConnected other = session.isConnected other := by
  rw [isConnected_eq, isConnected_eq, connection?_replicateFor]
  split
  · rw [Option.isSome_map]
  · rfl

/-- After the events and the silent, no one leaves within the tick. -/
theorem isConnected_runTick (session : Session) (visiting : Visiting) (now : Nat)
    (client : ClientId) :
    (session.runTick visiting now).isConnected client =
      ((session.handleAll visiting now).dropSilent visiting now).isConnected client := by
  generalize present : (session.handleAll visiting now).dropSilent visiting now = staying
  have ready : ((staying.onWorld World.beginTick).releaseInputs visiting).isConnected client =
      staying.isConnected client :=
    isConnected_foldl (fun session other => session.isConnected_releaseFor other client) _ _
  have told : ((((staying.onWorld World.beginTick).releaseInputs visiting).onWorld
      fun world => world.step.syncGrid).replicate visiting).isConnected client =
      ((staying.onWorld World.beginTick).releaseInputs visiting).isConnected client :=
    isConnected_foldl (fun session other => session.isConnected_replicateFor other client) _ _
  unfold runTick
  rw [present]
  exact told.trans ready

end Session

end Overworld
