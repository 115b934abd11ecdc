import Overworld.Proofs.Client.Play
import Overworld.Proofs.Replication.Tick
import Overworld.Proofs.Session.Members
import Overworld.Proofs.Session.Run

set_option autoImplicit false

/-!
Replication over whole runs of a session, and the clients at the other end. What a client keeps of
the entities in its view is what the server believes it to keep.
-/

namespace Overworld

namespace Session

variable {session : Session} {earlier : List Outbound} {tick : Tick}

theorem spawnNpcs_indexed (count : Nat) {world : World} (random : Generator)
    (indexed : world.IndexesEntities)
    (numbered : (spawnNpcs count world random).1.places ≤ 4294967296) :
    (spawnNpcs count world random).1.IndexesEntities := by
  induction count generalizing world random with
  | zero => exact indexed
  | succ count ih =>
      obtain ⟨position, behavior, id, after, came, one⟩ := spawnNpc_cases world random
      have more := (places_spawnNpcs count (spawnNpc world random).1 (spawnNpc world random).2).1
      have indexedAfter : (spawnNpc world random).1.IndexesEntities := by
        rw [one] at more ⊢
        refine indexed.spawn came (Nat.le_trans more ?_)
        rw [← one]
        exact numbered
      exact ih (spawnNpc world random).2 indexedAfter numbered

theorem ofSettings_keepsTold (settings : Settings) (map : TileMap) :
    (ofSettings settings map).KeepsTold [] 0 := by
  intro numbered
  refine ⟨?_, ?_, ?_⟩
  · exact tick_spawnNpcs ..
  · exact spawnNpcs_indexed _ _ (World.indexesEntities_ofGrid _ _ _) numbered
  · intro client connection found
    unfold connection? ofSettings at found
    simp at found

/-- The number of the next tick, or of this one where the action is no tick. -/
def Action.tickAfter (tick : Tick) (action : Action) : Tick :=
  if action.isTick then tick + 1 else tick

theorem KeepsTold.act {chronicle : Chronicle}
    (keeps : chronicle.session.KeepsTold chronicle.taken tick) (action : Action)
    (room : action.isTick = true → tick.toNat + 1 < 18446744073709551616) :
    (chronicle.act action).session.KeepsTold (chronicle.act action).taken
      (action.tickAfter tick) := by
  cases action with
  | submit event =>
      change ((chronicle.session.submit event).toOption.getD chronicle.session).KeepsTold _ tick
      cases taken : chronicle.session.submit event with
      | error _ => exact keeps
      | ok after => exact keeps.submit taken
  | tick visiting now => exact keeps.runTick visiting now (room rfl)
  | teleport client position =>
      change ((chronicle.session.teleport? client position).getD chronicle.session).KeepsTold _ tick
      cases moved : chronicle.session.teleport? client position with
      | none => exact keeps
      | some after => exact keeps.teleport? moved
  | giveUp visiting client fault => exact keeps.disconnect visiting client (some fault)
  | invalidateChunk chunk => exact keeps.invalidateChunk chunk
  | drain => exact keeps.drain

theorem KeepsTold.run {chronicle : Chronicle}
    (keeps : chronicle.session.KeepsTold chronicle.taken tick) (actions : List Action)
    (room : tick.toNat + actions.countP (·.isTick) < 18446744073709551616) :
    ∃ last, (actions.foldl Chronicle.act chronicle).session.KeepsTold
      (actions.foldl Chronicle.act chronicle).taken last := by
  induction actions generalizing chronicle tick with
  | nil => exact ⟨tick, keeps⟩
  | cons action rest ih =>
      rw [List.countP_cons] at room
      refine ih (keeps.act action fun isTick => ?_) ?_
      · rw [if_pos isTick] at room
        omega
      · unfold Action.tickAfter
        by_cases isTick : action.isTick = true
        · rw [if_pos isTick] at room ⊢
          rw [UInt64.toNat_add, UInt64.toNat_one]
          omega
        · rw [if_neg isTick] at room ⊢
          omega

namespace Chronicle

/-- What a client was sent since it was welcomed, taken from the queue or not. -/
def feedOf (chronicle : Chronicle) (client : ClientId) : List ServerMessage :=
  chronicle.session.feed chronicle.taken client

theorem run_isTold (settings : Settings) (map : TileMap) (actions : List Action)
    (numbered : (run settings map actions).session.world.places ≤ 4294967296)
    (countable : actions.countP (·.isTick) < 18446744073709551616) {client : ClientId} {connection : Connection}
    (connected : (run settings map actions).session.connection? client = some connection) :
    ∃ tick, connection.IsTold tick ((run settings map actions).feedOf client) := by
  have first : (start settings map).session.KeepsTold (start settings map).taken 0 :=
    ofSettings_keepsTold settings map
  obtain ⟨tick, keeps⟩ := first.run actions (by simpa using countable)
  exact ⟨tick, (keeps numbered).told client connection connected⟩

/-- A client that hears its feed, with steps and changes of keys anywhere between the messages, keeps
the very snapshots that the server recorded for it, and these are of the entities in its view. Each
entity comes into view and goes in turn, coming first, and word on another entity than the client's
own is sent only while that entity is in view. This holds as long as ids can tell the places of the
world apart and ticks have numbers of their own. -/
theorem run_replicates (settings : Settings) (map : TileMap) (actions : List Action)
    (numbered : (run settings map actions).session.world.places ≤ 4294967296)
    (countable : actions.countP (·.isTick) < 18446744073709551616) (client : ClientId) (connection : Connection)
    (connected : (run settings map actions).session.connection? client = some connection)
    (rules : PlayerRules) (calls : List Player.Call)
    (heard : Player.Call.heard calls = (run settings map actions).feedOf client) :
    (∀ id, (calls.foldl Player.call (.ofRules rules)).replicas.get? id = connection.observed[id]?) ∧
    (∀ id, (connection.observed[id]?).isSome = true ↔ id ∈ connection.interest.visible) ∧
    (∀ id, (false :: viewChanges id ((run settings map actions).feedOf client)).IsChain (· ≠ ·)) ∧
    ∀ before snapshot after,
      (run settings map actions).feedOf client = before ++ .entityUpdate snapshot :: after →
      snapshot.entity ≠ connection.entity → inView snapshot.entity before = true := by
  obtain ⟨tick, told⟩ := run_isTold settings map actions numbered countable connected
  refine ⟨?_, fun id => (told.visible_iff id).symm, told.conveys.alternating, told.conveys.updated⟩
  intro id
  obtain ⟨first, spawn, rest, shape⟩ := told.conveys.welcomed
  rw [(Player.isWaiting_ofRules rules).replicas_foldl (heard.trans shape), heard]
  exact told.conveys.mirrored id

/-- The first client of a session is in after the tick in which it joins. -/
theorem isConnected_first (settings : Settings) (map : TileMap)
    (room : 0 < settings.maxConnections) (client : ClientId) (endpoint : Endpoint)
    (visiting : Visiting) (now : Nat) :
    (run settings map [.submit ⟨client, .connected endpoint, 0⟩,
      .tick visiting now]).session.isConnected client = true := by
  have free : ({ ofSettings settings map with
      inbox := .ofCapacity Inbox.standardCapacity } : Session).isConnected client = false :=
    Std.HashMap.contains_empty
  obtain ⟨entity, members⟩ := connection?_connect endpoint now free room
  have handled : ({ ofSettings settings map with
        inbox := ⟨.atLeastOne Inbox.standardCapacity, [⟨client, .connected endpoint, 0⟩], true⟩ } :
        Session).handleAll visiting now =
      ({ ofSettings settings map with
        inbox := .ofCapacity Inbox.standardCapacity } : Session).connect client endpoint now := rfl
  change (Session.runTick visiting now { ofSettings settings map with
    inbox := ⟨.atLeastOne Inbox.standardCapacity, [⟨client, .connected endpoint, 0⟩], true⟩ }).isConnected
      client = true
  rw [isConnected_runTick, handled, dropSilent_of_active, isConnected_eq, members, if_pos rfl]
  · rfl
  · intro other connection found
    rw [members] at found
    split at found
    · cases found
      simp [Connection.isTimedOut, Connection.idle, Connection.opened, Connection.recordSent]
    · unfold connection? ofSettings at found
      simp at found

/-- A session of standard settings over a map without tiles, and one client that joins it. -/
def firstClient : List Action :=
  [.submit ⟨⟨0⟩, .connected (.v4 #v[127, 0, 0, 1] 4000), 0⟩, .tick .ascending 0]

theorem first_client_mirrors :
    ∃ connection,
      (run .standard ⟨16, fun _ => []⟩ firstClient).session.connection? ⟨0⟩ = some connection ∧
      ∀ id, ((((run .standard ⟨16, fun _ => []⟩ firstClient).feedOf ⟨0⟩).map
        Player.Call.hear).foldl Player.call (.ofRules .standard)).replicas.get? id =
          connection.observed[id]? := by
  have isIn : (run .standard ⟨16, fun _ => []⟩ firstClient).session.isConnected ⟨0⟩ = true :=
    isConnected_first .standard _ (by decide) _ _ _ _
  rw [isConnected_eq] at isIn
  obtain ⟨connection, connected⟩ := Option.isSome_iff_exists.mp isIn
  have numbered := places_run_le .standard ⟨16, fun _ => []⟩ firstClient
  have heard : Player.Call.heard (((run .standard ⟨16, fun _ => []⟩ firstClient).feedOf ⟨0⟩).map
      .hear) = (run .standard ⟨16, fun _ => []⟩ firstClient).feedOf ⟨0⟩ := by
    simp [Player.Call.heard]
  exact ⟨connection, connected, (run_replicates .standard _ firstClient
    (Nat.le_trans numbered (by decide)) (by decide) ⟨0⟩ connection connected .standard _ heard).1⟩

end Chronicle

end Session

end Overworld
