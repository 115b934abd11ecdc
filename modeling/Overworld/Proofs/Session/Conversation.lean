import Overworld.Proofs.Replication.Run
import Overworld.Proofs.Session.Visits

set_option autoImplicit false

/-!
What one client is sent over a whole run of a session, whatever happens to the others: visits, one
after the other, and each from its welcome to its end.
-/

namespace Overworld

theorem Connection.isNewsOf_of_mem_replicate (connection : Connection) (world : World)
    (map : TileMap) :
    ∀ message ∈ (connection.replicate world map).messages, message.IsNewsOf world.tick := by
  intro message member
  rcases cases_of_mem_replicate member with ⟨id, rfl⟩ | ⟨snapshot, now, rfl | rfl⟩ | ⟨position, rfl⟩
  · exact ⟨rfl, fun stamp stamped => (Option.some.inj stamped).symm⟩
  · exact ⟨rfl, fun stamp stamped => (Option.some.inj stamped).symm.trans now⟩
  · exact ⟨rfl, fun stamp stamped => (Option.some.inj stamped).symm.trans now⟩
  · exact ⟨rfl, fun stamp stamped => nomatch stamped⟩

namespace Session

/-- After so many ticks, every client was sent visits, the last of them open where it is in. -/
structure Converses (session : Session) (earlier : List Outbound) (ticks : Nat) : Prop where
  tick_eq : session.tick = .ofNat ticks
  visits : ∀ client, InVisits (session.isConnected client) (ticks < 18446744073709551616)
    session.tick (dispatchesTo client (earlier ++ session.outbound.toList))

variable {session after : Session} {earlier : List Outbound} {ticks : Nat} {client : ClientId}

/-- Only the tick, the members and the queue count. -/
theorem Converses.of_same (converses : session.Converses earlier ticks)
    (tick : after.tick = session.tick)
    (members : ∀ other, after.isConnected other = session.isConnected other)
    (outbound : after.outbound = session.outbound) : after.Converses earlier ticks := by
  refine ⟨tick.trans converses.tick_eq, fun other => ?_⟩
  rw [tick, members, outbound]
  exact converses.visits other

/-- A step that sends something to one client, which may come or go by it. -/
theorem Converses.turn (converses : session.Converses earlier ticks) (client : ClientId)
    (isIn : Bool) (more : List Dispatch) (tick : after.tick = session.tick)
    (members : ∀ other, after.isConnected other =
      if client = other then isIn else session.isConnected other)
    (queued : after.outbound.toList =
      session.outbound.toList ++ more.map fun dispatch => ⟨client, dispatch⟩)
    (grows : ∀ {countable : Prop} {dispatches : List Dispatch},
      InVisits (session.isConnected client) countable session.tick dispatches →
        InVisits isIn countable session.tick (dispatches ++ more)) :
    after.Converses earlier ticks := by
  refine ⟨tick.trans converses.tick_eq, fun other => ?_⟩
  have before := converses.visits other
  rw [tick, members, queued, ← List.append_assoc, dispatchesTo_append, dispatchesTo_all]
  by_cases isClient : client = other
  · subst isClient
    rw [if_pos rfl, if_pos rfl]
    exact grows before
  · rw [if_neg isClient, if_neg isClient, List.append_nil]
    exact before

theorem isConnected_modifyConnection (session : Session) (client other : ClientId)
    (change : Connection → Connection) :
    (session.modifyConnection client change).isConnected other = session.isConnected other :=
  Std.HashMap.contains_modify

theorem isConnected_send (session : Session) (client other : ClientId) (message : ServerMessage) :
    (session.send client message).isConnected other = session.isConnected other :=
  session.isConnected_modifyConnection client other _

theorem isConnected_sendAll (session : Session) (client other : ClientId)
    (messages : List ServerMessage) :
    (session.sendAll client messages).isConnected other = session.isConnected other :=
  isConnected_foldl (fun session => session.isConnected_send client other) messages session

theorem Converses.modifyConnection (converses : session.Converses earlier ticks)
    (client : ClientId) (change : Connection → Connection) :
    (session.modifyConnection client change).Converses earlier ticks :=
  converses.of_same rfl (fun other => session.isConnected_modifyConnection client other change) rfl

theorem Converses.onMetrics (converses : session.Converses earlier ticks)
    (change : Metrics → Metrics) : (session.onMetrics change).Converses earlier ticks :=
  converses.of_same rfl (fun _ => rfl) rfl

theorem Converses.sendAll (converses : session.Converses earlier ticks)
    (isIn : session.isConnected client = true) {messages : List ServerMessage}
    (areNews : ∀ message ∈ messages, message.IsNewsOf session.tick) :
    (session.sendAll client messages).Converses earlier ticks := by
  refine converses.turn client true (messages.map .message) ?_ ?_ ?_ ?_
  · exact congrArg World.tick (session.world_sendAll client messages)
  · intro other
    rw [isConnected_sendAll]
    by_cases isClient : client = other
    · rw [if_pos isClient, ← isClient, isIn]
    · rw [if_neg isClient]
  · rw [outbound_sendAll, List.map_map]
    rfl
  · intro countable dispatches visits
    rw [isIn] at visits
    exact visits.news areNews

theorem Converses.send (converses : session.Converses earlier ticks)
    (isIn : session.isConnected client = true) {message : ServerMessage}
    (isNews : message.IsNewsOf session.tick) :
    (session.send client message).Converses earlier ticks :=
  have areNews : ∀ other ∈ [message], other.IsNewsOf session.tick := fun _ member =>
    List.mem_singleton.mp member ▸ isNews
  converses.sendAll isIn areNews

theorem Converses.foldl {α : Type} {step : Session → α → Session} (items : List α)
    (one : ∀ session item, session.Converses earlier ticks →
      (step session item).Converses earlier ticks)
    (converses : session.Converses earlier ticks) :
    (items.foldl step session).Converses earlier ticks := by
  induction items generalizing session with
  | nil => exact converses
  | cons item rest ih => exact ih (one session item converses)

theorem Converses.tellLeft (converses : session.Converses earlier ticks) (gone : EntityId)
    (client : ClientId) : (session.tellLeft gone client).Converses earlier ticks := by
  unfold Session.tellLeft
  split
  · exact converses
  · rename_i connection found
    split
    · apply Converses.onMetrics
      refine (converses.modifyConnection client _).send ?_
        ⟨rfl, fun stamp stamped => (Option.some.inj stamped).symm⟩
      rw [isConnected_modifyConnection]
      exact isConnected_of_connection? found
    · exact converses

/-- Whoever is in leaves by the end of its visit, told a reason or not; the others hear of it. -/
theorem Converses.disconnect (converses : session.Converses earlier ticks) (visiting : Visiting)
    (client : ClientId) (fault : Option ConnectionFault) :
    (session.disconnect visiting client fault).Converses earlier ticks := by
  cases found : session.connection? client with
  | none =>
      unfold Session.disconnect
      rw [found]
      exact converses
  | some connection =>
      obtain ⟨parted, told, removed, isParted, isTold, isRemoved, left⟩ :=
        disconnect_cases found visiting fault
      rw [left]
      have isIn := isConnected_of_connection? found
      have members : ∀ other, told.isConnected other =
          if client = other then false else session.isConnected other := by
        intro other
        have erased : parted.isConnected other =
            if client = other then false else session.isConnected other := by
          rw [isConnected_eq, isConnected_eq, isParted, connection?_erase]
          split <;> rfl
        rcases isTold with ⟨-, rfl⟩ | ⟨reason, -, rfl⟩
        · exact erased
        · rw [isConnected_send]
          exact erased
      have closed : (told.close client).Converses earlier ticks := by
        rcases isTold with ⟨-, rfl⟩ | ⟨reason, -, rfl⟩
        · refine converses.turn client false [.close] (by rw [isParted]; rfl) members ?_ ?_
          · rw [outbound_close, isParted]
            rfl
          · intro countable dispatches visits
            rw [isIn] at visits
            exact visits.leave
        · refine converses.turn client false [.message (.kicked reason.message), .close]
            (by rw [isParted]; rfl) members ?_ ?_
          · rw [outbound_close, outbound_send, isParted, List.append_assoc]
            rfl
          · intro countable dispatches visits
            rw [isIn] at visits
            exact visits.kick reason.message
      have removedConverses : removed.Converses earlier ticks := by
        rcases isRemoved with ⟨-, rfl⟩ | ⟨entity, world, gone, rfl⟩
        · exact closed
        · exact closed.of_same (World.despawn_frame gone).1 (fun _ => rfl) rfl
      exact Converses.foldl _ (fun _ other converses => converses.tellLeft connection.entity other)
        removedConverses

theorem Converses.connect (converses : session.Converses earlier ticks) (client : ClientId)
    (endpoint : Endpoint) (now : Nat) :
    (session.connect client endpoint now).Converses earlier ticks := by
  obtain ⟨-, same⟩ | ⟨isOut, -, refused⟩ |
    ⟨isOut, -, place, random, entity, world, joined, -, came, isJoined, accepted⟩ :=
    session.connect_cases client endpoint now
  · rw [same]
    exact converses
  · rw [refused]
    generalize (ConnectionFault.serverFull session.settings.maxConnections).message = reason
    apply Converses.onMetrics
    refine converses.turn client false [.message (.kicked reason), .close] rfl ?_ ?_ ?_
    · intro other
      refine (session.isConnected_send client other (.kicked reason)).trans ?_
      by_cases isClient : client = other
      · rw [if_pos isClient, ← isClient, isOut]
      · rw [if_neg isClient]
    · rw [outbound_close, outbound_send, List.append_assoc]
      rfl
    · intro countable dispatches visits
      rw [isOut] at visits
      exact visits.refuse reason
  · rw [accepted]
    have sameTick : joined.tick = session.tick := by
      rw [isJoined]
      exact World.tick_spawn came
    refine converses.turn client true [.message (.connectionResponse session.tick entity place)]
      sameTick ?_ ?_ ?_
    · intro other
      rw [isConnected_send, isConnected_eq, isConnected_eq,
        connection?_of_insert (congrArg Session.connections isJoined)]
      split <;> rfl
    · rw [outbound_send, isJoined, World.tick_spawn came]
      rfl
    · intro countable dispatches visits
      rw [isOut] at visits
      exact visits.welcome entity place

theorem Converses.sendAdjustment (converses : session.Converses earlier ticks)
    (client : ClientId) : (session.sendAdjustment client).Converses earlier ticks := by
  unfold Session.sendAdjustment
  split
  · exact converses
  · rename_i connection found
    dsimp only
    split
    · exact converses.modifyConnection client _
    · refine ((converses.modifyConnection client _).onMetrics _).send ?_
        ⟨rfl, fun stamp stamped => nomatch stamped⟩
      refine (isConnected_modifyConnection ..).trans ?_
      exact isConnected_of_connection? found

theorem Converses.recordAdmission (converses : session.Converses earlier ticks)
    (entity : EntityId) (admission : Admission) :
    (session.recordAdmission entity admission).Converses earlier ticks := by
  cases admission with
  | accepted => exact converses.of_same rfl (fun _ => rfl) rfl
  | dropped reason => exact converses.of_same rfl (fun _ => rfl) rfl

theorem Converses.receive (converses : session.Converses earlier ticks) (visiting : Visiting)
    (client : ClientId) (message : ClientMessage) :
    (session.receive visiting client message).Converses earlier ticks := by
  cases message with
  | input tick keys =>
      change (session.receiveInput visiting client tick keys).Converses earlier ticks
      unfold receiveInput
      split
      · exact converses
      · split
        · exact converses.disconnect visiting client _
        · exact ((converses.modifyConnection client _).recordAdmission _ _).sendAdjustment client
  | heartbeat tick =>
      change (session.receiveHeartbeat visiting client tick).Converses earlier ticks
      unfold receiveHeartbeat
      split
      · exact converses
      · split
        · exact converses.disconnect visiting client _
        · exact (converses.modifyConnection client _).sendAdjustment client
  | disconnect => exact converses.disconnect visiting client none

theorem Converses.handle (converses : session.Converses earlier ticks) (visiting : Visiting)
    (now : Nat) (event : InboundEvent) :
    (session.handle visiting now event).Converses earlier ticks := by
  unfold Session.handle
  split
  · exact converses.connect event.client _ now
  · exact converses.disconnect visiting event.client none
  · split
    · have received := converses.modifyConnection event.client (·.recordReceived event.bytes now)
      have counted : ({ session.modifyConnection event.client
            (·.recordReceived event.bytes now) with
          metrics := session.metrics.recordReceived event.bytes } :
          Session).Converses earlier ticks := received.of_same rfl (fun _ => rfl) rfl
      exact counted.receive visiting event.client _
    · exact converses

theorem Converses.handleAll (converses : session.Converses earlier ticks) (visiting : Visiting)
    (now : Nat) : (session.handleAll visiting now).Converses earlier ticks :=
  Converses.foldl _ (fun _ event converses => converses.handle visiting now event)
    (converses.of_same rfl (fun _ => rfl) rfl)

theorem Converses.dropSilent (converses : session.Converses earlier ticks) (visiting : Visiting)
    (now : Nat) : (session.dropSilent visiting now).Converses earlier ticks := by
  exact Converses.foldl _ (fun _ _ converses => (converses.onMetrics _).disconnect visiting _ _)
    converses

theorem Converses.beginTick (converses : session.Converses earlier ticks) :
    (session.onWorld World.beginTick).Converses earlier (ticks + 1) := by
  have isTick := converses.tick_eq
  refine ⟨?_, fun client => (converses.visits client).later fun countable => ?_⟩
  · change session.tick + 1 = .ofNat (ticks + 1)
    rw [isTick, UInt64.ofNat_add]
    rfl
  · refine ⟨by omega, ?_⟩
    change session.tick ≤ session.tick + 1
    rw [UInt64.le_iff_toNat_le, UInt64.toNat_add, isTick, UInt64.toNat_one, UInt64.toNat_ofNat']
    omega

theorem Converses.releaseFor (converses : session.Converses earlier ticks) (client : ClientId) :
    (session.releaseFor client).Converses earlier ticks := by
  refine converses.of_same ?_ (session.isConnected_releaseFor client) ?_
  · unfold Session.releaseFor
    split
    · rfl
    · exact (setKeys_foldl_frame _ _ session.world).1
  · unfold Session.releaseFor
    split <;> rfl

theorem Converses.replicateFor (converses : session.Converses earlier ticks) (client : ClientId) :
    (session.replicateFor client).Converses earlier ticks := by
  unfold Session.replicateFor
  split
  · exact converses
  · rename_i connection found
    refine ((converses.onMetrics _).modifyConnection client _).sendAll ?_
      (connection.isNewsOf_of_mem_replicate session.world session.map)
    refine (isConnected_modifyConnection ..).trans ?_
    exact isConnected_of_connection? found

theorem Converses.releaseInputs (converses : session.Converses earlier ticks)
    (visiting : Visiting) : (session.releaseInputs visiting).Converses earlier ticks :=
  Converses.foldl _ (fun _ client converses => converses.releaseFor client) converses

theorem Converses.replicate (converses : session.Converses earlier ticks) (visiting : Visiting) :
    (session.replicate visiting).Converses earlier ticks :=
  Converses.foldl _ (fun _ client converses => converses.replicateFor client) converses

theorem Converses.move (converses : session.Converses earlier ticks) :
    (session.onWorld fun world => world.step.syncGrid).Converses earlier ticks :=
  converses.of_same rfl (fun _ => rfl) rfl

theorem Converses.endTick (converses : session.Converses earlier ticks) :
    ((session.onWorld World.clearDirty).recordLevels).Converses earlier ticks :=
  converses.of_same rfl (fun _ => rfl) rfl

theorem Converses.runTick (converses : session.Converses earlier ticks) (visiting : Visiting)
    (now : Nat) : (session.runTick visiting now).Converses earlier (ticks + 1) := by
  have present := (converses.handleAll visiting now).dropSilent visiting now
  have ready := present.beginTick.releaseInputs visiting
  exact (ready.move.replicate visiting).endTick

theorem Converses.teleport? (converses : session.Converses earlier ticks) {position : Vec3}
    (moved : session.teleport? client position = some after) : after.Converses earlier ticks := by
  unfold Session.teleport? at moved
  split at moved
  · cases moved
  · split at moved
    · cases moved
    · rename_i world movedWorld
      cases moved
      have sameTick : world.tick = session.world.tick := by
        obtain ⟨_, -, -, rfl⟩ := World.teleport?_cases movedWorld
        rfl
      have elsewhere : ({ session with world } : Session).Converses earlier ticks :=
        converses.of_same sameTick (fun _ => rfl) rfl
      exact elsewhere.modifyConnection client _

theorem Converses.invalidateChunk (converses : session.Converses earlier ticks)
    (chunk : ChunkPosition) : (session.invalidateChunk chunk).Converses earlier ticks :=
  converses.of_same rfl (fun _ => Std.HashMap.contains_map) rfl

theorem Converses.submit (converses : session.Converses earlier ticks) {event : InboundEvent}
    (taken : session.submit event = .ok after) : after.Converses earlier ticks := by
  unfold Session.submit at taken
  cases queued : session.inbox.submit event with
  | error _ =>
      rw [queued] at taken
      cases taken
  | ok inbox =>
      rw [queued] at taken
      cases taken
      exact converses.of_same rfl (fun _ => rfl) rfl

theorem Converses.drain (converses : session.Converses earlier ticks) :
    session.drainOutbound.2.Converses (earlier ++ session.drainOutbound.1) ticks := by
  refine ⟨converses.tick_eq, fun client => ?_⟩
  change InVisits (session.isConnected client) _ session.tick
    (dispatchesTo client (earlier ++ session.outbound.toList ++ []))
  rw [List.append_nil]
  exact converses.visits client

theorem ofSettings_converses (settings : Settings) (map : TileMap) :
    (ofSettings settings map).Converses [] 0 := by
  refine ⟨tick_spawnNpcs .., fun client => ?_⟩
  have isOut : (ofSettings settings map).isConnected client = false := Std.HashMap.contains_empty
  rw [isOut]
  exact .empty _ _

theorem Converses.act {chronicle : Chronicle}
    (converses : chronicle.session.Converses chronicle.taken ticks) (action : Action) :
    (chronicle.act action).session.Converses (chronicle.act action).taken
      (ticks + if action.isTick then 1 else 0) := by
  cases action with
  | submit event =>
      change ((chronicle.session.submit event).toOption.getD chronicle.session).Converses _ ticks
      cases taken : chronicle.session.submit event with
      | error _ => exact converses
      | ok after => exact converses.submit taken
  | tick visiting now => exact converses.runTick visiting now
  | teleport client position =>
      change ((chronicle.session.teleport? client position).getD chronicle.session).Converses _ ticks
      cases moved : chronicle.session.teleport? client position with
      | none => exact converses
      | some after => exact converses.teleport? moved
  | giveUp visiting client fault => exact converses.disconnect visiting client (some fault)
  | invalidateChunk chunk => exact converses.invalidateChunk chunk
  | drain => exact converses.drain

theorem Converses.run {chronicle : Chronicle}
    (converses : chronicle.session.Converses chronicle.taken ticks) (actions : List Action) :
    (actions.foldl Chronicle.act chronicle).session.Converses
      (actions.foldl Chronicle.act chronicle).taken (ticks + actions.countP (·.isTick)) := by
  induction actions generalizing chronicle ticks with
  | nil => exact converses
  | cons action rest ih =>
      have later := ih (converses.act action)
      rw [List.countP_cons, Nat.add_comm (rest.countP _), ← Nat.add_assoc]
      exact later

namespace Chronicle

theorem tick_run (settings : Settings) (map : TileMap) (actions : List Action) :
    (run settings map actions).session.tick = .ofNat (actions.countP (·.isTick)) := by
  have first : (start settings map).session.Converses (start settings map).taken 0 :=
    ofSettings_converses settings map
  have ticks := (first.run actions).tick_eq
  rw [Nat.zero_add] at ticks
  exact ticks

/-- Everything for one client so far, taken from the queue or not. -/
def sentTo (chronicle : Chronicle) (client : ClientId) : List Dispatch :=
  dispatchesTo client (chronicle.taken ++ chronicle.session.outbound.toList)

/-- What a client is sent over a run is one visit after the other. The last one is open exactly while
the client is in, and then it began with a welcome. As long as ticks have numbers of their own, they
do not go back within a visit. -/
theorem run_in_visits (settings : Settings) (map : TileMap) (actions : List Action)
    (client : ClientId) :
    ∃ (visits : List (List Dispatch)) (stay : List Dispatch),
      (run settings map actions).sentTo client = visits.flatten ++ stay ∧
      (∀ visit ∈ visits, IsVisit visit) ∧
      IsOpen ((run settings map actions).session.isConnected client) stay ∧
      (actions.countP (·.isTick) < 18446744073709551616 →
        (∀ visit ∈ visits, (stamps visit).Pairwise (· ≤ ·)) ∧
          (stamps stay).Pairwise (· ≤ ·)) := by
  have first : (start settings map).session.Converses (start settings map).taken 0 :=
    ofSettings_converses settings map
  obtain ⟨visits, stay, split, areVisits, isOpen, timely⟩ := (first.run actions).visits client
  refine ⟨visits, stay, split, areVisits, isOpen, fun countable => ?_⟩
  rw [Nat.zero_add] at timely
  obtain ⟨each, last⟩ := timely countable
  exact ⟨each, last.ordered⟩

/-- The first client of a session is in the middle of a visit after the tick in which it joins. -/
theorem first_client_visits :
    ∃ (visits : List (List Dispatch)) (stay : List Dispatch),
      (run .standard ⟨16, fun _ => []⟩ firstClient).sentTo ⟨0⟩ = visits.flatten ++ stay ∧
      (∀ visit ∈ visits, IsVisit visit) ∧ IsStay stay ∧ (stamps stay).Pairwise (· ≤ ·) := by
  have isIn : (run .standard ⟨16, fun _ => []⟩ firstClient).session.isConnected ⟨0⟩ = true :=
    isConnected_first .standard _ (by decide) _ _ _ _
  obtain ⟨visits, stay, split, areVisits, isOpen, timely⟩ :=
    run_in_visits .standard ⟨16, fun _ => []⟩ firstClient ⟨0⟩
  rw [isIn] at isOpen
  exact ⟨visits, stay, split, areVisits, isOpen, (timely (by decide)).2⟩

end Chronicle

end Session

end Overworld
