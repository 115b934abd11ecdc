import Overworld.Proofs.Session.Conversation
import Overworld.Proofs.Session.Dismissal
import Overworld.Proofs.Session.Punctuality

set_option autoImplicit false

/-!
How much a client can make the server hold. However many messages come, and in the middle of a tick as
between two, the inputs that wait for a client are for ticks of its window, counted from the tick that
was completed last. Nothing checks this: inputs are admitted by that tick and released by the one that
begins, so it is kept by the order in which a tick goes.
-/

namespace Overworld

theorem Settings.inputMaxLead_nonneg (settings : Settings) (valid : settings.fault? = none) :
    0 ≤ settings.inputMaxLead :=
  have fit := fault?_eq_none_iff.mp valid
  Int64.le_trans fit.1.inputMinLead fit.2.1

namespace Session

/-- The beginning of the next tick, when all events are handled and the silent are gone. -/
def begun (session : Session) (visiting : Visiting) (now : Nat) : Session :=
  ((session.handleAll visiting now).dropSilent visiting now).onWorld World.beginTick

/-- What a session comes to between the tick completed last and the end of the next one. -/
inductive Moment (session : Session) : Session → Prop
  | between : Moment session session
  /-- Some events are handled, and others are not. -/
  | handling (visiting : Visiting) (now : Nat) (earlier later : List InboundEvent)
      (split : session.inbox.events = earlier ++ later) :
      Moment session
        (earlier.foldl (handle visiting now) { session with inbox := session.inbox.drain.2 })
  | dismissing (visiting : Visiting) (now : Nat) (earlier later : List Connection)
      (split : (session.handleAll visiting now).leavers visiting now = earlier ++ later) :
      Moment session (earlier.foldl (dismiss visiting now) (session.handleAll visiting now))
  | releasing (visiting : Visiting) (now : Nat) (earlier later : List ClientId)
      (split : visiting.order .release (session.begun visiting now).clients = earlier ++ later) :
      Moment session (earlier.foldl releaseFor (session.begun visiting now))
  | stepped (visiting : Visiting) (now : Nat) :
      Moment session (((session.begun visiting now).releaseInputs visiting).onWorld World.step)
  | telling (visiting : Visiting) (now : Nat) (earlier later : List ClientId)
      (split : visiting.order .replicate (session.moved visiting now).clients = earlier ++ later) :
      Moment session (earlier.foldl replicateFor (session.moved visiting now))
  | told (visiting : Visiting) (now : Nat) :
      Moment session (((session.moved visiting now).replicate visiting).onWorld World.clearDirty)

variable {session before after : Session} {settings : Settings} {completed : Tick}

/-- What waits for each client is within the window of the settings. -/
structure HoldsWithin (session : Session) (settings : Settings) (completed : Tick) : Prop where
  governed : session.settings = settings
  within : ∀ client connection, session.connection? client = some connection →
    connection.sequencer.IsWithin settings.sequencerRules completed

/-- Where sequencers do not change, nothing does; clients may leave. -/
theorem HoldsWithin.of_sequencers (holds : before.HoldsWithin settings completed)
    (same : after.settings = before.settings)
    (sequencers : ∀ client connection, after.connection? client = some connection →
      ∃ held, before.connection? client = some held ∧ connection.sequencer = held.sequencer) :
    after.HoldsWithin settings completed where
  governed := same.trans holds.governed
  within client connection found := by
    obtain ⟨held, isHeld, isSame⟩ := sequencers client connection found
    rw [isSame]
    exact holds.within client held isHeld

theorem HoldsWithin.of_same (holds : before.HoldsWithin settings completed)
    (same : after.settings = before.settings)
    (connections : ∀ client, after.connection? client = before.connection? client) :
    after.HoldsWithin settings completed :=
  holds.of_sequencers same fun client connection found =>
    ⟨connection, (connections client).symm.trans found, rfl⟩

theorem HoldsWithin.withMetrics (holds : session.HoldsWithin settings completed)
    (metrics : Metrics) : ({ session with metrics } : Session).HoldsWithin settings completed :=
  holds.of_same rfl fun _ => rfl

theorem HoldsWithin.emptied (holds : session.HoldsWithin settings completed) :
    ({ session with inbox := session.inbox.drain.2 } : Session).HoldsWithin settings completed :=
  holds.of_same rfl fun _ => rfl

theorem HoldsWithin.modifyConnection (holds : session.HoldsWithin settings completed)
    (client : ClientId) (change : Connection → Connection)
    (kept : ∀ connection, session.connection? client = some connection →
      (change connection).sequencer.IsWithin settings.sequencerRules completed) :
    (session.modifyConnection client change).HoldsWithin settings completed where
  governed := holds.governed
  within other connection found := by
    rw [connection?_modifyConnection] at found
    split at found
    · rename_i isClient
      obtain ⟨held, isHeld, rfl⟩ := Option.map_eq_some_iff.mp found
      exact kept held (isClient ▸ isHeld)
    · exact holds.within other connection found

theorem HoldsWithin.send (holds : session.HoldsWithin settings completed) (client : ClientId)
    (message : ServerMessage) : (session.send client message).HoldsWithin settings completed :=
  have counted := holds.modifyConnection client Connection.recordSent (holds.within client)
  counted.of_same rfl fun _ => rfl

theorem HoldsWithin.disconnect (holds : session.HoldsWithin settings completed)
    (visiting : Visiting) (client : ClientId) (fault : Option ConnectionFault) :
    (session.disconnect visiting client fault).HoldsWithin settings completed := by
  cases found : session.connection? client with
  | none =>
      rw [disconnect_of_unknown found]
      exact holds
  | some connection =>
      refine holds.of_sequencers (session.follows_disconnect visiting client fault).settings ?_
      intro other stays isIn
      rw [connection?_disconnect found] at isIn
      split at isIn
      · cases isIn
      · obtain ⟨held, isHeld, rfl⟩ := Option.map_eq_some_iff.mp isIn
        exact ⟨held, isHeld, held.sequencer_lose connection.entity⟩

/-- A newcomer comes with nothing. -/
theorem HoldsWithin.connect (holds : session.HoldsWithin settings completed) (client : ClientId)
    (endpoint : Endpoint) (now : Nat) :
    (session.connect client endpoint now).HoldsWithin settings completed := by
  obtain ⟨-, same⟩ | ⟨-, -, refused⟩ |
    ⟨-, -, place, random, own, world, joined, -, -, isJoined, accepted⟩ :=
    session.connect_cases client endpoint now
  · rw [same]
    exact holds
  · rw [refused]
    have told := holds.send client
      (.kicked (ConnectionFault.serverFull session.settings.maxConnections).message)
    exact told.of_same rfl fun _ => rfl
  · rw [accepted]
    refine HoldsWithin.send ⟨?_, fun other connection found => ?_⟩ client _
    · rw [isJoined]
      exact holds.governed
    · rw [connection?_of_insert (congrArg Session.connections isJoined)] at found
      split at found
      · cases found
        rw [← holds.governed]
        exact Sequencer.isWithin_ofRules ..
      · exact holds.within other connection found

theorem HoldsWithin.recordAdmission (holds : session.HoldsWithin settings completed)
    (entity : EntityId) (admission : Admission) :
    (session.recordAdmission entity admission).HoldsWithin settings completed := by
  cases admission <;> exact holds.of_same rfl fun _ => rfl

theorem HoldsWithin.sendAdjustment (holds : session.HoldsWithin settings completed)
    (client : ClientId) : (session.sendAdjustment client).HoldsWithin settings completed := by
  unfold Session.sendAdjustment
  cases found : session.connection? client with
  | none => exact holds
  | some connection =>
      have taken := holds.modifyConnection client
        (fun held => { held with sequencer := connection.sequencer.takeAdjustment.2 })
        fun _ _ => (holds.within client connection found).takeAdjustment
      dsimp only
      split
      · exact taken
      · exact (taken.withMetrics (session.metrics.tally .tickAdjustments)).send client _

theorem HoldsWithin.receive (holds : session.HoldsWithin settings completed)
    (stands : session.tick = completed) (least : 0 ≤ settings.inputMinLead) (visiting : Visiting)
    (client : ClientId) (message : ClientMessage) :
    (session.receive visiting client message).HoldsWithin settings completed := by
  cases message with
  | disconnect => exact holds.disconnect visiting client none
  | input tick keys =>
      unfold Session.receive receiveInput
      cases found : session.connection? client with
      | none => exact holds
      | some connection =>
          dsimp only
          split
          · exact holds.disconnect visiting client _
          · rename_i admission sequencer received
            rw [stands] at received
            have kept := (holds.within client connection found).receive
              settings.desyncLimit_lt least received
            have put := holds.modifyConnection client (fun held => { held with sequencer })
              fun _ _ => kept
            exact (put.recordAdmission _ _).sendAdjustment client
  | heartbeat tick =>
      unfold Session.receive receiveHeartbeat
      cases found : session.connection? client with
      | none => exact holds
      | some connection =>
          dsimp only
          split
          · exact holds.disconnect visiting client _
          · rename_i sequencer observed
            have kept := (holds.within client connection found).observe observed
            have put := holds.modifyConnection client (fun held => { held with sequencer })
              fun _ _ => kept
            exact put.sendAdjustment client

theorem HoldsWithin.handle (holds : session.HoldsWithin settings completed)
    (stands : session.tick = completed) (least : 0 ≤ settings.inputMinLead) (visiting : Visiting)
    (now : Nat) (event : InboundEvent) :
    (session.handle visiting now event).HoldsWithin settings completed := by
  unfold Session.handle
  split
  · exact holds.connect event.client _ now
  · exact holds.disconnect visiting event.client none
  · split
    · have received := holds.modifyConnection event.client (·.recordReceived event.bytes now)
        (holds.within event.client)
      exact (received.withMetrics (session.metrics.recordReceived event.bytes)).receive stands least
        visiting event.client _
    · exact holds

/-- Time stands while events are handled, so the window does. -/
theorem HoldsWithin.handles (holds : session.HoldsWithin settings completed)
    (stands : session.tick = completed) (least : 0 ≤ settings.inputMinLead) (visiting : Visiting)
    (now : Nat) (events : List InboundEvent) :
    (events.foldl (Session.handle visiting now) session).HoldsWithin settings completed := by
  induction events generalizing session with
  | nil => exact holds
  | cons event rest ih =>
      exact ih (holds.handle stands least visiting now event)
        ((session.tick_handle visiting now event).trans stands)

theorem HoldsWithin.dismisses (holds : session.HoldsWithin settings completed)
    (visiting : Visiting) (now : Nat) (leavers : List Connection) :
    (leavers.foldl (dismiss visiting now) session).HoldsWithin settings completed := by
  refine List.foldlRecOn (motive := fun later : Session => later.HoldsWithin settings completed)
    _ _ holds fun later kept leaver _ => ?_
  exact (kept.withMetrics (later.metrics.tally .connectionsTimedOut)).disconnect visiting _ _

theorem HoldsWithin.releases (holds : session.HoldsWithin settings completed)
    (clients : List ClientId) :
    (clients.foldl releaseFor session).HoldsWithin settings completed := by
  refine List.foldlRecOn (motive := fun later : Session => later.HoldsWithin settings completed)
    _ _ holds fun later kept client _ => ?_
  refine ⟨(later.follows_releaseFor client).settings.trans kept.governed, ?_⟩
  intro other connection found
  rw [connection?_releaseFor] at found
  split at found
  · obtain ⟨held, isHeld, rfl⟩ := Option.map_eq_some_iff.mp found
    exact (kept.within other held isHeld).release later.tick
  · exact kept.within other connection found

theorem HoldsWithin.replicates (holds : session.HoldsWithin settings completed)
    (clients : List ClientId) :
    (clients.foldl replicateFor session).HoldsWithin settings completed := by
  refine List.foldlRecOn (motive := fun later : Session => later.HoldsWithin settings completed)
    _ _ holds fun later kept client _ => ?_
  refine kept.of_sequencers (later.follows_replicateFor client).settings ?_
  intro other connection found
  rw [connection?_replicateFor] at found
  split at found
  · obtain ⟨held, isHeld, rfl⟩ := Option.map_eq_some_iff.mp found
    obtain ⟨sent, counted⟩ := exists_recordSents
      (held.replicate later.world later.map).messages (held.replicate later.world later.map).connection
    rw [counted]
    exact ⟨held, isHeld, (replicate_frame held later.world later.map).2.1⟩
  · exact ⟨connection, found, rfl⟩

theorem HoldsWithin.handleAll (holds : session.HoldsWithin settings session.tick)
    (least : 0 ≤ settings.inputMinLead) (visiting : Visiting) (now : Nat) :
    (session.handleAll visiting now).HoldsWithin settings session.tick :=
  holds.emptied.handles rfl least visiting now session.inbox.events

theorem HoldsWithin.present (holds : session.HoldsWithin settings session.tick)
    (least : 0 ≤ settings.inputMinLead) (visiting : Visiting) (now : Nat) :
    ((session.handleAll visiting now).dropSilent visiting now).HoldsWithin settings session.tick :=
  dropSilent_eq _ visiting now ▸
    (holds.handleAll least visiting now).dismisses visiting now _

/-- Until the next tick is completed, every moment keeps to the window. -/
theorem HoldsWithin.moment (holds : session.HoldsWithin settings session.tick)
    (least : 0 ≤ settings.inputMinLead) (moment : session.Moment after) :
    after.HoldsWithin settings session.tick := by
  have begins : ∀ visiting now, (session.begun visiting now).HoldsWithin settings session.tick :=
    fun visiting now => (holds.present least visiting now).of_same rfl fun _ => rfl
  have released : ∀ visiting now, ((session.begun visiting now).releaseInputs visiting).HoldsWithin
      settings session.tick := fun visiting now => (begins visiting now).releases _
  have moves : ∀ visiting now, (session.moved visiting now).HoldsWithin settings session.tick :=
    fun visiting now => (released visiting now).of_same rfl fun _ => rfl
  cases moment with
  | between => exact holds
  | handling visiting now earlier later split =>
      exact holds.emptied.handles rfl least visiting now earlier
  | dismissing visiting now earlier later split =>
      exact (holds.handleAll least visiting now).dismisses visiting now earlier
  | releasing visiting now earlier later split => exact (begins visiting now).releases earlier
  | stepped visiting now => exact (released visiting now).of_same rfl fun _ => rfl
  | telling visiting now earlier later split => exact (moves visiting now).replicates earlier
  | told visiting now => exact ((moves visiting now).replicates _).of_same rfl fun _ => rfl

/-- With the next tick the window moves on, for all that is due by then has been released. -/
theorem HoldsWithin.runTick (holds : session.HoldsWithin settings session.tick)
    (least : 0 ≤ settings.inputMinLead)
    (goesOn : 0 < settings.inputMinLead ∨ session.tick ≠ Tick.last) (visiting : Visiting)
    (now : Nat) : (session.runTick visiting now).HoldsWithin settings (session.tick + 1) := by
  have present := holds.present least visiting now
  refine ⟨(session.follows_runTick visiting now).settings.trans holds.governed, ?_⟩
  intro client connection found
  rw [connection?_runTick] at found
  obtain ⟨moved, isMoved, rfl⟩ := Option.map_eq_some_iff.mp found
  rw [connection?_moved] at isMoved
  obtain ⟨held, isHeld, rfl⟩ := Option.map_eq_some_iff.mp isMoved
  rw [(informed_frame _ _ _).2, tick_dropSilent, tick_handleAll]
  exact (present.within client held isHeld).release_next goesOn

namespace Chronicle

/-- Between ticks what waits stays as it is, or its client goes. -/
theorem holdsWithin_act {chronicle : Chronicle}
    (holds : chronicle.session.HoldsWithin settings completed) {action : Action}
    (between : action.isTick = false) :
    (chronicle.act action).session.HoldsWithin settings completed := by
  cases action with
  | submit event =>
      change ((chronicle.session.submit event).toOption.getD chronicle.session).HoldsWithin _ _
      unfold submit
      cases chronicle.session.inbox.submit event with
      | error _ => exact holds
      | ok inbox => exact holds.of_same rfl fun _ => rfl
  | tick visiting now => cases between
  | teleport client position =>
      change ((chronicle.session.teleport? client position).getD chronicle.session).HoldsWithin _ _
      unfold teleport?
      split
      · exact holds
      · split
        · exact holds
        · rename_i world _
          have moved : ({ chronicle.session with world } : Session).HoldsWithin settings completed :=
            holds.of_same rfl fun _ => rfl
          exact moved.modifyConnection client _ (moved.within client)
  | giveUp visiting client fault => exact holds.disconnect visiting client (some fault)
  | invalidateChunk chunk =>
      refine holds.of_sequencers rfl fun client connection found => ?_
      have invalidated := (chronicle.session.connection?_invalidateChunk chunk client).symm.trans found
      obtain ⟨held, isHeld, rfl⟩ := Option.map_eq_some_iff.mp invalidated
      exact ⟨held, isHeld, rfl⟩
  | drain => exact holds.of_same rfl fun _ => rfl

theorem run_holdsWithin (settings : Settings) (map : TileMap) (actions : List Action)
    (least : 0 ≤ settings.inputMinLead)
    (countable : 0 < settings.inputMinLead ∨
      actions.countP (·.isTick) < 18446744073709551616) :
    (run settings map actions).session.HoldsWithin settings
      (run settings map actions).session.tick := by
  induction actions using List.reverseRecOn with
  | nil =>
      refine ⟨rfl, fun client connection found => ?_⟩
      have empty : (ofSettings settings map).connection? client = none := Std.HashMap.getElem?_empty
      exact nomatch empty.symm.trans found
  | append_singleton earlier action ih =>
      have count : (earlier ++ [action]).countP (·.isTick) =
          earlier.countP (·.isTick) + if action.isTick then 1 else 0 := by
        rw [List.countP_append, List.countP_singleton]
      have holds := ih (countable.imp_right fun few => by omega)
      have before := tick_run settings map earlier
      rw [tick_run, count, run_append]
      cases isTick : action.isTick with
      | false =>
          rw [if_neg Bool.false_ne_true, Nat.add_zero, ← before]
          exact holdsWithin_act holds isTick
      | true =>
          cases action with
          | tick visiting now =>
              rw [if_pos rfl, UInt64.ofNat_add, ← before]
              refine holds.runTick least (countable.imp_right fun few isLast => ?_) visiting now
              rw [count, if_pos isTick] at few
              have number := congrArg UInt64.toNat (before.symm.trans isLast)
              rw [UInt64.toNat_ofNat', Nat.mod_eq_of_lt (Nat.lt_of_succ_lt few)] at number
              change earlier.countP (·.isTick) = 18446744073709551615 at number
              omega
          | _ => cases isTick

/-- In every run with valid settings and at every moment of it, in the middle of the events of a tick
as between two ticks, all that waits for a client is for ticks from the one completed last up to the
greatest lead after it. So there is no more of it than that many ticks and one, however much the client
sends. Ticks have to have numbers of their own for this, unless the settings ask for a lead. -/
theorem run_waits_within_window (settings : Settings) (map : TileMap) (actions : List Action)
    (valid : settings.fault? = none)
    (countable : 0 < settings.inputMinLead ∨
      actions.countP (·.isTick) < 18446744073709551616) :
    let session := (run settings map actions).session
    ∀ moment, session.Moment moment → ∀ client connection,
      moment.connection? client = some connection →
        (∀ entry ∈ connection.sequencer.pending,
          session.tick.toNat ≤ entry.1.toNat ∧
          (entry.1.toNat : Int) ≤ session.tick.toNat + settings.inputMaxLead.toInt) ∧
        (connection.sequencer.pending.length : Int) ≤ settings.inputMaxLead.toInt + 1 := by
  intro session moment isMoment client connection found
  have least := settings.inputMinLead_nonneg valid
  have holds := run_holdsWithin settings map actions least countable
  have within := (holds.moment least isMoment).within client connection found
  refine ⟨fun entry held => ⟨?_, within.greatest entry held⟩, ?_⟩
  · exact UInt64.le_iff_toNat_le.mp (within.least entry held)
  · exact within.length_le (settings.inputMaxLead_nonneg valid)

/-- An input that is accepted waits once it is handled. -/
theorem pending_handle_input {client : ClientId} {connection : Connection}
    (found : session.connection? client = some connection) {tick : Tick} {keys : Keys}
    {sequencer : Sequencer}
    (accepted : connection.sequencer.receive session.tick tick keys = .ok (.accepted, sequencer))
    (visiting : Visiting) (now : Nat) (bytes : UInt64) :
    ∃ later,
      (session.handle visiting now ⟨client, .message (.input tick keys), bytes⟩).connection? client =
        some later ∧
      later.sequencer.pending =
        Sequencer.insertPending (tick, keys) connection.sequencer.pending := by
  obtain ⟨counted, isCounted, held, taken⟩ :=
    handle_message_of_connected found visiting now (.input tick keys) bytes
  have answer : (connection.recordReceived bytes now).sequencer.receive counted.tick tick keys =
      .ok (.accepted, sequencer) := by
    rw [isCounted]
    exact accepted
  have stands : counted.desk? client = some ⟨connection.sequencer.rules,
      connection.sequencer.pending, (counted.world.get? connection.entity).map (·.keys)⟩ :=
    congrArg _ held
  rw [taken]
  obtain ⟨_, far, -⟩ | ⟨_, -, put⟩ | ⟨_, _, dropped, -⟩ :=
    desk?_receiveInput held stands visiting tick keys
  · exact nomatch answer.symm.trans far
  · obtain ⟨later, isLater, same⟩ := Option.map_eq_some_iff.mp put
    exact ⟨later, isLater, congrArg Desk.pending same⟩
  · exact nomatch answer.symm.trans dropped

/-- After its first tick nothing is held for the first client, and no event waits. -/
theorem connection?_firstClient (settings : Settings) (map : TileMap)
    (room : 0 < settings.maxConnections)
    (numbered : (run settings map firstClient).session.world.places ≤ 4294967296) :
    (run settings map firstClient).session.tick = 1 ∧
      (run settings map firstClient).session.inbox = .ofCapacity Inbox.standardCapacity ∧
      ∃ connection, (run settings map firstClient).session.connection? ⟨0⟩ = some connection ∧
        connection.sequencer = .ofRules settings.sequencerRules := by
  -- the run is one turn, and both have to be opaque where they are compared
  obtain ⟨joining, isJoining⟩ : ∃ joining : InboundEvent, joining =
    ⟨⟨0⟩, .connected (.v4 #v[127, 0, 0, 1] 4000), 0⟩ := ⟨_, rfl⟩
  obtain ⟨joined, isJoined⟩ : ∃ joined, joined = (run settings map firstClient).session := ⟨_, rfl⟩
  have wasTurned : joined = (turn joining).foldl actOn (ofSettings settings map) := by
    rw [isJoined, isJoining]
    exact session_foldl_act ..
  rw [← isJoined] at numbered ⊢
  obtain ⟨connection, fresh, isIn⟩ := connection?_firstInput settings map room
    (.v4 #v[127, 0, 0, 1] 4000)
  have isHandled : ((ofSettings settings map).handle .ascending 0 joining).connection? ⟨0⟩ =
      some connection := isJoining ▸ isIn
  obtain ⟨one, idle, ⟨told, isTold, kept⟩, -⟩ := turn_spec (ofSettings settings map) joining rfl
    (ofSettings_keepsCensus settings map) (wasTurned ▸ numbered) isHandled
  rw [← wasTurned] at one idle isTold
  have begun : (ofSettings settings map).tick = 0 := tick_run settings map []
  refine ⟨one.trans (congrArg (· + 1) begun), idle, told, isTold, ?_⟩
  rw [kept, fresh]
  rfl

/-- What the first client says in its second tick. -/
def said (tick : Tick) (keys : Keys) : InboundEvent := ⟨⟨0⟩, .message (.input tick keys), 0⟩

/-- An input that the sequencer of the first client accepts waits once it is handled, and the tick has
not begun yet. -/
theorem pending_said (settings : Settings) (map : TileMap) {tick : Tick} {keys : Keys}
    (room : 0 < settings.maxConnections)
    (numbered : (run settings map firstClient).session.world.places ≤ 4294967296)
    {sequencer : Sequencer} (accepted : (Sequencer.ofRules settings.sequencerRules).receive 1 tick
      keys = .ok (.accepted, sequencer)) :
    let session := (run settings map (firstClient ++ [.submit (said tick keys)])).session
    session.tick = 1 ∧ ∃ moment, session.Moment moment ∧
      ∃ connection, moment.connection? ⟨0⟩ = some connection ∧
        connection.sequencer.pending = [(tick, keys)] := by
  intro session
  obtain ⟨isFirst, idle, told, isTold, unmoved⟩ :=
    connection?_firstClient settings map room numbered
  obtain ⟨joined, isJoined⟩ : ∃ joined, joined = (run settings map firstClient).session := ⟨_, rfl⟩
  have isSession : session = actOn joined (.submit (said tick keys)) := by
    rw [isJoined]
    exact congrArg Chronicle.session (run_append settings map firstClient [.submit (said tick keys)])
  rw [← isJoined] at isFirst idle isTold
  have submitted : actOn joined (.submit (said tick keys)) =
      { joined with inbox := ⟨.atLeastOne Inbox.standardCapacity, [said tick keys], true⟩ } := by
    unfold actOn submit
    rw [idle]
    rfl
  rw [isSession, submitted]
  -- it is the only event that waits for the second tick
  refine ⟨isFirst, _, .handling .ascending 0 [said tick keys] [] rfl, ?_⟩
  have answer : told.sequencer.receive joined.tick tick keys = .ok (.accepted, sequencer) := by
    rw [unmoved, isFirst]
    exact accepted
  have isStill : ({ joined with inbox := (Inbox.mk (.atLeastOne Inbox.standardCapacity)
      [said tick keys] true).drain.2 } : Session).connection? ⟨0⟩ = some told := isTold
  obtain ⟨later, isLater, put⟩ := pending_handle_input isStill answer .ascending 0 0
  refine ⟨later, isLater, put.trans ?_⟩
  rw [unmoved]
  rfl

/-- Under standard settings the first client may say in its second tick what keys it will hold three
ticks after the one completed last. -/
theorem farthest_input_waits :
    let session := (run .standard ⟨16, fun _ => []⟩
      (firstClient ++ [.submit (said 4 (Keys.neutral.press .right))])).session
    Settings.standard.fault? = none ∧ 0 < Settings.standard.inputMinLead ∧ session.tick = 1 ∧
    ∃ moment, session.Moment moment ∧ ∃ connection, moment.connection? ⟨0⟩ = some connection ∧
      connection.sequencer.pending = [(4, Keys.neutral.press .right)] ∧
      (4 : Int) ≤ session.tick.toNat + Settings.standard.inputMaxLead.toInt ∧
      (connection.sequencer.pending.length : Int) ≤ Settings.standard.inputMaxLead.toInt + 1 := by
  intro session
  have valid : Settings.standard.fault? = none := by decide +kernel
  have positive : 0 < Settings.standard.inputMinLead := by decide
  have numbered : (run .standard ⟨16, fun _ => []⟩ firstClient).session.world.places ≤ 4294967296 :=
    Nat.le_trans (places_run_le ..) (by decide)
  obtain ⟨isFirst, moment, isMoment, connection, found, pending⟩ := pending_said .standard
    ⟨16, fun _ => []⟩ (by decide) numbered
    (show (Sequencer.ofRules Settings.standard.sequencerRules).receive 1 4
      (Keys.neutral.press .right) = .ok (.accepted, _) from rfl)
  obtain ⟨within, few⟩ := run_waits_within_window .standard ⟨16, fun _ => []⟩
    (firstClient ++ [.submit (said 4 (Keys.neutral.press .right))]) valid (Or.inl positive) moment
    isMoment ⟨0⟩ connection found
  have member : (4, Keys.neutral.press .right) ∈ connection.sequencer.pending := by
    rw [pending]
    exact List.mem_cons_self
  exact ⟨valid, positive, isFirst, moment, isMoment, connection, found, pending,
    (within _ member).2, few⟩

end Chronicle

end Session

end Overworld
