import Overworld.Proofs.Bookkeeping.Steps
import Overworld.Proofs.Session.Dismissal
import Overworld.Proofs.Session.Run

set_option autoImplicit false

/-!
The books over whole runs of a session. Beside the run goes a record of the connections that have
ended and of the inputs that were settled, and the counters account for every message and every input.
-/

namespace Overworld

namespace Sequencer

variable {sequencer received : Sequencer} {server tick : Tick} {keys : Keys}

theorem count_sample (sequencer : Sequencer) (server : Tick) (lead : Int64) :
    (sequencer.sample server lead).stats.count = sequencer.stats.count := by
  unfold sample
  split
  · rfl
  · dsimp only
    split
    · rfl
    · split
      · rfl
      · funext outcome
        rcases outcome with _ | (_ | _ | _) <;> rfl

theorem count_receive {admission : Admission}
    (success : sequencer.receive server tick keys = .ok (admission, received)) (outcome : Admission) :
    received.stats.count outcome =
      sequencer.stats.count outcome + if admission = outcome then 1 else 0 := by
  unfold receive at success
  split at success
  · cases success
  · rename_i lead _
    rw [← count_sample sequencer server lead, ← SequencerStats.count_record]
    dsimp only at success
    split at success <;> cases success <;> rfl

theorem count_observe (success : sequencer.observe server tick = .ok received) :
    received.stats.count = sequencer.stats.count := by
  unfold observe at success
  split at success
  · cases success
  · rename_i lead _
    cases success
    exact count_sample sequencer server lead

end Sequencer

namespace Session

variable {session before after : Session} {earlier : List Outbound} {notes : List Note}
  {client : ClientId}

/-- The note of a connection that a step has ended. -/
def partingNote (before after : Session) (client : ClientId) : List Note :=
  match before.connection? client with
  | none => []
  | some connection =>
    if after.isConnected client then [] else [.departed connection.sequencer.stats]

/-- The note of an input of a connected client that does not end in a desync. -/
def settledNote (session : Session) (client : ClientId) : ClientMessage → List Note
  | .input tick keys =>
    match session.connection? client with
    | none => []
    | some connection =>
      match connection.sequencer.receive session.tick tick keys with
      | .error _ => []
      | .ok _ => [.settled]
  | .heartbeat _ | .disconnect => []

def eventNotes (visiting : Visiting) (now : Nat) (session : Session) (event : InboundEvent) :
    List Note :=
  partingNote session (session.handle visiting now event) event.client ++
    match event.kind with
    | .message message => settledNote session event.client message
    | _ => []

/-- What goes on record while a session is taken through one step after the other. -/
def notesAlong {α : Type} (step : Session → α → Session) (note : Session → α → List Note) :
    Session → List α → List Note
  | _, [] => []
  | session, item :: rest => note session item ++ notesAlong step note (step session item) rest

namespace Chronicle

/-- The events of a tick are noted, and then the connections that were silent for too long. -/
def notesOf (session : Session) : Action → List Note
  | .tick visiting now =>
    let handled := session.handleAll visiting now
    notesAlong (handle visiting now) (eventNotes visiting now)
        { session with inbox := session.inbox.drain.2 } session.inbox.drain.1 ++
      notesAlong (dismiss visiting now)
        (fun session leaver => partingNote session (dismiss visiting now session leaver) leaver.client)
        handled (handled.leavers visiting now)
  | .giveUp visiting client fault => partingNote session (session.giveUp visiting client fault) client
  | .submit _ | .teleport .. | .invalidateChunk _ | .drain => []

/-- All that goes on record while a session is taken through actions. -/
def record : Session → List Action → List Note
  | _, [] => []
  | session, action :: rest => notesOf session action ++ record (actOn session action) rest

end Chronicle

theorem partingNote_of_absent (absent : before.connection? client = none) (after : Session) :
    partingNote before after client = [] := by
  unfold partingNote
  rw [absent]

theorem partingNote_of_stays (stays : after.isConnected client = true) (before : Session) :
    partingNote before after client = [] := by
  unfold partingNote
  split
  · rfl
  · rw [if_pos stays]

theorem partingNote_of_gone {connection : Connection}
    (found : before.connection? client = some connection)
    (gone : after.connection? client = none) :
    partingNote before after client = [.departed connection.sequencer.stats] := by
  have out := connection?_eq_none_iff.mp gone
  unfold partingNote
  rw [found]
  dsimp only
  rw [out, if_neg Bool.false_ne_true]

theorem Balances.tellLeft (balances : session.Balances earlier notes) (gone : EntityId)
    (client : ClientId) : (session.tellLeft gone client).Balances earlier notes := by
  unfold Session.tellLeft
  split
  · exact balances
  · split
    · have forgets := balances.modifyConnection client
        (fun connection =>
          { connection with
            interest := connection.interest.forget gone
            observed := connection.observed.erase gone }) fun _ _ => rfl
      have message : (ServerMessage.entityLeft session.tick gone).isWelcome = false := rfl
      exact forgets.tell client message
    · exact balances

theorem Balances.disconnect (balances : session.Balances earlier notes) (visiting : Visiting)
    (client : ClientId) (fault : Option ConnectionFault) :
    (session.disconnect visiting client fault).Balances earlier
      (notes ++ partingNote session (session.disconnect visiting client fault) client) := by
  cases found : session.connection? client with
  | none =>
      rw [disconnect_of_unknown found, partingNote_of_absent found, List.append_nil]
      exact balances
  | some connection =>
      have gone := (connection?_disconnect found visiting fault client).trans (if_pos rfl)
      rw [partingNote_of_gone found gone]
      obtain ⟨parted, told, removed, isParted, isTold, isRemoved, left⟩ :=
        disconnect_cases found visiting fault
      rw [left]
      have partedBalances : parted.Balances earlier
          (notes ++ [.departed connection.sequencer.stats]) := by
        rw [isParted]
        exact balances.erase found
      have toldBalances : told.Balances earlier (notes ++ [.departed connection.sequencer.stats]) := by
        rcases isTold with ⟨-, rfl⟩ | ⟨reason, -, rfl⟩
        · exact partedBalances
        · have message : (ServerMessage.kicked reason.message).isWelcome = false := rfl
          exact partedBalances.tell client message
      have removedBalances : removed.Balances earlier
          (notes ++ [.departed connection.sequencer.stats]) := by
        rcases isRemoved with ⟨-, rfl⟩ | ⟨entity, world, -, rfl⟩
        · exact toldBalances.close client
        · exact (toldBalances.close client).withWorld world
      exact List.foldlRecOn (motive := fun later : Session => later.Balances earlier
        (notes ++ [.departed connection.sequencer.stats])) _ _ removedBalances
        fun later balances other _ => balances.tellLeft connection.entity other

theorem Balances.connect (balances : session.Balances earlier notes) (client : ClientId)
    (endpoint : Endpoint) (now : Nat) :
    (session.connect client endpoint now).Balances earlier
      (notes ++ partingNote session (session.connect client endpoint now) client) := by
  obtain ⟨isIn, same⟩ | ⟨free, -, refused⟩ |
    ⟨free, -, place, random, entity, world, joined, -, -, isJoined, accepted⟩ :=
    session.connect_cases client endpoint now
  · rw [same, partingNote_of_stays isIn, List.append_nil]
    exact balances
  · rw [partingNote_of_absent (connection?_eq_none_iff.mpr free), List.append_nil, refused]
    have message : (ServerMessage.kicked
      (ConnectionFault.serverFull session.settings.maxConnections).message).isWelcome = false := rfl
    exact (balances.tell client message).close client
  · have absent := connection?_eq_none_iff.mpr free
    rw [partingNote_of_absent absent, List.append_nil, accepted]
    exact balances.welcome absent rfl rfl (by rw [isJoined]) (by rw [isJoined]) (by rw [isJoined])
      world.tick entity place

theorem Balances.withSequencer (balances : session.Balances earlier notes) {connection : Connection}
    (found : session.connection? client = some connection) {sequencer : Sequencer}
    (same : sequencer.stats.count = connection.sequencer.stats.count) :
    (session.modifyConnection client fun connection =>
      { connection with sequencer }).Balances earlier notes := by
  refine balances.modifyConnection client _ fun held isHeld => ?_
  rw [found] at isHeld
  cases isHeld
  exact congrArg (Prod.mk connection.messagesSent) same

theorem Balances.sendAdjustment (balances : session.Balances earlier notes) (client : ClientId) :
    (session.sendAdjustment client).Balances earlier notes := by
  unfold Session.sendAdjustment
  split
  · exact balances
  · rename_i connection found
    have taken : (session.modifyConnection client fun held =>
        { held with sequencer := connection.sequencer.takeAdjustment.2 }).Balances earlier notes :=
      balances.withSequencer found rfl
    dsimp only
    split
    · exact taken
    · rename_i delta _
      have message : (ServerMessage.tickAdjustment delta).isWelcome = false := rfl
      exact taken.tell client message

theorem isConnected_sendAdjustment (session : Session) (client other : ClientId) :
    (session.sendAdjustment client).isConnected other = session.isConnected other := by
  unfold Session.sendAdjustment
  split
  · rfl
  · dsimp only
    split
    · exact Std.HashMap.contains_modify
    · exact Std.HashMap.contains_modify.trans Std.HashMap.contains_modify

/-- What a connected client has to say is settled, or it ends the connection. -/
theorem Balances.receive (balances : session.Balances earlier notes) {connection : Connection}
    (found : session.connection? client = some connection) (visiting : Visiting)
    (message : ClientMessage) :
    (session.receive visiting client message).Balances earlier
      (notes ++ (partingNote session (session.receive visiting client message) client ++
        settledNote session client message)) := by
  have isIn := isConnected_of_connection? found
  cases message with
  | disconnect =>
      rw [settledNote, List.append_nil]
      exact balances.disconnect visiting client none
  | input tick keys =>
      unfold settledNote
      rw [found]
      unfold Session.receive receiveInput
      rw [found]
      dsimp only
      cases received : connection.sequencer.receive session.tick tick keys with
      | error fault =>
          dsimp only
          rw [List.append_nil]
          exact balances.disconnect visiting client _
      | ok answer =>
          obtain ⟨admission, sequencer⟩ := answer
          have admitted := (balances.settle found (Sequencer.count_receive received)
            connection.entity).sendAdjustment client
          dsimp only
          rw [partingNote_of_stays, List.nil_append]
          · exact admitted
          · rw [isConnected_sendAdjustment]
            cases admission <;> exact Std.HashMap.contains_modify.trans isIn
  | heartbeat tick =>
      rw [settledNote, List.append_nil]
      unfold Session.receive receiveHeartbeat
      rw [found]
      dsimp only
      cases observed : connection.sequencer.observe session.tick tick with
      | error fault => exact balances.disconnect visiting client _
      | ok sequencer =>
          have sampled := (balances.withSequencer found
            (Sequencer.count_observe observed)).sendAdjustment client
          dsimp only
          rw [partingNote_of_stays, List.append_nil]
          · exact sampled
          · rw [isConnected_sendAdjustment]
            exact Std.HashMap.contains_modify.trans isIn

theorem Balances.handle (balances : session.Balances earlier notes) (visiting : Visiting) (now : Nat)
    (event : InboundEvent) :
    (session.handle visiting now event).Balances earlier
      (notes ++ eventNotes visiting now session event) := by
  obtain ⟨client, kind, bytes⟩ := event
  unfold eventNotes
  cases kind with
  | connected endpoint =>
      dsimp only
      rw [List.append_nil]
      exact balances.connect client endpoint now
  | disconnected =>
      dsimp only
      rw [List.append_nil]
      exact balances.disconnect visiting client none
  | message message =>
      dsimp only
      cases found : session.connection? client with
      | none =>
          have nothing : settledNote session client message = [] := by
            cases message <;> simp [settledNote, found]
          rw [handle_message_of_unknown found, partingNote_of_absent found, nothing, List.append_nil,
            List.append_nil]
          exact balances
      | some connection =>
          obtain ⟨counted, isCounted, held, handled⟩ :=
            handle_message_of_connected found visiting now message bytes
          have countedBalances : counted.Balances earlier notes := by
            rw [isCounted]
            refine balances.of_same (Metrics.isTrueTo_recordReceived _ bytes) rfl ?_
            exact session.map_modifyConnection client _ (·.ledger) fun _ _ => rfl
          have sameParting : ∀ after, partingNote counted after client =
              partingNote session after client := by
            intro after
            unfold partingNote
            rw [held, found]
            rfl
          have sameSettled : settledNote counted client message =
              settledNote session client message := by
            have sameTick : counted.tick = session.tick := isCounted ▸ rfl
            unfold settledNote
            rw [held, found, sameTick]
            rfl
          rw [handled, ← sameParting, ← sameSettled]
          exact countedBalances.receive held visiting message

theorem Balances.dismiss (balances : session.Balances earlier notes) (visiting : Visiting)
    (now : Nat) (leaver : Connection) :
    (Session.dismiss visiting now session leaver).Balances earlier
      (notes ++ partingNote session (Session.dismiss visiting now session leaver) leaver.client) :=
  have isTrue : (session.metrics.tally .connectionsTimedOut).IsTrueTo session.metrics :=
    Metrics.isTrueTo_set (by decide) _ _
  (balances.withMetrics isTrue).disconnect visiting leaver.client _

theorem Balances.along {α : Type} {step : Session → α → Session} {note : Session → α → List Note}
    (one : ∀ {session : Session} {notes : List Note}, session.Balances earlier notes →
      ∀ item, (step session item).Balances earlier (notes ++ note session item))
    (items : List α) (balances : session.Balances earlier notes) :
    (items.foldl step session).Balances earlier (notes ++ notesAlong step note session items) := by
  induction items generalizing session notes with
  | nil =>
      rw [notesAlong, List.append_nil]
      exact balances
  | cons item rest ih =>
      rw [notesAlong, ← List.append_assoc]
      exact ih (one balances item)

theorem Balances.releaseFor (balances : session.Balances earlier notes) (client : ClientId) :
    (session.releaseFor client).Balances earlier notes := by
  unfold Session.releaseFor
  split
  · exact balances
  · rename_i connection found
    have released : (connection.sequencer.release session.tick).2.stats.count =
        connection.sequencer.stats.count := rfl
    exact (balances.withSequencer found released).withWorld _

theorem Balances.releaseInputs (balances : session.Balances earlier notes) (visiting : Visiting) :
    (session.releaseInputs visiting).Balances earlier notes :=
  List.foldlRecOn (motive := fun later : Session => later.Balances earlier notes) _ _ balances
    fun _ balances client _ => balances.releaseFor client

theorem ledger_replicate (connection : Connection) (world : World) (map : TileMap) :
    (connection.replicate world map).connection.ledger = connection.ledger := by
  unfold Connection.replicate
  split <;> rfl

theorem Balances.replicateFor (balances : session.Balances earlier notes) (client : ClientId) :
    (session.replicateFor client).Balances earlier notes := by
  unfold Session.replicateFor
  split
  · exact balances
  · rename_i connection found
    have turned : (session.modifyConnection client fun _ =>
        (connection.replicate session.world session.map).connection).Balances earlier notes := by
      refine balances.modifyConnection client _ fun held isHeld => ?_
      rw [found] at isHeld
      cases isHeld
      exact ledger_replicate connection session.world session.map
    exact turned.tellAll client
      (connection.isWelcome_of_mem_replicate session.world session.map)
      (·.recordReplication (connection.replicate session.world session.map))
      (session.metrics.get_recordReplication connection session.world session.map)
      (session.metrics.outcomes_recordReplication _)

theorem Balances.replicate (balances : session.Balances earlier notes) (visiting : Visiting) :
    (session.replicate visiting).Balances earlier notes :=
  List.foldlRecOn (motive := fun later : Session => later.Balances earlier notes) _ _ balances
    fun _ balances client _ => balances.replicateFor client

theorem Balances.recordLevels (balances : session.Balances earlier notes) :
    session.recordLevels.Balances earlier notes := by
  refine balances.withMetrics ?_
  have set {counter : Counter} (free : counter ∉ Counter.booked) (metrics : Metrics)
      (value : UInt64) := Metrics.isTrueTo_set free metrics value
  exact (set (by decide) _ _).trans ((set (by decide) _ _).trans
    ((set (by decide) _ _).trans (set (by decide) _ _)))

theorem Balances.runTick (balances : session.Balances earlier notes) (visiting : Visiting)
    (now : Nat) :
    (session.runTick visiting now).Balances earlier
      (notes ++ Chronicle.notesOf session (.tick visiting now)) := by
  have emptied : ({ session with inbox := session.inbox.drain.2 } : Session).Balances earlier notes :=
    balances.of_same (.refl _) rfl fun _ => rfl
  have handled := emptied.along (fun balances event => balances.handle visiting now event)
    session.inbox.drain.1
  have present := handled.along (fun balances leaver => balances.dismiss visiting now leaver)
    ((session.handleAll visiting now).leavers visiting now)
  rw [List.append_assoc] at present
  have ready := (present.onWorld World.beginTick).releaseInputs visiting
  have told := (ready.onWorld fun world => world.step.syncGrid).replicate visiting
  exact (told.onWorld World.clearDirty).recordLevels

theorem Balances.submit (balances : session.Balances earlier notes) (event : InboundEvent) :
    ((session.submit event).toOption.getD session).Balances earlier notes := by
  unfold Session.submit
  cases session.inbox.submit event with
  | error _ => exact balances
  | ok inbox => exact balances.of_same (.refl _) rfl fun _ => rfl

theorem Balances.teleport? (balances : session.Balances earlier notes) (client : ClientId)
    (position : Vec3) :
    ((session.teleport? client position).getD session).Balances earlier notes := by
  unfold Session.teleport?
  split
  · exact balances
  · split
    · exact balances
    · exact (balances.withWorld _).modifyConnection client _ fun _ _ => rfl

theorem Balances.invalidateChunk (balances : session.Balances earlier notes)
    (chunk : ChunkPosition) : (session.invalidateChunk chunk).Balances earlier notes := by
  refine balances.of_same (.refl _) rfl fun client => ?_
  rw [connection?_invalidateChunk, Option.map_map]
  rfl

namespace Chronicle

theorem balances_act {chronicle : Chronicle}
    (balances : chronicle.session.Balances chronicle.taken notes) (action : Action) :
    (chronicle.act action).session.Balances (chronicle.act action).taken
      (notes ++ notesOf chronicle.session action) := by
  cases action with
  | submit event =>
      rw [notesOf, List.append_nil]
      exact balances.submit event
  | tick visiting now => exact balances.runTick visiting now
  | teleport client position =>
      rw [notesOf, List.append_nil]
      exact balances.teleport? client position
  | giveUp visiting client fault => exact balances.disconnect visiting client (some fault)
  | invalidateChunk chunk =>
      rw [notesOf, List.append_nil]
      exact balances.invalidateChunk chunk
  | drain =>
      rw [notesOf, List.append_nil]
      exact balances.drain

theorem start_balances (settings : Settings) (map : TileMap) :
    (ofSettings settings map).Balances [] [] := by
  have absent : ∀ client, (ofSettings settings map).connection? client = none := fun client => by
    simp [connection?, ofSettings]
  refine ⟨fun message => Metrics.get_zero _, fun outcome => ?_, ?_, fun client connection found => ?_⟩
  · rw [List.filterMap_nil, List.nil_append,
      sum_stats _ outcome ∅ fun client isIn => by simp [isConnected_eq, absent] at isIn]
    exact Metrics.get_zero _
  · change Metrics.zero.get _ + Metrics.zero.inputsDropped = _
    unfold Metrics.inputsDropped
    simp only [Metrics.get_zero]
    rfl
  · rw [absent] at found
    cases found

/-- In every run of a session the counters account for every message and every input. Inputs accepted,
and those dropped for each reason, are the sums of what the sequencers of all connections have counted,
of those that have ended as of those that live, and together they are the inputs of connected clients
that did not end in a desync. The counter of each kind of message tells how many of the kind were ever
queued, and a connection that lives has counted what its client was sent since it was welcomed. -/
theorem run_balances (settings : Settings) (map : TileMap) (actions : List Action) :
    (run settings map actions).session.Balances (run settings map actions).taken
      (record (ofSettings settings map) actions) := by
  suffices every : ∀ (chronicle : Chronicle) (notes : List Note),
      chronicle.session.Balances chronicle.taken notes →
      (actions.foldl act chronicle).session.Balances (actions.foldl act chronicle).taken
        (notes ++ record chronicle.session actions) from
    every (start settings map) [] (start_balances settings map)
  induction actions with
  | nil =>
      intro chronicle notes balances
      rw [record, List.append_nil]
      exact balances
  | cons action rest ih =>
      intro chronicle notes balances
      rw [record, ← List.append_assoc]
      exact ih (chronicle.act action) _ (balances_act balances action)

end Chronicle

end Session

end Overworld
