import Overworld.Proofs.Bookkeeping.Basic
import Overworld.Proofs.Session.Parting

set_option autoImplicit false

/-!
The books of a session balance at every moment: each step that queues a message or settles an input
counts it, once, and the counts of a connection go on record when it ends.
-/

namespace Overworld

/-- What is put on record beside a session. -/
inductive Note
  /-- A connection has ended; this is what its sequencer had counted. -/
  | departed (stats : SequencerStats)
  /-- An input of a connected client has not ended in a desync. -/
  | settled
deriving DecidableEq

def Note.departed? : Note → Option SequencerStats
  | .departed stats => some stats
  | .settled => none

/-- What the books know of a connection. -/
def Connection.ledger (connection : Connection) : UInt64 × (Admission → UInt64) :=
  (connection.messagesSent, connection.sequencer.stats.count)

namespace Session

/-- The counters, the queue and the connections agree: `earlier` was taken from the queue before, and
`notes` tell of the connections that are no more and of the inputs that were settled. -/
structure Balances (session : Session) (earlier : List Outbound) (notes : List Note) : Prop where
  kinds : ∀ message : ServerMessage, session.metrics.get message.counter =
    .ofNat (countFor message.counter (earlier ++ session.outbound.toList))
  outcomes : ∀ outcome : Admission, session.metrics.get outcome.counter =
    ((notes.filterMap Note.departed? ++ session.stats).map (·.count outcome)).sum
  settled : session.metrics.get .inputsAccepted + session.metrics.inputsDropped =
    .ofNat (notes.count .settled)
  sent : ∀ client connection, session.connection? client = some connection →
    connection.messagesSent = .ofNat (session.feed earlier client).length

variable {session before after : Session} {earlier : List Outbound} {notes : List Note}
  {client : ClientId}

theorem countOf_of_ledger
    (same : (after.connection? client).map (·.ledger) = (before.connection? client).map (·.ledger))
    (outcome : Admission) : after.countOf outcome client = before.countOf outcome client := by
  have counts := congrArg (Option.map fun ledger => ledger.2 outcome) same
  rw [Option.map_map, Option.map_map] at counts
  exact congrArg (Option.getD · 0) counts

/-- Whatever else a step does, the counters, the queue and what the books know of each connection stay
as they are. -/
theorem Balances.of_same (balances : before.Balances earlier notes)
    (metrics : after.metrics.IsTrueTo before.metrics) (outbound : after.outbound = before.outbound)
    (ledger : ∀ client,
      (after.connection? client).map (·.ledger) = (before.connection? client).map (·.ledger)) :
    after.Balances earlier notes where
  kinds message := by
    rw [metrics.kinds, outbound]
    exact balances.kinds message
  outcomes outcome := by
    rw [metrics.outcomes, balances.outcomes, List.map_append, List.sum_append, List.map_append,
      List.sum_append, sum_stats_congr fun client => countOf_of_ledger (ledger client) outcome]
  settled := (Metrics.inputs_congr metrics.outcomes).trans balances.settled
  sent client connection found := by
    have same := ledger client
    rw [found, Option.map_some] at same
    obtain ⟨held, isHeld, isLedger⟩ := Option.map_eq_some_iff.mp same.symm
    unfold feed
    rw [outbound]
    exact (congrArg Prod.fst isLedger).symm.trans (balances.sent client held isHeld)

theorem Balances.withMetrics (balances : session.Balances earlier notes) {metrics : Metrics}
    (isTrue : metrics.IsTrueTo session.metrics) :
    ({ session with metrics } : Session).Balances earlier notes :=
  balances.of_same isTrue rfl fun _ => rfl

theorem Balances.withWorld (balances : session.Balances earlier notes) (world : World) :
    ({ session with world } : Session).Balances earlier notes :=
  balances.of_same (.refl _) rfl fun _ => rfl

theorem Balances.onWorld (balances : session.Balances earlier notes) (change : World → World) :
    (session.onWorld change).Balances earlier notes :=
  balances.withWorld _

theorem Balances.modifyConnection (balances : session.Balances earlier notes) (client : ClientId)
    (change : Connection → Connection)
    (same : ∀ connection, session.connection? client = some connection →
      (change connection).ledger = connection.ledger) :
    (session.modifyConnection client change).Balances earlier notes :=
  balances.of_same (.refl _) rfl (session.map_modifyConnection client change (·.ledger) same)

theorem messagesSent_recordSents (messages : List ServerMessage) (connection : Connection) :
    (messages.foldl (fun connection _ => connection.recordSent) connection).messagesSent =
      connection.messagesSent + .ofNat messages.length := by
  induction messages generalizing connection with
  | nil => exact (UInt64.add_zero _).symm
  | cons message rest ih =>
      rw [List.foldl_cons, ih, List.length_cons, Nat.add_comm, UInt64.ofNat_add, ← UInt64.add_assoc]
      rfl

theorem frame_sendAll (session : Session) (client : ClientId) (messages : List ServerMessage) :
    (session.sendAll client messages).metrics = session.metrics ∧
      ∀ outcome other, (session.sendAll client messages).countOf outcome other =
        session.countOf outcome other := by
  refine ⟨?_, fun outcome other => ?_⟩
  · unfold sendAll
    induction messages generalizing session with
    | nil => rfl
    | cons message rest ih => exact ih (session.send client message)
  · unfold countOf
    rw [connection?_sendAll]
    split
    · rw [Option.map_map]
      refine congrArg (fun counts => Option.getD (Option.map counts _) 0) (funext fun connection => ?_)
      obtain ⟨sent, counted⟩ := exists_recordSents messages connection
      simp only [Function.comp_apply, counted]
    · rfl

/-- Messages are queued, each is counted for its kind, and inputs are of no account. -/
theorem Balances.tellAll (balances : session.Balances earlier notes) (client : ClientId)
    {messages : List ServerMessage} (ordinary : ∀ message ∈ messages, message.isWelcome = false)
    (change : Metrics → Metrics)
    (kinds : ∀ message : ServerMessage, (change session.metrics).get message.counter =
      session.metrics.get message.counter +
        .ofNat (messages.countP fun other => other.counter = message.counter))
    (outcomes : ∀ outcome : Admission,
      (change session.metrics).get outcome.counter = session.metrics.get outcome.counter) :
    ((session.onMetrics change).sendAll client messages).Balances earlier notes := by
  obtain ⟨metrics, counts⟩ := (session.onMetrics change).frame_sendAll client messages
  refine ⟨fun message => ?_, fun outcome => ?_, ?_, fun other connection found => ?_⟩
  · rw [metrics, outbound_sendAll, outbound_onMetrics, ← List.append_assoc, countFor_append,
      countFor_messages, UInt64.ofNat_add, ← balances.kinds]
    exact kinds message
  · rw [metrics, List.map_append, List.sum_append, sum_stats_congr fun other => counts outcome other]
    refine (outcomes outcome).trans ((balances.outcomes outcome).trans ?_)
    rw [List.map_append, List.sum_append]
    rfl
  · rw [metrics]
    exact (Metrics.inputs_congr outcomes).trans balances.settled
  · rw [connection?_sendAll] at found
    rw [feed_sendAll _ _ _ _ ordinary]
    by_cases isClient : client = other
    · rw [if_pos isClient] at found ⊢
      obtain ⟨held, isHeld, rfl⟩ := Option.map_eq_some_iff.mp found
      rw [messagesSent_recordSents, balances.sent other held isHeld, List.length_append,
        UInt64.ofNat_add]
      rfl
    · rw [if_neg isClient] at found ⊢
      exact balances.sent other connection found

/-- A message is queued, and counted for its kind. -/
theorem Balances.tell (balances : session.Balances earlier notes) (client : ClientId)
    {message : ServerMessage} (ordinary : message.isWelcome = false) :
    ((session.onMetrics (·.tally message.counter)).send client message).Balances earlier notes := by
  have all : ∀ other ∈ [message], other.isWelcome = false := by
    intro other member
    rw [List.mem_singleton.mp member]
    exact ordinary
  refine balances.tellAll client all (·.tally message.counter) (fun other => ?_)
    (Metrics.outcomes_tally _ message)
  rw [Metrics.get_tally, List.countP_singleton]
  by_cases same : message.counter = other.counter <;> simp [same]

theorem Balances.close (balances : session.Balances earlier notes) (client : ClientId) :
    (session.close client).Balances earlier notes where
  kinds message := by
    have line : countFor message.counter [⟨client, .close⟩] = 0 := by simp [countFor, Outbound.counter?]
    rw [outbound_close, ← List.append_assoc, countFor_append, line]
    exact balances.kinds message
  outcomes := balances.outcomes
  settled := balances.settled
  sent other connection found := by
    rw [feed_close]
    exact balances.sent other connection found

theorem Balances.drain (balances : session.Balances earlier notes) :
    session.drainOutbound.2.Balances (earlier ++ session.drainOutbound.1) notes where
  kinds message := by
    refine (balances.kinds message).trans ?_
    unfold drainOutbound
    rw [List.append_nil]
  outcomes := balances.outcomes
  settled := balances.settled
  sent client connection found := by
    refine (balances.sent client connection found).trans ?_
    unfold feed drainOutbound
    rw [List.append_nil]

/-- A connection ends, and its counts go on record. -/
theorem Balances.erase (balances : session.Balances earlier notes) {connection : Connection}
    (found : session.connection? client = some connection) :
    ({ session with connections := session.connections.erase client } : Session).Balances earlier
      (notes ++ [.departed connection.sequencer.stats]) where
  kinds := balances.kinds
  outcomes outcome := by
    have others : ∀ other, client ≠ other → session.countOf outcome other =
        ({ session with connections := session.connections.erase client } : Session).countOf outcome
          other := by
      intro other different
      refine countOf_of_ledger (congrArg _ ?_) outcome
      rw [connection?_erase, if_neg different]
    have gone : ({ session with connections := session.connections.erase client } :
        Session).connection? client = none := by
      rw [connection?_erase, if_pos rfl]
    have counted : session.countOf outcome client =
        ({ session with connections := session.connections.erase client } : Session).countOf outcome
          client + connection.sequencer.stats.count outcome := by
      rw [countOf_of_absent gone, UInt64.zero_add, countOf_of_connected found]
    refine (balances.outcomes outcome).trans ?_
    rw [List.filterMap_append, List.map_append, List.map_append, List.sum_append, List.sum_append,
      sum_stats_add others counted, List.map_append, List.sum_append]
    simp only [List.filterMap_cons, List.filterMap_nil, Note.departed?, List.map_cons, List.map_nil,
      List.sum_cons, List.sum_nil]
    ac_rfl
  settled := by
    refine balances.settled.trans ?_
    simp
  sent other connection found := by
    rw [connection?_erase] at found
    split at found
    · cases found
    · exact balances.sent other connection found

/-- A newcomer has counted nothing, and is welcomed. -/
theorem Balances.welcome (balances : session.Balances earlier notes)
    (free : session.connection? client = none) {connection : Connection}
    (silent : connection.messagesSent = 0) (stats : connection.sequencer.stats = .none)
    {joined : Session} (queue : joined.outbound = session.outbound)
    (connections : joined.connections = session.connections.insert client connection)
    (metrics : joined.metrics = session.metrics.tally .connectionsTotal)
    (tick : Tick) (entity : EntityId) (place : Vec3) :
    (joined.send client (.connectionResponse tick entity place)).Balances earlier notes := by
  have members := connection?_of_insert connections
  obtain ⟨-, counts⟩ := joined.frame_sendAll client [.connectionResponse tick entity place]
  refine ⟨fun message => ?_, fun outcome => ?_, ?_, fun other held found => ?_⟩
  · have one : countFor message.counter [⟨client, .message (.connectionResponse tick entity place)⟩] =
        if Counter.connectionsTotal = message.counter then 1 else 0 := by
      refine (countFor_messages _ client [.connectionResponse tick entity place]).trans ?_
      rw [List.countP_singleton]
      cases message <;> rfl
    rw [outbound_send, queue, ← List.append_assoc, countFor_append, UInt64.ofNat_add,
      ← balances.kinds, one]
    change joined.metrics.get message.counter = _
    rw [metrics, Metrics.get_tally]
    split <;> rfl
  · have same : ∀ other, (joined.send client (.connectionResponse tick entity place)).countOf outcome
        other = session.countOf outcome other := by
      intro other
      refine (counts outcome other).trans ?_
      by_cases isClient : client = other
      · subst isClient
        rw [countOf_of_connected ((members client).trans (if_pos rfl)), stats, countOf_of_absent free]
        rcases outcome with _ | (_ | _ | _) <;> rfl
      · exact countOf_of_ledger (congrArg _ ((members other).trans (if_neg isClient))) outcome
    rw [List.map_append, List.sum_append, sum_stats_congr same, ← List.sum_append, ← List.map_append]
    refine Eq.trans ?_ (balances.outcomes outcome)
    change joined.metrics.get outcome.counter = _
    rw [metrics]
    exact Metrics.outcomes_tally _ (.connectionResponse tick entity place) outcome
  · refine (Metrics.inputs_congr fun outcome => ?_).trans balances.settled
    change joined.metrics.get outcome.counter = _
    rw [metrics]
    exact Metrics.outcomes_tally _ (.connectionResponse tick entity place) outcome
  · rw [connection?_send, members] at found
    rw [feed_welcome]
    by_cases isClient : client = other
    · rw [if_pos isClient, if_pos isClient, Option.map_some] at found
      cases found
      rw [if_pos isClient]
      change connection.messagesSent + 1 = _
      rw [silent]
      rfl
    · rw [if_neg isClient, if_neg isClient] at found
      rw [if_neg isClient]
      refine (balances.sent other held found).trans ?_
      unfold feed
      rw [queue]

theorem frame_recordAdmission (session : Session) (entity : EntityId) (admission : Admission) :
    (session.recordAdmission entity admission).connections = session.connections ∧
      (session.recordAdmission entity admission).outbound = session.outbound ∧
      (session.recordAdmission entity admission).metrics =
        session.metrics.tally admission.counter := by
  cases admission <;> exact ⟨rfl, rfl, rfl⟩

/-- An input is counted by its connection and by the session, and goes on record. -/
theorem Balances.settle (balances : session.Balances earlier notes) {connection : Connection}
    (found : session.connection? client = some connection) {sequencer : Sequencer}
    {admission : Admission} (counted : ∀ outcome, sequencer.stats.count outcome =
      connection.sequencer.stats.count outcome + if admission = outcome then 1 else 0)
    (entity : EntityId) :
    ((session.modifyConnection client fun connection =>
      { connection with sequencer }).recordAdmission entity admission).Balances earlier
        (notes ++ [.settled]) := by
  obtain ⟨after, isAfter⟩ : ∃ after, after = (session.modifyConnection client
    fun connection => { connection with sequencer }).recordAdmission entity admission := ⟨_, rfl⟩
  obtain ⟨connections, outbound, metrics⟩ := frame_recordAdmission (session.modifyConnection client
    fun connection => { connection with sequencer }) entity admission
  rw [← isAfter] at connections outbound metrics ⊢
  have members : ∀ other, after.connection? other = if client = other then
      some { connection with sequencer } else session.connection? other := by
    intro other
    refine (congrArg (·[other]?) connections).trans
      ((session.connection?_modifyConnection client other _).trans ?_)
    by_cases isClient : client = other
    · rw [if_pos isClient, if_pos isClient, ← isClient, found, Option.map_some]
    · rw [if_neg isClient, if_neg isClient]
  refine ⟨fun message => ?_, fun outcome => ?_, ?_, fun other held isHeld => ?_⟩
  · rw [metrics, outbound, Metrics.get_tally,
      if_neg (Counter.ne_of_outcome message admission).symm, UInt64.add_zero]
    exact balances.kinds message
  · have others : ∀ other, client ≠ other →
        after.countOf outcome other = session.countOf outcome other := fun other different =>
      countOf_of_ledger (congrArg _ ((members other).trans (if_neg different))) outcome
    have grown : after.countOf outcome client =
        session.countOf outcome client + if admission = outcome then 1 else 0 := by
      rw [countOf_of_connected found, countOf_of_connected ((members client).trans (if_pos rfl)),
        counted]
    have none : [Note.settled].filterMap Note.departed? = [] := rfl
    rw [metrics, Metrics.get_tally_outcome]
    refine (congrArg (· + _) (balances.outcomes outcome)).trans ?_
    rw [List.filterMap_append, none, List.append_nil, List.map_append, List.sum_append,
      List.map_append, List.sum_append, sum_stats_add others grown, UInt64.add_assoc]
  · rw [metrics, Metrics.inputs_tally]
    refine (congrArg (· + 1) balances.settled).trans ?_
    rw [List.count_append, UInt64.ofNat_add]
    rfl
  · rw [members] at isHeld
    unfold feed
    rw [outbound]
    split at isHeld
    · rename_i isClient
      cases isHeld
      subst isClient
      exact balances.sent client connection found
    · exact balances.sent other held isHeld

end Session

end Overworld
