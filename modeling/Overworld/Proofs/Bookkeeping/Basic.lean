import Mathlib.Algebra.BigOperators.Group.Finset.Basic
import Mathlib.Data.UInt
import Overworld.Proofs.Replication.Session
import Overworld.Proofs.Session.Members

set_option autoImplicit false

/-!
The books of a session: what its counters have to say about the messages that were queued and the
inputs that were settled, and what the counts of each connection have to say about its client.
Counting wraps at 2⁶⁴, in the books as in the counters.
-/

namespace Overworld

/-- The counter of a kind of message. -/
def ServerMessage.counter : ServerMessage → Counter
  | .connectionResponse .. => .connectionsTotal
  | .entityUpdate _ => .entityUpdates
  | .entityEntered _ => .interestEnters
  | .entityLeft .. => .interestLeaves
  | .chunkData _ => .chunksStreamed
  | .tickAdjustment _ => .tickAdjustments
  | .kicked _ => .connectionsKicked

def Outbound.counter? (letter : Outbound) : Option Counter :=
  match letter.dispatch with
  | .message message => some message.counter
  | .close => none

/-- How many of the letters a counter is for. -/
def countFor (counter : Counter) (letters : List Outbound) : Nat :=
  letters.countP fun letter => letter.counter? = some counter

/-- The counter of an outcome of inputs. -/
def Admission.counter : Admission → Counter
  | .accepted => .inputsAccepted
  | .dropped reason => .dropped reason

/-- How many inputs of a connection came to an outcome. -/
def SequencerStats.count (stats : SequencerStats) : Admission → UInt64
  | .accepted => stats.accepted
  | .dropped .late => stats.late
  | .dropped .early => stats.early
  | .dropped .duplicate => stats.duplicate

theorem SequencerStats.count_record (stats : SequencerStats) (admission outcome : Admission) :
    (stats.record admission).count outcome =
      stats.count outcome + if admission = outcome then 1 else 0 := by
  rcases admission with _ | (_ | _ | _) <;> rcases outcome with _ | (_ | _ | _) <;>
    simp [record, count]

theorem countFor_append (counter : Counter) (earlier letters : List Outbound) :
    countFor counter (earlier ++ letters) = countFor counter earlier + countFor counter letters :=
  List.countP_append

theorem countFor_messages (counter : Counter) (client : ClientId) (messages : List ServerMessage) :
    countFor counter (messages.map fun message => ⟨client, .message message⟩) =
      messages.countP fun message => message.counter = counter := by
  unfold countFor
  rw [List.countP_map]
  refine List.countP_congr fun message _ => ?_
  simp [Outbound.counter?]

/-- The counters that the books are about. -/
def Counter.booked : List Counter :=
  [.connectionsTotal, .connectionsKicked, .tickAdjustments, .entityUpdates, .interestEnters,
    .interestLeaves, .chunksStreamed, .inputsAccepted, .inputsDroppedLate, .inputsDroppedEarly,
    .inputsDroppedDuplicate]

theorem ServerMessage.counter_mem_booked (message : ServerMessage) :
    message.counter ∈ Counter.booked := by
  cases message <;> simp [counter, Counter.booked]

theorem Admission.counter_mem_booked (outcome : Admission) : outcome.counter ∈ Counter.booked := by
  rcases outcome with _ | (_ | _ | _) <;> simp [counter, Counter.dropped, Counter.booked]

theorem Counter.ne_of_outcome (message : ServerMessage) (outcome : Admission) :
    message.counter ≠ outcome.counter := by
  rcases outcome with _ | (_ | _ | _) <;> cases message <;> nofun

/-- Both stand the same wherever the books look. -/
structure Metrics.IsTrueTo (after before : Metrics) : Prop where
  kinds : ∀ message : ServerMessage, after.get message.counter = before.get message.counter
  outcomes : ∀ outcome : Admission, after.get outcome.counter = before.get outcome.counter

namespace Metrics

variable {metrics middle after : Metrics}

theorem IsTrueTo.refl (metrics : Metrics) : metrics.IsTrueTo metrics := ⟨fun _ => rfl, fun _ => rfl⟩

theorem IsTrueTo.trans (second : after.IsTrueTo middle) (first : middle.IsTrueTo metrics) :
    after.IsTrueTo metrics :=
  ⟨fun message => (second.kinds message).trans (first.kinds message),
    fun outcome => (second.outcomes outcome).trans (first.outcomes outcome)⟩

/-- Other counters are free to change. -/
theorem isTrueTo_set {counter : Counter} (free : counter ∉ Counter.booked) (metrics : Metrics)
    (value : UInt64) : (metrics.set counter value).IsTrueTo metrics := by
  have other : ∀ {booked}, booked ∈ Counter.booked →
      (metrics.set counter value).get booked = metrics.get booked := by
    intro booked member
    rw [get_set, if_neg]
    rintro rfl
    exact free member
  exact ⟨fun message => other message.counter_mem_booked,
    fun outcome => other outcome.counter_mem_booked⟩

theorem isTrueTo_recordReceived (metrics : Metrics) (bytes : UInt64) :
    (metrics.recordReceived bytes).IsTrueTo metrics :=
  IsTrueTo.trans (isTrueTo_set (by decide) _ _) (isTrueTo_set (by decide) _ _)

theorem get_tally (metrics : Metrics) (counter other : Counter) :
    (metrics.tally counter).get other = metrics.get other + if counter = other then 1 else 0 := by
  unfold tally
  rw [get_add]
  split
  · rfl
  · exact (UInt64.add_zero _).symm

theorem outcomes_tally (metrics : Metrics) (message : ServerMessage) (outcome : Admission) :
    (metrics.tally message.counter).get outcome.counter = metrics.get outcome.counter := by
  rw [get_tally, if_neg (Counter.ne_of_outcome message outcome), UInt64.add_zero]

theorem get_tally_outcome (metrics : Metrics) (admission outcome : Admission) :
    (metrics.tally admission.counter).get outcome.counter =
      metrics.get outcome.counter + if admission = outcome then 1 else 0 := by
  rw [get_tally]
  rcases admission with _ | (_ | _ | _) <;> rcases outcome with _ | (_ | _ | _) <;> rfl

/-- All inputs that were counted, one outcome after the other. -/
theorem inputs_eq (metrics : Metrics) :
    metrics.get .inputsAccepted + metrics.inputsDropped =
      metrics.get Admission.accepted.counter + (metrics.get (Admission.dropped .late).counter +
        metrics.get (Admission.dropped .early).counter +
          metrics.get (Admission.dropped .duplicate).counter) :=
  rfl

theorem inputs_congr {one two : Metrics}
    (same : ∀ outcome : Admission, one.get outcome.counter = two.get outcome.counter) :
    one.get .inputsAccepted + one.inputsDropped = two.get .inputsAccepted + two.inputsDropped := by
  rw [inputs_eq, inputs_eq, same, same, same, same]

theorem inputs_tally (metrics : Metrics) (admission : Admission) :
    (metrics.tally admission.counter).get .inputsAccepted +
        (metrics.tally admission.counter).inputsDropped =
      metrics.get .inputsAccepted + metrics.inputsDropped + 1 := by
  rw [inputs_eq, inputs_eq, get_tally_outcome, get_tally_outcome, get_tally_outcome,
    get_tally_outcome]
  rcases admission with _ | (_ | _ | _) <;>
    simp only [reduceCtorEq, Admission.dropped.injEq, if_true, if_false, UInt64.add_zero] <;> ac_rfl

/-- What a client is told counts by its kinds. -/
theorem get_recordReplication (metrics : Metrics) (connection : Connection) (world : World)
    (map : TileMap) (message : ServerMessage) :
    (metrics.recordReplication (connection.replicate world map)).get message.counter =
      metrics.get message.counter + .ofNat ((connection.replicate world map).messages.countP
        fun other => other.counter = message.counter) := by
  unfold recordReplication
  dsimp only
  unfold Connection.replicate
  cases world.get? connection.entity with
  | none => cases message <;> simp [get_add, ServerMessage.counter, Replication.nothing]
  | some owner =>
      cases message <;>
        simp [get_add, ServerMessage.counter, List.countP_append, List.countP_map,
          Function.comp_def, UInt64.add_comm]

theorem outcomes_recordReplication (metrics : Metrics) (told : Replication) (outcome : Admission) :
    (metrics.recordReplication told).get outcome.counter = metrics.get outcome.counter := by
  unfold recordReplication
  rcases outcome with _ | (_ | _ | _) <;> simp [get_add, Admission.counter, Counter.dropped]

end Metrics

namespace Session

variable {session before after : Session} {client : ClientId}

/-- What the connected clients' sequencers have counted. -/
def stats (session : Session) : List SequencerStats :=
  (session.clients.filterMap session.connection?).map (·.sequencer.stats)

/-- What the sequencer of a client has counted of an outcome. -/
def countOf (session : Session) (outcome : Admission) (client : ClientId) : UInt64 :=
  ((session.connection? client).map (·.sequencer.stats.count outcome)).getD 0

theorem countOf_of_absent (absent : session.connection? client = none) (outcome : Admission) :
    session.countOf outcome client = 0 := by
  unfold countOf
  rw [absent]
  rfl

theorem countOf_of_connected {connection : Connection}
    (found : session.connection? client = some connection) (outcome : Admission) :
    session.countOf outcome client = connection.sequencer.stats.count outcome := by
  unfold countOf
  rw [found]
  rfl

/-- The sum over the connected clients, and any number of others. -/
theorem sum_stats (session : Session) (outcome : Admission) (clients : Finset ClientId)
    (inside : ∀ client, session.isConnected client = true → client ∈ clients) :
    (session.stats.map (·.count outcome)).sum = ∑ client ∈ clients, session.countOf outcome client := by
  have each : ∀ chosen : List ClientId,
      (((chosen.filterMap session.connection?).map (·.sequencer.stats)).map (·.count outcome)).sum =
        (chosen.map (session.countOf outcome)).sum := by
    intro chosen
    induction chosen with
    | nil => rfl
    | cons client rest ih =>
        rw [List.map_cons, List.sum_cons, ← ih]
        cases found : session.connection? client with
        | none =>
            rw [List.filterMap_cons_none found, countOf_of_absent found, UInt64.zero_add]
        | some connection =>
            rw [List.filterMap_cons_some found, countOf_of_connected found]
            rfl
  unfold stats
  rw [each, ← List.sum_toFinset _ session.nodup_clients]
  refine Finset.sum_subset (fun client member => ?_) fun client _ absent => ?_
  · exact inside client (mem_clients.mp (List.mem_toFinset.mp member))
  · rw [List.mem_toFinset, mem_clients, Bool.not_eq_true, ← connection?_eq_none_iff] at absent
    exact countOf_of_absent absent outcome

/-- What one client's sequencer has counted more, the sum has more. -/
theorem sum_stats_add {outcome : Admission} {more : UInt64}
    (others : ∀ other, client ≠ other → after.countOf outcome other = before.countOf outcome other)
    (counted : after.countOf outcome client = before.countOf outcome client + more) :
    (after.stats.map (·.count outcome)).sum = (before.stats.map (·.count outcome)).sum + more := by
  obtain ⟨clients, isClients⟩ : ∃ clients : Finset ClientId, clients =
      insert client (before.clients.toFinset ∪ after.clients.toFinset) := ⟨_, rfl⟩
  have isIn : client ∈ clients := by simp [isClients]
  rw [before.sum_stats outcome clients fun other connected => by
      simp [isClients, mem_clients.mpr connected],
    after.sum_stats outcome clients fun other connected => by
      simp [isClients, mem_clients.mpr connected],
    ← Finset.add_sum_erase clients _ isIn, ← Finset.add_sum_erase clients _ isIn,
    Finset.sum_congr rfl fun other member => others other (Finset.ne_of_mem_erase member).symm,
    counted]
  ac_rfl

theorem sum_stats_congr {outcome : Admission}
    (same : ∀ client, after.countOf outcome client = before.countOf outcome client) :
    (after.stats.map (·.count outcome)).sum = (before.stats.map (·.count outcome)).sum :=
  (sum_stats_add (fun other _ => same other) ((same ⟨0⟩).trans (UInt64.add_zero _).symm)).trans
    (UInt64.add_zero _)

end Session

end Overworld
