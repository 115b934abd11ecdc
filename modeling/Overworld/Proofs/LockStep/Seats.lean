import Overworld.Proofs.Client.Turn
import Overworld.Proofs.Session.Members

set_option autoImplicit false

/-!
What the steps of a loopback do to its seats and to the events that wait for its session, as long as
the inbox has room for all of them.
-/

namespace Overworld

namespace Session

/-- The session with more events behind those that wait. -/
def enqueue (session : Session) (events : List InboundEvent) : Session :=
  { session with inbox := { session.inbox with events := session.inbox.events ++ events } }

/-- The inbox has room for so many more events. -/
def HasRoom (session : Session) (count : Nat) : Prop :=
  session.inbox.isOpen = true ∧
    session.inbox.events.length + count ≤ session.inbox.capacity.count

variable {session : Session}

theorem enqueue_nil (session : Session) : session.enqueue [] = session := by
  unfold enqueue
  rw [List.append_nil]

theorem enqueue_append (session : Session) (first second : List InboundEvent) :
    session.enqueue (first ++ second) = (session.enqueue first).enqueue second := by
  unfold enqueue
  rw [List.append_assoc]

theorem HasRoom.enqueue {events : List InboundEvent} {count : Nat}
    (room : session.HasRoom (events.length + count)) : (session.enqueue events).HasRoom count := by
  obtain ⟨isOpen, fits⟩ := room
  refine ⟨isOpen, ?_⟩
  change (session.inbox.events ++ events).length + count ≤ session.inbox.capacity.count
  rw [List.length_append]
  omega

theorem submit_of_hasRoom {count : Nat} (room : session.HasRoom (count + 1)) (event : InboundEvent) :
    session.submit event = .ok (session.enqueue [event]) := by
  obtain ⟨isOpen, fits⟩ := room
  have isClosed : ¬ (!session.inbox.isOpen) = true := by simp [isOpen]
  have isFree : ¬ session.inbox.capacity.count ≤ session.inbox.events.length := by omega
  unfold submit Inbox.submit
  rw [if_neg isClosed, if_neg isFree]
  rfl

end Session

namespace Loopback

variable {loopback : Loopback} {client other : ClientId}

theorem submit_of_hasRoom {count : Nat} (room : loopback.session.HasRoom (count + 1))
    (event : InboundEvent) :
    loopback.submit event = { loopback with session := loopback.session.enqueue [event] } := by
  unfold submit
  rw [Session.submit_of_hasRoom room]

theorem seat?_setSeat (loopback : Loopback) (client other : ClientId) (seat : Seat) :
    (loopback.setSeat client seat).seat? other =
      if client = other then some seat else loopback.seat? other := by
  unfold seat? setSeat
  rw [Std.HashMap.getElem?_insert]
  by_cases same : client = other <;> simp [same]

theorem seat?_modify (loopback after : Loopback) {change : Seat → Seat}
    (modified : after.seats = loopback.seats.modify client change) (other : ClientId) :
    after.seat? other =
      if client = other then (loopback.seat? other).map change else loopback.seat? other := by
  unfold seat?
  rw [modified, Std.HashMap.getElem?_modify]
  by_cases same : client = other
  · subst same
    simp
  · simp [same]

theorem mem_clients : client ∈ loopback.clients ↔ (loopback.seat? client).isSome = true := by
  unfold clients ClientId.sort seat?
  rw [List.mem_mergeSort, Std.HashMap.mem_keys, ← Std.HashMap.isSome_getElem?_iff_mem]

theorem nodup_clients (loopback : Loopback) : loopback.clients.Nodup :=
  (List.mergeSort_perm ..).nodup_iff.mpr Std.HashMap.nodup_keys

def joinAll (loopback : Loopback) (joins : List (ClientId × Endpoint)) : Loopback :=
  joins.foldl (fun loopback join => loopback.join join.1 join.2 .standard) loopback

theorem join_of_hasRoom {count : Nat} (room : loopback.session.HasRoom (count + 1))
    (client : ClientId) (endpoint : Endpoint) :
    loopback.join client endpoint .standard =
      { loopback with
        session := loopback.session.enqueue [⟨client, .connected endpoint, 0⟩] }.setSeat client
          (.ofRules .standard) := by
  unfold join
  rw [submit_of_hasRoom room]

theorem joinAll_spec (joins : List (ClientId × Endpoint))
    (room : loopback.session.HasRoom joins.length) :
    (loopback.joinAll joins).session =
        loopback.session.enqueue (joins.map fun join => ⟨join.1, .connected join.2, 0⟩) ∧
      ∀ client, (loopback.joinAll joins).seat? client =
        if client ∈ joins.map (·.1) then some (.ofRules .standard) else loopback.seat? client := by
  unfold joinAll
  induction joins generalizing loopback with
  | nil =>
      refine ⟨loopback.session.enqueue_nil.symm, fun client => ?_⟩
      simp
  | cons join rest ih =>
      obtain ⟨joined, isJoined⟩ : ∃ joined, joined = loopback.join join.1 join.2 .standard :=
        ⟨_, rfl⟩
      have shape := loopback.join_of_hasRoom room join.1 join.2
      rw [← isJoined] at shape
      have session : joined.session =
          loopback.session.enqueue [⟨join.1, .connected join.2, 0⟩] := by rw [shape]; rfl
      have later : loopback.session.HasRoom (1 + rest.length) := by
        rw [Nat.add_comm]
        exact room
      have more : joined.session.HasRoom rest.length := by
        rw [session]
        exact later.enqueue
      obtain ⟨sessionAfter, seatsAfter⟩ := ih more
      rw [List.foldl_cons, ← isJoined]
      refine ⟨?_, fun client => ?_⟩
      · rw [sessionAfter, session, ← Session.enqueue_append]
        rfl
      · have here : joined.seat? client =
            if join.1 = client then some (.ofRules .standard) else loopback.seat? client := by
          rw [shape]
          exact seat?_setSeat _ join.1 client _
        rw [seatsAfter, here]
        by_cases first : join.1 = client
        · simp [first]
        · have different : client ≠ join.1 := fun same => first same.symm
          simp only [List.map_cons, List.mem_cons, if_neg first, different, false_or]

/-- What is queued for a client ends up on its way to it, in order. -/
theorem carry_foldl {batch : List Outbound} {letters : List ServerMessage}
    (queued : dispatchesTo client batch = letters.map .message) (loopback : Loopback) :
    (batch.foldl carry loopback).seat? client =
      (loopback.seat? client).map fun seat => { seat with down := seat.down ++ letters } := by
  induction batch generalizing loopback letters with
  | nil =>
      have none : letters = [] := List.map_eq_nil_iff.mp queued.symm
      rw [none]
      simp
  | cons item rest ih =>
      obtain ⟨addressee, dispatch⟩ := item
      rw [dispatchesTo_cons] at queued
      rw [List.foldl_cons]
      cases dispatch with
      | close =>
          by_cases mine : addressee = client
          · rw [if_pos mine] at queued
            cases letters <;> cases queued
          · rw [if_neg mine] at queued
            exact ih queued loopback
      | message content =>
          have carried := seat?_modify loopback
            (loopback.carry ⟨addressee, .message content⟩) rfl client
          by_cases mine : addressee = client
          · rw [if_pos mine] at queued carried
            cases letters with
            | nil => cases queued
            | cons letter letters =>
                rw [List.map_cons, List.cons.injEq] at queued
                obtain ⟨same, queued⟩ := queued
                cases same
                rw [ih queued, carried, Option.map_map]
                congr 1
                funext seat
                simp
          · rw [if_neg mine] at queued carried
            rw [ih queued, carried]

theorem session_carry_foldl (batch : List Outbound) (loopback : Loopback) :
    (batch.foldl carry loopback).session = loopback.session := by
  induction batch generalizing loopback with
  | nil => rfl
  | cons item rest ih =>
      have one : (loopback.carry item).session = loopback.session := by
        unfold carry
        split <;> rfl
      exact (ih (loopback.carry item)).trans one

def pressAll (loopback : Loopback) (presses : List (ClientId × Keys)) : Loopback :=
  presses.foldl (fun loopback press => loopback.modifyPlayer press.1 (·.setKeys press.2)) loopback

theorem pressAll_spec (presses : List (ClientId × Keys)) (loopback : Loopback) :
    (loopback.pressAll presses).session = loopback.session ∧
      ∀ client, ∃ keys : Keys → Keys, (loopback.pressAll presses).seat? client =
        (loopback.seat? client).map fun seat =>
          { seat with player := seat.player.setKeys (keys seat.player.keys) } := by
  unfold pressAll
  induction presses generalizing loopback with
  | nil =>
      refine ⟨rfl, fun client => ⟨id, ?_⟩⟩
      rw [List.foldl_nil]
      cases loopback.seat? client <;> rfl
  | cons press rest ih =>
      obtain ⟨session, seats⟩ := ih (loopback.modifyPlayer press.1 (·.setKeys press.2))
      refine ⟨session, fun client => ?_⟩
      obtain ⟨keys, later⟩ := seats client
      have first := seat?_modify loopback
        (loopback.modifyPlayer press.1 (·.setKeys press.2)) rfl client
      rw [List.foldl_cons, later, first]
      by_cases mine : press.1 = client
      · refine ⟨fun _ => keys press.2, ?_⟩
        rw [if_pos mine, Option.map_map]
        rfl
      · rw [if_neg mine]
        exact ⟨keys, rfl⟩

end Loopback

namespace Seat

/-- The player once it has heard all that is on its way to it. -/
def heard (seat : Seat) : Player :=
  seat.down.foldl (fun player message => (player.handle message).2) seat.player

/-- In its turn the player has an outcome, says one thing and goes on as `after`. -/
structure Turns (seat : Seat) (outcome : Outcome) (said : ClientMessage) (after : Player) :
    Prop where
  quiet : seat.up = []
  outcome_eq : seat.heard.step.1 = some outcome
  outbox_eq : seat.heard.step.2.outbox = #[said]
  after_eq : after = { seat.heard.step.2 with outbox := #[] }

theorem takeDown_none (seat : Seat) :
    (seat.takeDown none).2 = { seat with player := seat.heard, down := [] } := by
  unfold takeDown heard
  simp only [split, ← handleEach_snd]

theorem Turns.step_eq {seat : Seat} {outcome : Outcome} {said : ClientMessage} {after : Player}
    (turns : seat.Turns outcome said after) :
    (seat.takeDown none).2.step = ((some outcome, [said]), ⟨after, [], [said]⟩) := by
  rw [takeDown_none]
  unfold step Player.drainOutbox
  simp only [turns.outcome_eq, turns.outbox_eq, turns.quiet, turns.after_eq, List.nil_append]

end Seat

namespace Loopback

variable {loopback : Loopback} {client other : ClientId}

theorem turn_spec {seat : Seat} {outcome : Outcome} {said : ClientMessage} {after : Player}
    {count : Nat} (seated : loopback.seat? client = some seat)
    (turns : seat.Turns outcome said after) (room : loopback.session.HasRoom (count + 1)) :
    ∃ next, turn false loopback client = (some outcome, next) ∧
      next.session = loopback.session.enqueue [⟨client, .message said, messageBytes⟩] ∧
      ∀ other, next.seat? other =
        if client = other then some ⟨after, [], []⟩ else loopback.seat? other := by
  refine ⟨{ loopback with
    session := loopback.session.enqueue [⟨client, .message said, messageBytes⟩] }.setSeat
      client ⟨after, [], []⟩, ?_, rfl, fun other => seat?_setSeat _ client other _⟩
  have still : (loopback.setSeat client ⟨after, [], []⟩).session.HasRoom (count + 1) := room
  have submitted := submit_of_hasRoom still ⟨client, .message said, messageBytes⟩
  unfold turn
  rw [seated]
  simp only [turns.step_eq, Bool.false_eq_true, if_false, submitAll, List.foldl_cons,
    List.foldl_nil, submitted]
  rfl

theorem turns_cons {next : Loopback} {outcome : Outcome}
    (turned : turn false loopback client = (some outcome, next)) (rest : List ClientId) :
    turns false (client :: rest) loopback =
      ((client, outcome) :: (turns false rest next).1, (turns false rest next).2) := by
  rw [turns, turned]
  rfl

/-- Each player of the order has taken its turn once, and what it said waits for the session. -/
structure HasTurned (before : Loopback) (result : List (ClientId × Outcome) × Loopback)
    (order : List ClientId) (said : ClientId → ClientMessage) (good : ClientId → Outcome → Prop)
    (stays : ClientId → Player → Prop) : Prop where
  players : result.1.map (·.1) = order
  outcomes : ∀ entry ∈ result.1, good entry.1 entry.2
  session : result.2.session = before.session.enqueue
    (order.map fun client => ⟨client, .message (said client), messageBytes⟩)
  seats : ∀ client ∈ order, ∃ after, result.2.seat? client = some ⟨after, [], []⟩ ∧
    stays client after
  others : ∀ client ∉ order, result.2.seat? client = before.seat? client

section Turns

variable {said : ClientId → ClientMessage} {good : ClientId → Outcome → Prop}
  {stays : ClientId → Player → Prop} {order : List ClientId}

theorem hasTurned_nil (loopback : Loopback) :
    loopback.HasTurned (turns false [] loopback) [] said good stays where
  players := rfl
  outcomes entry none := by cases none
  session := loopback.session.enqueue_nil.symm
  seats client none := by cases none
  others _ _ := rfl

/-- A turn before those of the others. -/
theorem HasTurned.cons {next : Loopback} {result : List (ClientId × Outcome) × Loopback}
    {outcome : Outcome} {after : Player} (later : next.HasTurned result order said good stays)
    (once : client ∉ order) (isGood : good client outcome) (itStays : stays client after)
    (session : next.session =
      loopback.session.enqueue [⟨client, .message (said client), messageBytes⟩])
    (seats : ∀ other, next.seat? other =
      if client = other then some ⟨after, [], []⟩ else loopback.seat? other) :
    loopback.HasTurned ((client, outcome) :: result.1, result.2) (client :: order) said good
      stays where
  players := by
    rw [List.map_cons, later.players]
  outcomes entry member := by
    rcases List.mem_cons.mp member with rfl | member
    · exact isGood
    · exact later.outcomes entry member
  session := by
    rw [later.session, session, ← Session.enqueue_append]
    rfl
  seats other member := by
    rcases List.mem_cons.mp member with rfl | member
    · refine ⟨after, ?_, itStays⟩
      rw [later.others other once, seats, if_pos rfl]
    · exact later.seats other member
  others other outside := by
    rw [List.mem_cons, not_or] at outside
    rw [later.others other outside.2, seats, if_neg fun same => outside.1 same.symm]

theorem hasTurned_turns (distinct : order.Nodup) (room : loopback.session.HasRoom order.length)
    (ready : ∀ client ∈ order, ∃ seat outcome after, loopback.seat? client = some seat ∧
      seat.Turns outcome (said client) after ∧ good client outcome ∧ stays client after) :
    loopback.HasTurned (turns false order loopback) order said good stays := by
  induction order generalizing loopback with
  | nil => exact hasTurned_nil loopback
  | cons client rest ih =>
      obtain ⟨once, distinct⟩ := List.nodup_cons.mp distinct
      obtain ⟨seat, outcome, after, seated, itsTurn, isGood, itStays⟩ :=
        ready client List.mem_cons_self
      obtain ⟨next, turned, session, seats⟩ := turn_spec seated itsTurn room
      have later : loopback.session.HasRoom (1 + rest.length) := by
        rw [Nat.add_comm]
        exact room
      have more : next.session.HasRoom rest.length := by
        rw [session]
        exact later.enqueue
      have waiting : next.HasTurned (turns false rest next) rest said good stays := by
        apply ih distinct more
        intro other member
        have different : client ≠ other := fun same => once (same ▸ member)
        rw [seats, if_neg different]
        exact ready other (List.mem_cons_of_mem _ member)
      rw [turns_cons turned]
      exact waiting.cons once isGood itStays session seats

end Turns

end Loopback

end Overworld
