import Overworld.Proofs.LockStep.Seats
import Overworld.Proofs.Session.Tick

set_option autoImplicit false

/-!
A round of a loopback in which no message is lost: newcomers take their seats, the session has its
tick, players press keys, and each player takes a turn. Session and players stay in step from one
round to the next.
-/

namespace Overworld

namespace Session

/-- The rules that a lock-step depends on, with at most so many places taken. -/
structure IsStandard (session : Session) (taken : Nat) : Prop where
  lead : session.settings.sequencerRules = .standard
  limit : session.settings.maxConnections = 256
  gait : session.world.gait = .standard
  dt : session.world.dt = standardStep
  isOpen : session.inbox.isOpen = true
  capacity : session.inbox.capacity.count = 4096
  places : session.world.places ≤ taken

variable {session after : Session} {taken more : Nat}

theorem IsStandard.follows (standard : session.IsStandard taken)
    (follows : session.Follows after more) : after.IsStandard (taken + more) := by
  obtain ⟨lead, limit, gait, dt, isOpen, capacity, places⟩ := standard
  refine ⟨?_, ?_, follows.gait.trans gait, follows.dt.trans dt, ?_, ?_, ?_⟩
  · rw [follows.settings]
    exact lead
  · rw [follows.settings]
    exact limit
  · rw [follows.inbox]
    exact isOpen
  · rw [follows.inbox]
    exact capacity
  · have grown := follows.places
    omega

theorem IsStandard.of_same (standard : session.IsStandard taken)
    (settings : after.settings = session.settings) (world : after.world = session.world)
    (isOpen : after.inbox.isOpen = session.inbox.isOpen)
    (capacity : after.inbox.capacity = session.inbox.capacity) : after.IsStandard taken := by
  refine ⟨?_, ?_, ?_, ?_, isOpen.trans standard.isOpen, ?_, ?_⟩
  · rw [settings]
    exact standard.lead
  · rw [settings]
    exact standard.limit
  · rw [world]
    exact standard.gait
  · rw [world]
    exact standard.dt
  · rw [capacity]
    exact standard.capacity
  · rw [world]
    exact standard.places

theorem IsStandard.hasRoom (standard : session.IsStandard taken) {count : Nat}
    (fits : session.inbox.events.length + count ≤ 4096) : session.HasRoom count := by
  refine ⟨standard.isOpen, ?_⟩
  rw [standard.capacity]
  exact fits

end Session

/-- The role of a client a round later, with the keys that it has told meanwhile. -/
def Role.advance (role : Role) (keys : Keys) : Role :=
  ⟨role.own, role.next, role.last, keys, role.moved, []⟩

theorem Role.waiting_advance (role : Role) (tick : Tick) (keys : Keys) :
    (role.advance keys).waiting (tick + 1) =
      ⟨role.own, Session.due (tick + 2) role.next role.last, role.next, role.moved, []⟩ := by
  have two : tick + 1 + 1 = tick + 2 := by
    rw [UInt64.add_assoc]
    rfl
  unfold Role.waiting Role.advance
  rw [two]

/-- The player of the role is in step, or it has just taken its seat. -/
def Role.Plays (role : Role) (tick : Tick) (player : Player) : Prop :=
  role.greeting = [] ∧ player.IsInStep role.own tick role.next role.last role.motion ∨
    ∃ own place, role = .newcomer tick own place ∧ player.IsFresh

/-- A seat with all that the client of the role was told in a tick on its way. -/
structure Seat.IsTold (seat : Seat) (tick : Tick) (role : Role) : Prop where
  quiet : seat.up = []
  down : ∃ batch, role.Tells tick batch ∧ seat.down = role.greeting ++ batch
  plays : role.Plays tick seat.player

theorem Role.Plays.setKeys {role : Role} {tick : Tick} {player : Player}
    (plays : role.Plays tick player) (keys : Keys) : role.Plays tick (player.setKeys keys) := by
  rcases plays with ⟨seated, inStep⟩ | ⟨own, place, isRole, fresh⟩
  · exact Or.inl ⟨seated, inStep.setKeys keys⟩
  · exact Or.inr ⟨own, place, isRole, fresh.setKeys keys⟩

/-- The turn of a player that was told its tick: it comes out in step, and if it was so before, the
word of the server was what it had on record. -/
theorem Seat.IsTold.turns {seat : Seat} {tick : Tick} {role : Role} (told : seat.IsTold tick role)
    (room : tick.toNat + 3 < 18446744073709551616) :
    ∃ outcome after,
      seat.Turns outcome (Player.saying (tick + 1 + 2) role.last seat.player.keys) after ∧
      (role.greeting = [] → (∃ error, outcome = .replayed (tick + 1) 1 error true) ∧
        1 < after.predictor.history.entries.length) ∧
      after.IsInStep role.own (tick + 1) role.last seat.player.keys role.moved := by
  obtain ⟨quiet, ⟨batch, ⟨snapshot, carry, word⟩, down⟩, plays⟩ := told
  rcases plays with ⟨seated, inStep⟩ | ⟨own, place, rfl, fresh⟩
  · obtain ⟨heard, error, isHeard, outcome, said, seasoned, inStepAfter⟩ :=
      inStep.turn room word carry
    rw [seated, List.nil_append] at down
    have same : seat.heard = heard := by
      unfold Seat.heard
      rw [down]
      exact isHeard
    rw [← same] at outcome said seasoned inStepAfter
    exact ⟨_, _, ⟨quiet, outcome, said, rfl⟩, fun _ => ⟨⟨error, rfl⟩, seasoned⟩, inStepAfter⟩
  · obtain ⟨heard, outcome, isHeard, isOutcome, said, inStepAfter⟩ :=
      fresh.turn room place word carry
    have same : seat.heard = heard := by
      unfold Seat.heard
      rw [down]
      exact isHeard
    rw [← same] at isOutcome said inStepAfter
    refine ⟨_, _, ⟨quiet, isOutcome, said, rfl⟩, fun seated => ?_, inStepAfter⟩
    cases seated

structure Round where
  visiting : Visiting
  /-- Clients that take a seat before the tick. -/
  joins : List (ClientId × Endpoint)
  /-- Keys that players press before their turns, the last ones of a player counting. -/
  presses : List (ClientId × Keys)
  /-- In which order the players take their turns. -/
  order : List ClientId → List ClientId
  perm : ∀ clients, (order clients).Perm clients

def Round.newcomers (round : Round) : List ClientId := round.joins.map (·.1)

namespace Loopback

/-- Plays a round, with the outcomes of the turns. -/
def playRound (now : Nat) (loopback : Loopback) (round : Round) :
    List (ClientId × Outcome) × Loopback :=
  let told := tick round.visiting now (loopback.joinAll round.joins)
  let pressed := told.pressAll round.presses
  turns false (round.order pressed.clients) pressed

/-- Between two rounds after `tick`: nothing is on its way but the last words of the players, one of
each, which wait for the session. -/
structure InStep (loopback : Loopback) (now : Nat) (tick : Tick) (clients : List ClientId)
    (role : ClientId → Role) : Prop where
  distinct : clients.Nodup
  apart : Role.Apart role clients
  seated : ∀ client ∈ clients, ∃ player, loopback.seat? client = some ⟨player, [], []⟩ ∧
    (role client).greeting = [] ∧
    player.IsInStep (role client).own tick (role client).next (role client).last
      (role client).motion
  vacant : ∀ client ∉ clients, loopback.seat? client = none
  serves : loopback.session.ServesAll now tick tick clients
    fun client => (role client).waiting tick
  expects : ∃ order : List ClientId, order.Perm clients ∧
    loopback.session.inbox.events = order.map (Session.word role tick messageBytes)

/-- After the tick of a round: the events are handled, and everyone was told. -/
structure IsTold (loopback : Loopback) (now : Nat) (tick : Tick) (clients : List ClientId)
    (role : ClientId → Role) : Prop where
  distinct : clients.Nodup
  apart : Role.Apart role clients
  seated : ∀ client ∈ clients, ∃ seat, loopback.seat? client = some seat ∧
    seat.IsTold tick (role client)
  vacant : ∀ client ∉ clients, loopback.seat? client = none
  serves : ∀ keys : ClientId → Keys, loopback.session.ServesAll now (tick + 1) (tick + 1) clients
    fun client => ((role client).advance (keys client)).waiting (tick + 1)
  handled : loopback.session.inbox.events = []

/-- What a round is to those that were seated before: their roles advance, each outcome is a replay
of the keys that the session had too, and each player has a record of two ticks or more. -/
structure Proceeds (result : List (ClientId × Outcome) × Loopback) (tick : Tick)
    (seated : List ClientId) (role after : ClientId → Role) : Prop where
  roles : ∀ client ∈ seated, ∃ keys, after client = (role client).advance keys
  outcomes : ∀ entry ∈ result.1, entry.1 ∈ seated →
    ∃ error, entry.2 = .replayed (tick + 1) 1 error true
  seasoned : ∀ client ∈ seated, ∃ player, result.2.seat? client = some ⟨player, [], []⟩ ∧
    1 < player.predictor.history.entries.length

variable {loopback : Loopback} {now taken : Nat} {tick : Tick} {seated clients : List ClientId}
  {role : ClientId → Role} {joins : List (ClientId × Endpoint)}

theorem tick_eq (visiting : Visiting) (now : Nat) (loopback : Loopback) :
    Loopback.tick visiting now loopback =
      (Session.runTick visiting now loopback.session).outbound.toList.foldl carry
        { loopback with
          session := (Session.runTick visiting now loopback.session).drainOutbound.2 } := rfl

/-- Newcomers take their seats, and the session expects them. -/
theorem InStep.joinAll (inStep : loopback.InStep now tick clients role)
    (standard : loopback.session.IsStandard taken)
    (distinct : (clients ++ joins.map (·.1)).Nodup)
    (few : clients.length + joins.length ≤ 256) (numbered : taken + joins.length ≤ 4294967296) :
    ∃ order : List ClientId, order.Perm clients ∧
      (loopback.joinAll joins).session.Expects tick messageBytes role order joins ∧
      (loopback.joinAll joins).session.HasPlaces clients joins ∧
      (loopback.joinAll joins).session.IsStandard taken ∧
      (loopback.joinAll joins).session.ServesAll now tick tick clients
        (fun client => (role client).waiting tick) ∧
      ∀ client, (loopback.joinAll joins).seat? client =
        if client ∈ joins.map (·.1) then some (.ofRules .standard) else loopback.seat? client := by
  obtain ⟨order, perm, words⟩ := inStep.expects
  have waiting : loopback.session.inbox.events.length = clients.length := by
    rw [words, List.length_map, perm.length_eq]
  obtain ⟨session, seats⟩ := loopback.joinAll_spec joins (standard.hasRoom (by omega))
  generalize loopback.joinAll joins = joined at session seats ⊢
  have standardJoined : joined.session.IsStandard taken := by
    rw [session]
    exact standard.of_same rfl rfl rfl rfl
  have places := standardJoined.places
  have limit := standardJoined.limit
  refine ⟨order, perm, ?_, ⟨distinct, by omega, standardJoined.lead, by omega⟩, standardJoined, ?_,
    seats⟩
  · rw [session]
    change loopback.session.inbox.events ++ _ = _
    rw [words]
  · rw [session]
    exact inStep.serves.of_same rfl rfl rfl

/-- A newcomer has just taken its seat, and any other player is in step. -/
theorem InStep.plays (inStep : loopback.InStep now tick clients role) {joined : Loopback}
    {all : ClientId → Role} (admits : Role.Admits tick clients joins role all)
    (seats : ∀ client, joined.seat? client =
      if client ∈ joins.map (·.1) then some (.ofRules .standard) else loopback.seat? client)
    {client : ClientId} (member : client ∈ clients ++ joins.map (·.1)) :
    ∃ player, joined.seat? client = some ⟨player, [], []⟩ ∧ (all client).Plays tick player := by
  rw [seats]
  by_cases new : client ∈ joins.map (·.1)
  · rw [if_pos new]
    obtain ⟨join, isJoin, rfl⟩ := List.mem_map.mp new
    obtain ⟨own, place, newcomer⟩ := admits.newcomers join isJoin
    exact ⟨_, rfl, Or.inr ⟨own, place, newcomer, Player.isFresh_ofRules⟩⟩
  · have here : client ∈ clients := (List.mem_append.mp member).resolve_right new
    obtain ⟨player, seat, isSeated, playsOn⟩ := inStep.seated client here
    rw [if_neg new, seat, admits.kept client here]
    exact ⟨player, rfl, Or.inl ⟨isSeated, playsOn⟩⟩

/-- The tick of a round tells all players, the newcomers among them. -/
theorem InStep.isTold (inStep : loopback.InStep now tick clients role)
    (standard : loopback.session.IsStandard taken) (visiting : Visiting)
    (distinct : (clients ++ joins.map (·.1)).Nodup)
    (few : clients.length + joins.length ≤ 256) (numbered : taken + joins.length ≤ 4294967296)
    (soon : tick.toNat + 2 < 18446744073709551616) :
    ∃ all : ClientId → Role, (∀ client ∈ clients, all client = role client) ∧
      (Loopback.tick visiting now (loopback.joinAll joins)).session.IsStandard
        (taken + joins.length) ∧
      (Loopback.tick visiting now (loopback.joinAll joins)).IsTold now tick
        (clients ++ joins.map (·.1)) all := by
  obtain ⟨order, perm, expects, places, standardJoined, serves, seats⟩ :=
    inStep.joinAll standard distinct few numbered
  generalize loopback.joinAll joins = joined at expects places standardJoined serves seats ⊢
  obtain ⟨all, admits, hosts, each⟩ := serves.runTick visiting expects perm places soon
    standardJoined.gait standardJoined.dt inStep.apart
  have follows := Session.follows_runTick_of_expects visiting now expects
  rw [tick_eq]
  generalize joined.session.runTick visiting now = ticked at hosts each follows ⊢
  have handled : ({ joined.session with inbox := joined.session.inbox.drain.2 } :
      Session).IsStandard taken := standardJoined.of_same rfl rfl rfl rfl
  have standardTicked := handled.follows follows
  refine ⟨all, admits.kept, ?_, distinct, admits.apart, ?_, ?_, ?_, ?_⟩
  · rw [session_carry_foldl]
    exact standardTicked.of_same rfl rfl rfl rfl
  · intro client member
    obtain ⟨batch, tells, servesClient⟩ := each client member
    obtain ⟨player, seat, plays⟩ := inStep.plays admits seats member
    rw [carry_foldl servesClient.queued]
    change ∃ told, (joined.seat? client).map _ = some told ∧ _
    rw [seat, Option.map_some]
    exact ⟨_, rfl, rfl, ⟨batch, tells, List.nil_append _⟩, plays⟩
  · intro client outside
    have nothing : dispatchesTo client ticked.outbound.toList = [].map .message :=
      hosts.strangers client outside
    rw [List.mem_append, not_or] at outside
    rw [carry_foldl nothing]
    change (joined.seat? client).map _ = none
    rw [seats, if_neg outside.2, inStep.vacant client outside.1]
    rfl
  · intro keys
    rw [session_carry_foldl]
    refine ⟨⟨hosts.tick_eq, hosts.full, hosts.members, fun _ _ => rfl⟩, ?_⟩
    intro client member
    obtain ⟨batch, -, servesClient⟩ := each client member
    rw [Role.waiting_advance]
    exact ⟨servesClient.connected, servesClient.controls, rfl⟩
  · rw [session_carry_foldl]
    exact congrArg Inbox.events follows.inbox

/-- Keys that are pressed change no more than the keys of the players. -/
theorem IsTold.pressAll (told : loopback.IsTold now tick clients role)
    (presses : List (ClientId × Keys)) :
    (loopback.pressAll presses).session = loopback.session ∧
      (loopback.pressAll presses).IsTold now tick clients role := by
  obtain ⟨session, seats⟩ := loopback.pressAll_spec presses
  generalize loopback.pressAll presses = pressed at session seats ⊢
  refine ⟨session, told.distinct, told.apart, ?_, ?_, ?_, ?_⟩
  · intro client member
    obtain ⟨keys, pressing⟩ := seats client
    obtain ⟨seat, found, quiet, down, plays⟩ := told.seated client member
    rw [pressing, found, Option.map_some]
    exact ⟨_, rfl, quiet, down, plays.setKeys _⟩
  · intro client outside
    obtain ⟨keys, pressing⟩ := seats client
    rw [pressing, told.vacant client outside]
    rfl
  · rw [session]
    exact told.serves
  · rw [session]
    exact told.handled

theorem IsTold.perm_clients (told : loopback.IsTold now tick clients role) :
    loopback.clients.Perm clients := by
  rw [List.perm_ext_iff_of_nodup loopback.nodup_clients told.distinct]
  intro client
  rw [mem_clients]
  by_cases member : client ∈ clients
  · obtain ⟨seat, found, -⟩ := told.seated client member
    simp [found, member]
  · simp [told.vacant client member, member]

/-- The turns of a round bring all players back in step. -/
theorem IsTold.turns (told : loopback.IsTold now tick clients role)
    (standard : loopback.session.IsStandard taken)
    {order : List ClientId} (perm : order.Perm clients) (few : clients.length ≤ 256)
    (soon : tick.toNat + 3 < 18446744073709551616) (isPart : ∀ client ∈ seated, client ∈ clients)
    (isSeated : ∀ client ∈ seated, (role client).greeting = []) :
    ∃ (after : ClientId → Role) (result : List (ClientId × Outcome) × Loopback),
      Loopback.turns false order loopback = result ∧
      Proceeds result tick seated role after ∧
      result.1.map (·.1) = order ∧
      result.2.session.IsStandard taken ∧
      result.2.InStep now (tick + 1) clients after := by
  obtain ⟨keys, isKeys⟩ : ∃ keys : ClientId → Keys, ∀ client seat,
      loopback.seat? client = some seat → keys client = seat.player.keys :=
    ⟨fun client => ((loopback.seat? client).map (·.player.keys)).getD .neutral,
      fun client seat found => by simp [found]⟩
  have room : loopback.session.HasRoom order.length := by
    rw [perm.length_eq]
    refine standard.hasRoom ?_
    rw [told.handled, List.length_nil]
    omega
  have turned : loopback.HasTurned (Loopback.turns false order loopback) order
      (fun client => Player.saying (tick + 1 + 2) (role client).last (keys client))
      (fun client outcome => (role client).greeting = [] →
        ∃ error, outcome = .replayed (tick + 1) 1 error true)
      (fun client player => ((role client).greeting = [] →
          1 < player.predictor.history.entries.length) ∧
        player.IsInStep (role client).own (tick + 1) (role client).last (keys client)
          (role client).moved) := by
    apply hasTurned_turns (perm.nodup_iff.mpr told.distinct) room
    intro client member
    obtain ⟨seat, found, isTold⟩ := told.seated client (perm.mem_iff.mp member)
    obtain ⟨outcome, player, itsTurn, isGood, stays⟩ := isTold.turns soon
    rw [isKeys client seat found]
    exact ⟨seat, outcome, player, found, itsTurn, fun seated => (isGood seated).1,
      fun seated => (isGood seated).2, stays⟩
  obtain ⟨players, outcomes, session, seats, others⟩ := turned
  refine ⟨fun client => (role client).advance (keys client), _, rfl, ⟨?_, ?_, ?_⟩, players, ?_, ?_⟩
  · exact fun client _ => ⟨keys client, rfl⟩
  · exact fun entry isEntry member => outcomes entry isEntry (isSeated entry.1 member)
  · intro client member
    obtain ⟨player, found, seasoned, -⟩ :=
      seats client (perm.mem_iff.mpr (isPart client member))
    exact ⟨player, found, seasoned (isSeated client member)⟩
  · rw [session]
    exact standard.of_same rfl rfl rfl rfl
  · refine ⟨told.distinct, told.apart, ?_, ?_, ?_, order, perm, ?_⟩
    · intro client member
      obtain ⟨player, found, -, stays⟩ := seats client (perm.mem_iff.mpr member)
      exact ⟨player, found, rfl, stays⟩
    · intro client outside
      rw [others client fun member => outside (perm.mem_iff.mp member)]
      exact told.vacant client outside
    · rw [session]
      exact (told.serves keys).of_same rfl rfl rfl
    · rw [session]
      change loopback.session.inbox.events ++ _ = _
      rw [told.handled]
      rfl

/-- After a round all players are in step again, and those that were seated before it went on. -/
theorem InStep.playRound (inStep : loopback.InStep now tick clients role)
    (standard : loopback.session.IsStandard taken) (round : Round)
    (distinct : (clients ++ round.newcomers).Nodup)
    (few : (clients ++ round.newcomers).length ≤ 256)
    (numbered : taken + round.newcomers.length ≤ 4294967296)
    (soon : tick.toNat + 3 < 18446744073709551616) :
    ∃ (after : ClientId → Role) (result : List (ClientId × Outcome) × Loopback),
      loopback.playRound now round = result ∧
      Proceeds result tick clients role after ∧
      (result.1.map (·.1)).Perm (clients ++ round.newcomers) ∧
      result.2.session.IsStandard (taken + round.newcomers.length) ∧
      result.2.InStep now (tick + 1) (clients ++ round.newcomers) after := by
  have count : round.newcomers.length = round.joins.length := List.length_map ..
  have all256 := few
  rw [List.length_append, count] at few
  rw [count] at numbered ⊢
  obtain ⟨all, kept, standardTold, told⟩ :=
    inStep.isTold standard round.visiting distinct few numbered (by omega)
  obtain ⟨session, pressed⟩ := told.pressAll round.presses
  rw [← session] at standardTold
  have perm := (round.perm _).trans pressed.perm_clients
  obtain ⟨after, result, isResult, proceeds, players, standardAfter, inStepAfter⟩ :=
    pressed.turns standardTold perm all256 soon
      (fun client member => List.mem_append_left _ member)
      (fun client member => by
        obtain ⟨player, -, isSeated, -⟩ := inStep.seated client member
        rw [kept client member]
        exact isSeated)
  refine ⟨after, result, isResult, ⟨?_, proceeds.outcomes, proceeds.seasoned⟩, ?_, standardAfter,
    inStepAfter⟩
  · intro client member
    obtain ⟨keys, advance⟩ := proceeds.roles client member
    rw [kept client member] at advance
    exact ⟨keys, advance⟩
  · rw [players]
    exact perm

end Loopback

end Overworld
