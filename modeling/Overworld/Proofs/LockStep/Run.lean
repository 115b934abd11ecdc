import Mathlib.Data.List.Induction
import Overworld.Proofs.LockStep.Round
import Overworld.Proofs.Session.Run

set_option autoImplicit false

/-!
Runs of rounds from the start of a session of standard settings: what a player predicts is how its
entity moves, and no input is lost.
-/

namespace Overworld

/-- The settings as they are by default, but for the patrols and the seed. -/
def Settings.ofWorld (npcCount : Nat) (worldSeed : UInt64) : Settings :=
  { Settings.standard with npcCount, worldSeed }

/-- The clients that have taken a seat in the rounds. -/
def Round.clients (rounds : List Round) : List ClientId := rounds.flatMap newcomers

/-- No client joins twice, the session has room for all, ids tell all entities apart, and the ticks
do not run out. -/
structure Round.Fit (npcCount : Nat) (rounds : List Round) : Prop where
  distinct : (Round.clients rounds).Nodup
  few : (Round.clients rounds).length ≤ 256
  numbered : npcCount + (Round.clients rounds).length ≤ 4294967296
  short : rounds.length + 3 < 18446744073709551616

namespace Round

variable {npcCount : Nat} {before later : List Round}

theorem clients_append (before later : List Round) :
    clients (before ++ later) = clients before ++ clients later := List.flatMap_append

theorem clients_singleton (round : Round) : clients [round] = round.newcomers := by
  simp [clients]

theorem Fit.of_append (fit : Fit npcCount (before ++ later)) : Fit npcCount before := by
  obtain ⟨distinct, few, numbered, short⟩ := fit
  rw [clients_append] at distinct few numbered
  rw [List.length_append] at few numbered short
  exact ⟨(List.nodup_append.mp distinct).1, by omega, by omega, by omega⟩

end Round

namespace Loopback

/-- The loopback after the rounds, from the start of a session. -/
def play (settings : Settings) (map : TileMap) (now : Nat) (rounds : List Round) : Loopback :=
  rounds.foldl (fun loopback round => (loopback.playRound now round).2)
    (.ofSession (.ofSettings settings map))

theorem play_append (settings : Settings) (map : TileMap) (now : Nat) (rounds : List Round)
    (round : Round) :
    play settings map now (rounds ++ [round]) =
      ((play settings map now rounds).playRound now round).2 := by
  unfold play
  rw [List.foldl_append]
  rfl

theorem spawnNpcs_frame (count : Nat) (world : World) (random : Generator)
    (full : world.entities.vacant = []) :
    (Session.spawnNpcs count world random).1.gait = world.gait ∧
      (Session.spawnNpcs count world random).1.dt = world.dt ∧
      (Session.spawnNpcs count world random).1.entities.vacant = [] := by
  induction count generalizing world random with
  | zero => exact ⟨rfl, rfl, full⟩
  | succ count ih =>
      obtain ⟨position, behavior, id, after, came, one⟩ := Session.spawnNpc_cases world random
      have stillFull := World.vacant_spawn_of_full full came
      have same : after.gait = world.gait ∧ after.dt = world.dt := by
        cases came
        exact ⟨rfl, rfl⟩
      have more := ih (Session.spawnNpc world random).1 (Session.spawnNpc world random).2 (by
        rw [one]
        exact stillFull)
      rw [one, same.1, same.2] at more
      unfold Session.spawnNpcs
      dsimp only
      rw [one]
      exact more

theorem dt_standard : Settings.standard.dt = standardStep := by
  decide +kernel

theorem start_isStandard (npcCount : Nat) (worldSeed : UInt64) (map : TileMap) :
    (Session.ofSettings (.ofWorld npcCount worldSeed) map).IsStandard npcCount := by
  obtain ⟨gait, dt, -⟩ := spawnNpcs_frame npcCount
    (.ofGrid (Settings.ofWorld npcCount worldSeed).grid .standard
      (Settings.ofWorld npcCount worldSeed).dt) (.ofSeed worldSeed) rfl
  have places := (Session.places_spawnNpcs npcCount
    (.ofGrid (Settings.ofWorld npcCount worldSeed).grid .standard
      (Settings.ofWorld npcCount worldSeed).dt) (.ofSeed worldSeed)).2
  refine ⟨rfl, rfl, gait, dt.trans dt_standard, rfl, rfl, ?_⟩
  refine Nat.le_trans places ?_
  change 0 + npcCount ≤ npcCount
  omega

theorem start_inStep (npcCount : Nat) (worldSeed : UInt64) (map : TileMap) (now : Nat)
    (role : ClientId → Role) :
    (ofSession (.ofSettings (.ofWorld npcCount worldSeed) map)).InStep now 0 [] role := by
  obtain ⟨-, -, full⟩ := spawnNpcs_frame npcCount
    (.ofGrid (Settings.ofWorld npcCount worldSeed).grid .standard
      (Settings.ofWorld npcCount worldSeed).dt) (.ofSeed worldSeed) rfl
  have tick := Session.tick_spawnNpcs npcCount
    (.ofGrid (Settings.ofWorld npcCount worldSeed).grid .standard
      (Settings.ofWorld npcCount worldSeed).dt) (.ofSeed worldSeed)
  refine ⟨List.nodup_nil, ?_, ?_, ?_, ⟨⟨tick, full, ?_, fun _ _ => rfl⟩, ?_⟩, [], .refl _, rfl⟩
  · intro first none
    cases none
  · intro client none
    cases none
  · intro client _
    exact Std.HashMap.getElem?_empty
  · intro client
    have nobody : (ofSession (.ofSettings (.ofWorld npcCount worldSeed) map)).session.isConnected
        client = false := Std.HashMap.contains_empty
    simp [nobody]
  · intro client none
    cases none

section Run

variable (npcCount : Nat) (worldSeed : UInt64) (map : TileMap) (now : Nat)

/-- The state after the rounds, with the roles of the clients. -/
structure IsAfter (rounds : List Round) (tick : Tick) (role : ClientId → Role) : Prop where
  tick_eq : tick.toNat = rounds.length
  standard : (play (.ofWorld npcCount worldSeed) map now rounds).session.IsStandard
    (npcCount + (Round.clients rounds).length)
  inStep : (play (.ofWorld npcCount worldSeed) map now rounds).InStep now tick
    (Round.clients rounds) role

variable {npcCount worldSeed map now} {rounds : List Round} {round : Round} {tick : Tick}
  {role : ClientId → Role}

/-- One more round after so many. -/
theorem IsAfter.next (isAfter : IsAfter npcCount worldSeed map now rounds tick role)
    (fit : Round.Fit npcCount (rounds ++ [round])) :
    ∃ (after : ClientId → Role) (result : List (ClientId × Outcome) × Loopback),
      (play (.ofWorld npcCount worldSeed) map now rounds).playRound now round = result ∧
      play (.ofWorld npcCount worldSeed) map now (rounds ++ [round]) = result.2 ∧
      Proceeds result tick (Round.clients rounds) role after ∧
      (result.1.map (·.1)).Perm (Round.clients (rounds ++ [round])) ∧
      IsAfter npcCount worldSeed map now (rounds ++ [round]) (tick + 1) after := by
  obtain ⟨tickEq, standard, inStep⟩ := isAfter
  obtain ⟨distinct, few, numbered, short⟩ := fit
  have clients : Round.clients (rounds ++ [round]) = Round.clients rounds ++ round.newcomers := by
    rw [Round.clients_append, Round.clients_singleton]
  rw [List.length_append, List.length_singleton] at short
  rw [clients] at distinct few numbered
  rw [List.length_append] at numbered
  have soon : tick.toNat + 3 < 18446744073709551616 := by omega
  obtain ⟨after, result, isResult, proceeds, players, standardAfter, inStepAfter⟩ :=
    inStep.playRound standard round distinct few (by omega) soon
  have played : play (.ofWorld npcCount worldSeed) map now (rounds ++ [round]) = result.2 := by
    rw [play_append, isResult]
  refine ⟨after, result, isResult, played, proceeds, ?_, ?_, ?_, ?_⟩
  · rw [clients]
    exact players
  · rw [List.length_append, List.length_singleton, ← tickEq]
    exact Tick.toNat_add_one tick (by omega)
  · rw [played, clients, List.length_append, ← Nat.add_assoc]
    exact standardAfter
  · rw [played, clients]
    exact inStepAfter

theorem exists_isAfter (worldSeed : UInt64) (map : TileMap) (now : Nat) (rounds : List Round)
    (fit : Round.Fit npcCount rounds) :
    ∃ tick role, IsAfter npcCount worldSeed map now rounds tick role := by
  induction rounds using List.reverseRecOn with
  | nil =>
      have nobody : ClientId → Role := fun _ => .newcomer 0 default default
      exact ⟨0, nobody, rfl, start_isStandard npcCount worldSeed map,
        start_inStep npcCount worldSeed map now nobody⟩
  | append_singleton rounds round ih =>
      obtain ⟨tick, role, isAfter⟩ := ih fit.of_append
      obtain ⟨after, _, _, _, _, _, isAfter⟩ := isAfter.next fit
      exact ⟨tick + 1, after, isAfter⟩

end Run

/-- The outcomes of a round are one of each client, and for those that were seated before it a
replay of the keys the server had too. -/
def Confirms (seated : List ClientId) (round : Round) (outcomes : List (ClientId × Outcome)) : Prop :=
  (outcomes.map (·.1)).Perm (seated ++ round.newcomers) ∧
    ∀ entry ∈ outcomes, entry.1 ∈ seated →
      ∃ tick count error, entry.2 = .replayed tick count error true

/-- The server has dropped no input of the client and has sent it no shift, and what its player said
last waits for the session. -/
def LosesNothing (loopback : Loopback) (client : ClientId) : Prop :=
  ∃ seat connection told, loopback.seat? client = some seat ∧
    loopback.session.connection? client = some connection ∧
    (connection.sequencer.stats.late = 0 ∧ connection.sequencer.stats.early = 0 ∧
      connection.sequencer.stats.duplicate = 0) ∧
    connection.sequencer.stats.adjustments = 0 ∧ connection.sequencer.adjustment = none ∧
    ⟨client, .message (Player.saying seat.player.clock.tick told seat.player.lastSent),
      messageBytes⟩ ∈ loopback.session.inbox.events

/-- What the player of the client predicts in the first loopback is, bit for bit, how its entity
moves in the second, whose session has completed the predicted tick. -/
def Foretells (before after : Loopback) (client : ClientId) : Prop :=
  ∃ seat connection entity, before.seat? client = some seat ∧
    after.session.tick = seat.player.clock.tick ∧
    after.session.connection? client = some connection ∧
    seat.player.entity = some connection.entity ∧
    after.session.world.get? connection.entity = some entity ∧
    entity.motion = seat.player.predictor.motion

section Run

variable {npcCount now : Nat} {worldSeed : UInt64} {map : TileMap} {rounds : List Round}
  {tick : Tick} {role : ClientId → Role} {client : ClientId}

theorem IsAfter.losesNothing (isAfter : IsAfter npcCount worldSeed map now rounds tick role)
    (member : client ∈ Round.clients rounds) :
    (play (.ofWorld npcCount worldSeed) map now rounds).LosesNothing client := by
  obtain ⟨player, seated, -, inStep⟩ := isAfter.inStep.seated client member
  obtain ⟨connection, found, -, -, calm⟩ := (isAfter.inStep.serves.each client member).connected
  obtain ⟨order, perm, words⟩ := isAfter.inStep.expects
  refine ⟨_, connection, (role client).next, seated, found, calm.kept, calm.unshifted,
    calm.content, ?_⟩
  rw [words, inStep.clock, inStep.lastSent]
  exact List.mem_map_of_mem (perm.mem_iff.mpr member)

/-- Two rounds after a player has made its prediction, the inputs it used are those that the session
has used. -/
theorem IsAfter.foretells {before middle after : ClientId → Role} {round next last : Round}
    (first : IsAfter npcCount worldSeed map now (rounds ++ [round]) tick before)
    (third : IsAfter npcCount worldSeed map now (rounds ++ [round] ++ [next] ++ [last])
      (tick + 1 + 1) after)
    (toMiddle : ∃ keys, middle client = (before client).advance keys)
    (toAfter : ∃ keys, after client = (middle client).advance keys)
    (member : client ∈ Round.clients (rounds ++ [round]))
    (memberAfter : client ∈ Round.clients (rounds ++ [round] ++ [next] ++ [last]))
    (seasoned : ∃ player,
      (play (.ofWorld npcCount worldSeed) map now (rounds ++ [round])).seat? client =
        some ⟨player, [], []⟩ ∧ 1 < player.predictor.history.entries.length) :
    Foretells (play (.ofWorld npcCount worldSeed) map now (rounds ++ [round]))
      (play (.ofWorld npcCount worldSeed) map now (rounds ++ [round] ++ [next] ++ [last]))
      client := by
  obtain ⟨middleKeys, isMiddle⟩ := toMiddle
  obtain ⟨lastKeys, isLast⟩ := toAfter
  obtain ⟨player, seat, -, inStep⟩ := first.inStep.seated client member
  obtain ⟨same, seatAgain, history⟩ := seasoned
  rw [seat] at seatAgain
  cases seatAgain
  obtain ⟨connection, connected, entityOf, -⟩ :=
    (third.inStep.serves.each client memberAfter).connected
  obtain ⟨entity, lives, -, -, moves⟩ := (third.inStep.serves.each client memberAfter).controls
  obtain ⟨older, entries, -, stands⟩ := inStep.ahead.recorded
  have own : (after client).own = (before client).own := by
    rw [isLast, isMiddle]
    rfl
  have moved : (after client).motion = ((before client).motion.step (before client).next .standard
      standardStep).step (before client).last .standard standardStep := by
    rw [isLast, isMiddle]
    rfl
  have predicted : player.predictor.motion = ((before client).motion.step (before client).next
      .standard standardStep).step (before client).last .standard standardStep := by
    apply stands
    intro alone
    rw [entries, alone, List.length_singleton] at history
    omega
  have isTick : tick + 1 + 1 = player.clock.tick := by
    rw [inStep.clock, UInt64.add_assoc]
    rfl
  refine ⟨_, connection, entity, seat, ?_, connected, ?_, ?_, ?_⟩
  · exact third.inStep.serves.hosts.tick_eq.trans isTick
  · rw [inStep.entity, ← own]
    exact congrArg some entityOf.symm
  · rw [entityOf]
    exact lives
  · exact moves.trans (moved.trans predicted.symm)

theorem confirms_of_fit (worldSeed : UInt64) (map : TileMap) (now : Nat) {round : Round}
    (fit : Round.Fit npcCount (rounds ++ [round])) :
    Confirms (Round.clients rounds) round
      ((play (.ofWorld npcCount worldSeed) map now rounds).playRound now round).1 := by
  obtain ⟨tick, role, isAfter⟩ := exists_isAfter worldSeed map now rounds fit.of_append
  obtain ⟨after, result, isResult, -, proceeds, players, -⟩ := isAfter.next fit
  rw [Round.clients_append, Round.clients_singleton] at players
  rw [isResult]
  refine ⟨players, fun entry isEntry member => ?_⟩
  obtain ⟨error, replayed⟩ := proceeds.outcomes entry isEntry member
  exact ⟨_, _, error, replayed⟩

theorem foretells_of_fit (worldSeed : UInt64) (map : TileMap) (now : Nat)
    {round next last : Round}
    (fit : Round.Fit npcCount (rounds ++ [round] ++ [next] ++ [last]))
    (member : client ∈ Round.clients rounds) :
    Foretells (play (.ofWorld npcCount worldSeed) map now (rounds ++ [round]))
      (play (.ofWorld npcCount worldSeed) map now (rounds ++ [round] ++ [next] ++ [last]))
      client := by
  have fitNext := fit.of_append
  have fitRound := fitNext.of_append
  have still : ∀ {earlier : List Round} (later : List Round), client ∈ Round.clients earlier →
      client ∈ Round.clients (earlier ++ later) := by
    intro earlier later inside
    rw [Round.clients_append]
    exact List.mem_append_left _ inside
  have inRound := still [round] member
  have inNext := still [next] inRound
  obtain ⟨tick, role, isAfter⟩ := exists_isAfter worldSeed map now rounds fitRound.of_append
  obtain ⟨first, result, -, played, proceeds, -, isFirst⟩ := isAfter.next fitRound
  obtain ⟨second, _, -, -, toSecond, -, isSecond⟩ := isFirst.next fitNext
  obtain ⟨third, _, -, -, toThird, -, isThird⟩ := isSecond.next fit
  apply isFirst.foretells isThird (toSecond.roles client inRound) (toThird.roles client inNext)
    inRound (still [last] inNext)
  rw [played]
  exact proceeds.seasoned client member

/-- In a lossless run of rounds from the start, whoever joins when and whatever keys are pressed: the
outcomes of players that were seated before a round confirm their records, no input is lost, and from
the second turn of a player on its prediction comes true two rounds later. -/
theorem play_in_lock_step (npcCount : Nat) (worldSeed : UInt64) (map : TileMap) (now : Nat)
    (rounds : List Round) (fit : Round.Fit npcCount rounds) :
    (∀ before round later, rounds = before ++ round :: later →
      Confirms (Round.clients before) round
        ((play (.ofWorld npcCount worldSeed) map now before).playRound now round).1) ∧
    (∀ before later, rounds = before ++ later → ∀ client ∈ Round.clients before,
      (play (.ofWorld npcCount worldSeed) map now before).LosesNothing client) ∧
    ∀ before round next last later, rounds = before ++ round :: next :: last :: later →
      ∀ client ∈ Round.clients before,
        Foretells (play (.ofWorld npcCount worldSeed) map now (before ++ [round]))
          (play (.ofWorld npcCount worldSeed) map now (before ++ [round, next, last])) client := by
  refine ⟨?_, ?_, ?_⟩
  · intro before round later shape
    rw [shape, List.append_cons] at fit
    exact confirms_of_fit worldSeed map now fit.of_append
  · intro before later shape client member
    rw [shape] at fit
    obtain ⟨tick, role, isAfter⟩ := exists_isAfter worldSeed map now before fit.of_append
    exact isAfter.losesNothing member
  · intro before round next last later shape client member
    have whole : before ++ [round, next, last] = before ++ [round] ++ [next] ++ [last] := by simp
    rw [shape, List.append_cons, List.append_cons, List.append_cons] at fit
    rw [whole]
    exact foretells_of_fit worldSeed map now fit.of_append member

/-- A round in the order of the clients' numbers. -/
def roundOf (joins : List (ClientId × Endpoint)) (presses : List (ClientId × Keys)) : Round :=
  ⟨.ascending, joins, presses, fun clients => clients, fun _ => .refl _⟩

/-- A player joins and presses a key. -/
def opening : Round :=
  roundOf [(⟨0⟩, .v4 (.replicate 4 127) 4000)] [(⟨0⟩, Keys.neutral.press .right)]

/-- It lets go of the key while another one joins. -/
def company : Round := roundOf [(⟨1⟩, .v4 (.replicate 4 127) 4001)] [(⟨0⟩, .neutral)]

def quiet : Round := roundOf [] []

theorem two_players_in_lock_step :
    (play (.ofWorld 32 0x71172ea1) ⟨16, fun _ => []⟩ 0 [opening, company]).Foretells
      (play (.ofWorld 32 0x71172ea1) ⟨16, fun _ => []⟩ 0 [opening, company, quiet, quiet]) ⟨0⟩ ∧
    (play (.ofWorld 32 0x71172ea1) ⟨16, fun _ => []⟩ 0
      [opening, company, quiet, quiet]).LosesNothing ⟨1⟩ := by
  have fit : Round.Fit 32 [opening, company, quiet, quiet] :=
    ⟨by decide, by decide, by decide, by decide⟩
  obtain ⟨-, lossless, foretold⟩ :=
    play_in_lock_step 32 0x71172ea1 ⟨16, fun _ => []⟩ 0 [opening, company, quiet, quiet] fit
  have first := foretold [opening] company quiet quiet [] rfl ⟨0⟩ (by decide)
  have second := lossless [opening, company, quiet, quiet] [] rfl ⟨1⟩ (by decide)
  exact ⟨first, second⟩

end Run

end Loopback

end Overworld
