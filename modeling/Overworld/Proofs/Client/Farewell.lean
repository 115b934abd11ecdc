import Overworld.Proofs.Client.Play

set_option autoImplicit false

/-!
How a client leaves. Once it was kicked, is at fault or has left it never comes back, and all that it
says from then on are farewells: one for each shift of its clock that it refuses, and one more where
it left of its own accord.
-/

namespace Overworld

/-- The client is neither in the game nor about to join. -/
def PlayerState.isOver : PlayerState → Bool
  | .connecting | .playing => false
  | .kicked _ | .faulted _ | .disconnected => true

namespace Player

/-- Whether a call brings a shift of the clock before the welcome, or one too great to be believed. -/
def refuses (player : Player) : Call → Bool
  | .hear (.tickAdjustment delta) =>
    !player.clock.isSynced || player.clock.rules.maxAdjustment.toNat < delta.toInt.natAbs
  | _ => false

variable {player : Player}

/-- A shift that is refused makes the client say farewell; one that is followed is not answered. -/
theorem adjust_frame (player : Player) (delta : Int64) :
    if player.refuses (.hear (.tickAdjustment delta)) then
      (player.adjust delta).2.state.isOver = true ∧
        (player.adjust delta).2.outbox = player.outbox.push .disconnect
    else (player.adjust delta).2.state = player.state ∧
      (player.adjust delta).2.outbox = player.outbox := by
  unfold adjust refuses Clock.adjust
  by_cases synced : player.clock.isSynced = true
  · by_cases great : player.clock.rules.maxAdjustment.toNat < delta.toInt.natAbs
    · simp [synced, great, PlayerState.isOver, say]
    · simp [synced, great]
  · simp [synced, PlayerState.isOver, say]

/-- No other message of the server is answered, and none brings a client back. -/
theorem handle_frame {message : ServerMessage} (other : ∀ delta, message ≠ .tickAdjustment delta) :
    (player.state.isOver = true → (player.handle message).2.state.isOver = true) ∧
      (player.handle message).2.outbox = player.outbox := by
  cases message with
  | connectionResponse tick entity spawn =>
      unfold handle welcome
      dsimp only
      split
      · rename_i waiting
        rw [waiting]
        refine ⟨fun isOver => ?_, rfl⟩
        cases isOver
      · exact ⟨id, rfl⟩
  | entityUpdate snapshot =>
      unfold handle update
      dsimp only
      split <;> exact ⟨id, rfl⟩
  | entityEntered snapshot =>
      unfold handle enter
      dsimp only
      split <;> exact ⟨id, rfl⟩
  | entityLeft tick entity => exact ⟨id, rfl⟩
  | chunkData chunk =>
      unfold handle
      dsimp only
      split <;> exact ⟨id, rfl⟩
  | tickAdjustment delta => exact absurd rfl (other delta)
  | kicked reason => exact ⟨fun _ => rfl, rfl⟩

/-- What a client says of a step is no farewell. -/
theorem outbox_report (player : Player) (tick : Tick) :
    ∃ message, message ≠ .disconnect ∧
      (player.report tick).outbox = player.outbox.push message := by
  by_cases news : player.resend = true ∨ player.keys ≠ player.lastSent
  · refine ⟨.input tick player.keys, by simp, ?_⟩
    rw [report, if_pos news]
    rfl
  · refine ⟨.heartbeat tick, by simp, ?_⟩
    rw [report, if_neg news]
    rfl

/-- Only a client in the game takes steps. -/
theorem outbox_step (player : Player) :
    player.step.2 = player ∨
      ∃ message, message ≠ .disconnect ∧ player.state = .playing ∧
        player.step.2.outbox = player.outbox.push message := by
  unfold step
  by_cases inGame : player.state = .playing
  · rw [if_pos inGame]
    obtain ⟨message, word, said⟩ := outbox_report
      { player with
        clock := player.clock.advance
        predictor := player.predictor.reconcile.2.predict player.clock.advance.tick player.keys
        resend := player.resend || player.isContradicted player.predictor.reconcile.1 }
      player.clock.advance.tick
    exact Or.inr ⟨message, word, inGame, said⟩
  · rw [if_neg inGame]
    exact Or.inl rfl

theorem leave_frame (player : Player) :
    player.leave.state.isOver = true ∧
      player.leave.outbox.toList =
        player.outbox.toList ++ List.replicate (if player.state.isOver then 0 else 1) .disconnect := by
  unfold leave
  cases state : player.state <;> simp [state, say, PlayerState.isOver]

/-- Whatever can be done to a client from outside. -/
inductive Act
  | call (call : Call)
  | leave
  | drain
deriving DecidableEq

/-- A client, with a record of what was taken from its outbox and of why it said farewell. -/
structure Stay where
  player : Player
  drained : List ClientMessage
  /-- Shifts of its clock that it refused. -/
  refused : Nat
  /-- Times that it left of its own accord. -/
  departed : Nat

namespace Stay

def start (rules : PlayerRules) : Stay := ⟨.ofRules rules, [], 0, 0⟩

def act (stay : Stay) : Act → Stay
  | .call call =>
    { stay with
      player := stay.player.call call
      refused := stay.refused + if stay.player.refuses call then 1 else 0 }
  | .leave =>
    { stay with
      player := stay.player.leave
      departed := stay.departed + if stay.player.state.isOver then 0 else 1 }
  | .drain =>
    { stay with
      player := stay.player.drainOutbox.2
      drained := stay.drained ++ stay.player.drainOutbox.1 }

def run (rules : PlayerRules) (acts : List Act) : Stay := acts.foldl act (start rules)

/-- Everything that was ever put in the outbox, oldest first. -/
def sent (stay : Stay) : List ClientMessage := stay.drained ++ stay.player.outbox.toList

def isOver (stay : Stay) : Bool := stay.player.state.isOver

/-- Times that the client had reason to say farewell. -/
def partings (stay : Stay) : Nat := stay.refused + stay.departed

/-- What one act leads to: words that are no farewells, which a client that is over does not have, and
then a farewell for each new parting, which leaves the client over. -/
structure Proceeds (before after : Stay) : Prop where
  said : ∃ words farewells, .disconnect ∉ words ∧ (before.isOver = true → words = []) ∧
    after.sent = before.sent ++ words ++ List.replicate farewells .disconnect ∧
    after.partings = before.partings + farewells ∧ (0 < farewells → after.isOver = true)
  ended : before.isOver = true → after.isOver = true ∧ after.departed = before.departed

theorem proceeds_call (stay : Stay) (call : Call) : stay.Proceeds (stay.act (.call call)) := by
  -- the calls that put nothing in the outbox and refuse nothing
  have silent : stay.player.refuses call = false →
      (stay.player.call call).outbox = stay.player.outbox →
      (stay.isOver = true → (stay.player.call call).state.isOver = true) →
      stay.Proceeds (stay.act (.call call)) := by
    intro follows outbox stays
    refine ⟨⟨[], 0, List.not_mem_nil, fun _ => rfl, ?_, ?_, fun none => absurd none (Nat.lt_irrefl 0)⟩,
      fun isOver => ⟨stays isOver, rfl⟩⟩
    · simp [sent, act, outbox]
    · simp [partings, act, follows]
  cases call with
  | hear message =>
      by_cases shift : ∃ delta, message = .tickAdjustment delta
      · obtain ⟨delta, rfl⟩ := shift
        have frame := stay.player.adjust_frame delta
        cases refusal : stay.player.refuses (.hear (.tickAdjustment delta)) with
        | false =>
            rw [refusal] at frame
            obtain ⟨state, outbox⟩ := frame
            exact silent refusal outbox fun isOver => (congrArg PlayerState.isOver state).trans isOver
        | true =>
            rw [refusal] at frame
            obtain ⟨leaves, outbox⟩ := frame
            refine ⟨⟨[], 1, List.not_mem_nil, fun _ => rfl, ?_, ?_, fun _ => leaves⟩,
              fun _ => ⟨leaves, rfl⟩⟩
            · simp [sent, act, Player.call, handle, outbox]
            · simp only [partings, act, refusal, ↓reduceIte]
              omega
      · obtain ⟨stays, outbox⟩ :=
          @handle_frame stay.player message fun delta same => shift ⟨delta, same⟩
        refine silent ?_ outbox stays
        cases message with
        | tickAdjustment delta => exact absurd ⟨delta, rfl⟩ shift
        | _ => rfl
  | step =>
      rcases stay.player.outbox_step with same | ⟨message, word, isPlaying, outbox⟩
      · refine silent rfl (congrArg Player.outbox same) fun isOver => ?_
        exact (congrArg (·.state.isOver) same).trans isOver
      · have inGame : stay.isOver = false := by simp [isOver, isPlaying, PlayerState.isOver]
        refine ⟨⟨[message], 0, ?_, ?_, ?_, rfl, fun none => absurd none (Nat.lt_irrefl 0)⟩, ?_⟩
        · simpa using word.symm
        · simp [inGame]
        · simp [sent, act, Player.call, outbox]
        · simp [inGame]
  | setKeys keys => exact silent rfl rfl id

theorem proceeds_act (stay : Stay) (act : Act) : stay.Proceeds (stay.act act) := by
  cases act with
  | call call => exact stay.proceeds_call call
  | leave =>
      obtain ⟨leaves, outbox⟩ := stay.player.leave_frame
      refine ⟨⟨[], if stay.player.state.isOver then 0 else 1, List.not_mem_nil, fun _ => rfl, ?_, ?_,
        fun _ => leaves⟩, fun isOver => ⟨leaves, ?_⟩⟩
      · simp [sent, Stay.act, outbox]
      · simp only [partings, Stay.act]
        omega
      · replace isOver : stay.player.state.isOver = true := isOver
        simp [Stay.act, isOver]
  | drain =>
      refine ⟨⟨[], 0, List.not_mem_nil, fun _ => rfl, ?_, rfl, fun none => absurd none (Nat.lt_irrefl 0)⟩,
        fun isOver => ⟨isOver, rfl⟩⟩
      simp [sent, Stay.act, drainOutbox]

/-- Farewells come last, one for each parting, and with the first of them the client is over. -/
structure IsOrderly (stay : Stay) : Prop where
  said : ∃ words, .disconnect ∉ words ∧
    stay.sent = words ++ List.replicate stay.partings .disconnect
  ended : 0 < stay.partings → stay.isOver = true
  departed : stay.departed ≤ 1

variable {stay after : Stay}

theorem IsOrderly.proceed (orderly : stay.IsOrderly) (proceeds : stay.Proceeds after)
    (one : after.departed ≤ stay.departed + 1) : after.IsOrderly := by
  obtain ⟨⟨words, farewells, noFarewell, silent, sent, partings, leaves⟩, ended⟩ := proceeds
  obtain ⟨earlier, before, said⟩ := orderly.said
  refine ⟨?_, ?_, ?_⟩
  · by_cases parted : 0 < stay.partings
    · refine ⟨earlier, before, ?_⟩
      rw [sent, said, silent (orderly.ended parted), partings, List.append_nil, List.append_assoc,
        List.replicate_append_replicate]
    · have none : stay.partings = 0 := Nat.eq_zero_of_not_pos parted
      refine ⟨earlier ++ words, ?_, ?_⟩
      · simp [before, noFarewell]
      · rw [sent, said, none, partings, none, List.replicate_zero, List.append_nil, Nat.zero_add]
  · intro parted
    by_cases earlierParted : 0 < stay.partings
    · exact (ended (orderly.ended earlierParted)).1
    · exact leaves (by omega)
  · by_cases gone : stay.departed = 0
    · omega
    · have parted : 0 < stay.partings := by
        unfold Stay.partings
        omega
      rw [(ended (orderly.ended parted)).2]
      exact orderly.departed

theorem departed_act_le (stay : Stay) (act : Act) :
    (stay.act act).departed ≤ stay.departed + 1 := by
  cases act with
  | call call => exact Nat.le_succ _
  | leave =>
      simp only [Stay.act]
      split <;> omega
  | drain => exact Nat.le_succ _

theorem run_isOrderly (rules : PlayerRules) (acts : List Act) : (run rules acts).IsOrderly := by
  induction acts using List.reverseRecOn with
  | nil => exact ⟨⟨[], List.not_mem_nil, rfl⟩, fun none => absurd none (Nat.lt_irrefl 0), Nat.zero_le 1⟩
  | append_singleton acts act ih =>
      unfold run
      rw [List.foldl_append]
      exact ih.proceed (proceeds_act _ act) (departed_act_le _ act)

/-- A client that is over stays over, and says a farewell for each further shift that it refuses. -/
theorem foldl_of_over (isOver : stay.isOver = true) (acts : List Act) :
    (acts.foldl act stay).isOver = true ∧ stay.refused ≤ (acts.foldl act stay).refused ∧
      (acts.foldl act stay).sent = stay.sent ++
        List.replicate ((acts.foldl act stay).refused - stay.refused) .disconnect := by
  induction acts generalizing stay with
  | nil => simp [isOver]
  | cons act rest ih =>
      obtain ⟨⟨words, farewells, -, silent, sent, partings, -⟩, ended⟩ := stay.proceeds_act act
      obtain ⟨stays, departed⟩ := ended isOver
      obtain ⟨last, more, said⟩ := ih stays
      have refused : (stay.act act).refused = stay.refused + farewells := by
        unfold Stay.partings at partings
        omega
      rw [List.foldl_cons]
      refine ⟨last, by omega, ?_⟩
      rw [said, sent, silent isOver, List.append_nil, List.append_assoc,
        List.replicate_append_replicate]
      congr 2
      omega

/-- In every run a client that was kicked, is at fault or has left stays so, and adds to what it said
nothing but a farewell for each shift of its clock that it refuses from then on. So farewells come last
in all that it says, and there are as many as shifts that it refused, and one more where it left of its
own accord, which it does once at most. -/
theorem run_parts (rules : PlayerRules) (acts more : List Act) :
    (∃ words, .disconnect ∉ words ∧ (run rules acts).sent =
      words ++ List.replicate ((run rules acts).refused + (run rules acts).departed) .disconnect) ∧
    (run rules acts).sent.count .disconnect =
      (run rules acts).refused + (run rules acts).departed ∧
    (run rules acts).departed ≤ 1 ∧
    ((run rules acts).isOver = true →
      (run rules (acts ++ more)).isOver = true ∧
      (run rules (acts ++ more)).sent = (run rules acts).sent ++
        List.replicate ((run rules (acts ++ more)).refused - (run rules acts).refused)
          .disconnect) := by
  obtain ⟨⟨words, noFarewell, said⟩, -, departed⟩ := run_isOrderly rules acts
  refine ⟨⟨words, noFarewell, said⟩, ?_, departed, ?_⟩
  · rw [said, List.count_append, List.count_eq_zero.mpr noFarewell, List.count_replicate_self,
      Nat.zero_add]
    rfl
  · intro isOver
    have whole : run rules (acts ++ more) = more.foldl act (run rules acts) := List.foldl_append
    rw [whole]
    obtain ⟨stays, -, sent⟩ := foldl_of_over isOver more
    exact ⟨stays, sent⟩

/-- A client that is in the game at tick 0, has left, and then hears a shift of 200 ticks that was on
its way. -/
def shiftedOnLeaving : List Act :=
  [.call (.hear (.connectionResponse 0 ⟨0, 0⟩ .zero)), .leave,
    .call (.hear (.tickAdjustment 200))]

/-- It says farewell a second time, as does a client that hears two shifts before its welcome. -/
theorem two_farewells :
    (run .standard shiftedOnLeaving).sent = [.disconnect, .disconnect] ∧
      (run .standard [.call (.hear (.tickAdjustment 1)), .call (.hear (.tickAdjustment 1))]).sent =
        [.disconnect, .disconnect] :=
  ⟨rfl, rfl⟩

end Stay

end Player

end Overworld
