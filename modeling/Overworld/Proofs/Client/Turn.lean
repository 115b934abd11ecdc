import Overworld.Loopback
import Overworld.Proofs.Client.Play
import Overworld.Proofs.Prediction.Ahead

set_option autoImplicit false

/-!
A turn of a client in step with its server: it hears what the server sent in a tick, with one word on
its own entity among it, and takes one local step.
-/

namespace Overworld

namespace ServerMessage

/-- Not about the entity `own` nor about the client's place in the game. -/
def isForeign (own : EntityId) : ServerMessage → Bool
  | .connectionResponse .. => false
  | .entityUpdate snapshot => snapshot.entity != own
  | .entityEntered _ => true
  | .entityLeft .. => true
  | .chunkData _ => true
  | .tickAdjustment _ => false
  | .kicked _ => false

/-- The messages have one word on the entity of `snapshot`, and else nothing for its owner. -/
def Carry (snapshot : Snapshot) (messages : List ServerMessage) : Prop :=
  ∃ before after, messages = before ++ .entityUpdate snapshot :: after ∧
    (∀ message ∈ before, message.isForeign snapshot.entity = true) ∧
    ∀ message ∈ after, message.isForeign snapshot.entity = true

end ServerMessage

theorem Seat.handleEach_snd (player : Player) (messages : List ServerMessage) :
    (handleEach player messages).2 =
      messages.foldl (fun player message => (player.handle message).2) player := by
  induction messages generalizing player with
  | nil => rfl
  | cons message rest ih => exact ih (player.handle message).2

namespace Player

/-- All but the replicas and the chunks is the same. -/
structure SameCourse (before after : Player) : Prop where
  state : after.state = before.state
  clock : after.clock = before.clock
  predictor : after.predictor = before.predictor
  entity : after.entity = before.entity
  keys : after.keys = before.keys
  lastSent : after.lastSent = before.lastSent
  lastRequest : after.lastRequest = before.lastRequest
  resend : after.resend = before.resend
  outbox : after.outbox = before.outbox

variable {before middle after player : Player} {own : EntityId}

theorem SameCourse.refl (player : Player) : player.SameCourse player :=
  ⟨rfl, rfl, rfl, rfl, rfl, rfl, rfl, rfl, rfl⟩

theorem SameCourse.trans (first : before.SameCourse middle) (second : middle.SameCourse after) :
    before.SameCourse after where
  state := second.state.trans first.state
  clock := second.clock.trans first.clock
  predictor := second.predictor.trans first.predictor
  entity := second.entity.trans first.entity
  keys := second.keys.trans first.keys
  lastSent := second.lastSent.trans first.lastSent
  lastRequest := second.lastRequest.trans first.lastRequest
  resend := second.resend.trans first.resend
  outbox := second.outbox.trans first.outbox

theorem sameCourse_handle (mine : player.entity = some own) {message : ServerMessage}
    (foreign : message.isForeign own = true) : player.SameCourse (player.handle message).2 := by
  cases message with
  | entityUpdate snapshot =>
      have other : ¬ player.entity = some snapshot.entity := by
        rw [mine]
        intro same
        cases same
        simp [ServerMessage.isForeign] at foreign
      simp only [handle, update, if_neg other]
      exact ⟨rfl, rfl, rfl, rfl, rfl, rfl, rfl, rfl, rfl⟩
  | entityEntered snapshot =>
      simp only [handle, enter]
      split
      · exact SameCourse.refl player
      · exact ⟨rfl, rfl, rfl, rfl, rfl, rfl, rfl, rfl, rfl⟩
  | entityLeft tick entity => exact ⟨rfl, rfl, rfl, rfl, rfl, rfl, rfl, rfl, rfl⟩
  | chunkData chunk =>
      simp only [handle]
      split
      · exact SameCourse.refl player
      · exact ⟨rfl, rfl, rfl, rfl, rfl, rfl, rfl, rfl, rfl⟩
  | connectionResponse | tickAdjustment | kicked => cases foreign

theorem sameCourse_foldl (mine : player.entity = some own) {messages : List ServerMessage}
    (foreign : ∀ message ∈ messages, message.isForeign own = true) :
    player.SameCourse (messages.foldl (fun player message => (player.handle message).2) player) := by
  induction messages generalizing player with
  | nil => exact SameCourse.refl player
  | cons message rest ih =>
      have one := sameCourse_handle mine (foreign message List.mem_cons_self)
      exact one.trans (ih (one.entity.trans mine) fun later member =>
        foreign later (List.mem_cons_of_mem _ member))

/-- Of all the messages of a tick only the word on the own entity changes the client's course. -/
theorem sameCourse_of_carry {snapshot : Snapshot} (mine : player.entity = some snapshot.entity)
    {messages : List ServerMessage} (carry : ServerMessage.Carry snapshot messages) :
    ({ player with
      predictor := (player.predictor.queueCorrection
        ⟨snapshot.tick, snapshot.motion, snapshot.keys⟩).2 } : Player).SameCourse
      (messages.foldl (fun player message => (player.handle message).2) player) := by
  obtain ⟨before, after, shape, foreignBefore, foreignAfter⟩ := carry
  have first := sameCourse_foldl mine foreignBefore
  rw [shape, List.foldl_append, List.foldl_cons]
  generalize before.foldl (fun player message => (player.handle message).2) player = waiting at first ⊢
  have still : waiting.entity = some snapshot.entity := first.entity.trans mine
  have word : (waiting.handle (.entityUpdate snapshot)).2 =
      { waiting with
        predictor := (waiting.predictor.queueCorrection
          ⟨snapshot.tick, snapshot.motion, snapshot.keys⟩).2 } := by
    simp only [handle, update, if_pos still]
  rw [word]
  have kept : ({ player with
      predictor := (player.predictor.queueCorrection
        ⟨snapshot.tick, snapshot.motion, snapshot.keys⟩).2 } : Player).SameCourse
      { waiting with
        predictor := (waiting.predictor.queueCorrection
          ⟨snapshot.tick, snapshot.motion, snapshot.keys⟩).2 } := by
    refine { first with predictor := ?_ }
    rw [first.predictor]
  refine kept.trans (sameCourse_foldl ?_ foreignAfter)
  exact still

/-- The client has told the server its keys for every tick up to two after `tick`: `next` for the
first, `last` for the second. Its entity has `motion` at `tick`. -/
structure IsInStep (player : Player) (own : EntityId) (tick : Tick) (next last : Keys)
    (motion : Motion) : Prop where
  playing : player.state = .playing
  entity : player.entity = some own
  clock : player.clock.tick = tick + 2
  ahead : player.predictor.IsAhead tick next last motion
  lastSent : player.lastSent = last
  certain : player.resend = false
  outbox : player.outbox = #[]

/-- The client takes its seat and has heard nothing. -/
structure IsFresh (player : Player) : Prop where
  connecting : player.state = .connecting
  lead : player.clock.rules = .standard
  blank : player.predictor.IsBlank
  lastSent : player.lastSent = .neutral
  certain : player.resend = false
  outbox : player.outbox = #[]

/-- What a client says of the keys it holds: the keys where they changed, and else a sign of life. -/
def saying (tick : Tick) (told keys : Keys) : ClientMessage :=
  if keys = told then .heartbeat tick else .input tick keys

/-- The server held the keys it was told, so far as the client can tell. -/
def Agreed (outcome : Outcome) : Prop := ∀ tick count error, outcome ≠ .replayed tick count error false

theorem isContradicted_of_agreed {outcome : Outcome} (agreed : Agreed outcome) :
    player.isContradicted (some outcome) = false := by
  cases outcome with
  | snapped => rfl
  | replayed tick count error matched =>
      cases matched with
      | true => rfl
      | false => exact absurd rfl (agreed tick count error)

/-- A step of a client in no doubt about its keys, whose predictor comes out as `corrected`. -/
structure Steps (before after : Player) (corrected : Predictor) : Prop where
  state : after.state = before.state
  entity : after.entity = before.entity
  clock : after.clock = before.clock.advance
  predictor : after.predictor = corrected.predict before.clock.advance.tick before.keys
  keys : after.keys = before.keys
  lastSent : after.lastSent = before.keys
  certain : after.resend = false
  said : after.outbox = #[saying before.clock.advance.tick before.lastSent before.keys]

theorem step_steps {outcome : Outcome} {corrected : Predictor} (playing : player.state = .playing)
    (reconciled : player.predictor.reconcile = (some outcome, corrected)) (agreed : Agreed outcome)
    (certain : player.resend = false) (quiet : player.outbox = #[]) :
    player.step.1 = some outcome ∧ player.Steps player.step.2 corrected := by
  unfold step
  rw [if_pos playing, reconciled]
  dsimp only
  rw [certain, isContradicted_of_agreed agreed, Bool.or_self]
  refine ⟨rfl, ?_⟩
  unfold report
  by_cases same : player.keys = player.lastSent
  · rw [if_neg (by simp [same])]
    refine ⟨rfl, rfl, rfl, rfl, rfl, same.symm, rfl, ?_⟩
    simp [say, saying, quiet, same]
  · rw [if_pos (Or.inr same)]
    refine ⟨rfl, rfl, rfl, rfl, rfl, rfl, rfl, ?_⟩
    simp [say, saying, quiet, same]

/-- Messages that leave the course alone leave the step alone. -/
theorem SameCourse.steps {course heard : Player} (same : course.SameCourse heard)
    {outcome : Outcome} {corrected : Predictor} (playing : course.state = .playing)
    (reconciled : course.predictor.reconcile = (some outcome, corrected)) (agreed : Agreed outcome)
    (certain : course.resend = false) (quiet : course.outbox = #[]) :
    heard.step.1 = some outcome ∧ course.Steps heard.step.2 corrected := by
  have reconciledHeard : heard.predictor.reconcile = (some outcome, corrected) := by
    rw [same.predictor]
    exact reconciled
  obtain ⟨isOutcome, steps⟩ := step_steps (same.state.trans playing) reconciledHeard agreed
    (same.resend.trans certain) (same.outbox.trans quiet)
  obtain ⟨state, entity, clock, predictor, keys, lastSent, still, said⟩ := steps
  rw [same.clock, same.keys] at predictor
  rw [same.clock, same.lastSent, same.keys] at said
  exact ⟨isOutcome, state.trans same.state, entity.trans same.entity, by rw [clock, same.clock],
    predictor, keys.trans same.keys, lastSent.trans same.keys, still, said⟩

/-- The word that the server has on `own` in the tick after `tick`. -/
structure IsWord (snapshot : Snapshot) (own : EntityId) (tick : Tick) (keys : Keys)
    (motion : Motion) : Prop where
  entity : snapshot.entity = own
  tick_eq : snapshot.tick = tick + 1
  motion_eq : snapshot.motion = motion
  keys_eq : snapshot.keys = keys

variable {tick : Tick} {next last : Keys} {motion : Motion} {snapshot : Snapshot}
  {messages : List ServerMessage}

/-- A step to the third tick ahead brings the client in step, where the predictor is ahead. -/
theorem Steps.isInStep {corrected : Predictor} {keys : Keys} (steps : before.Steps after corrected)
    (playing : before.state = .playing) (entity : before.entity = some own)
    (clock : before.clock.tick = tick + 2) (isKeys : before.keys = keys)
    (told : before.lastSent = last) (room : tick.toNat + 3 < 18446744073709551616)
    (ahead : (corrected.predict (tick + 1 + 2) keys).IsAhead (tick + 1) last keys motion) :
    after.predictor = corrected.predict (tick + 1 + 2) keys ∧
      after.outbox = #[saying (tick + 1 + 2) last keys] ∧
      ({ after with outbox := #[] } : Player).IsInStep own (tick + 1) last keys motion := by
  have advanced : before.clock.advance.tick = tick + 1 + 2 := by
    change Tick.addSaturating before.clock.tick 1 = _
    rw [clock]
    exact Tick.addSaturating_two_one room
  have predictor := steps.predictor
  have said := steps.said
  rw [advanced, isKeys] at predictor
  rw [advanced, isKeys, told] at said
  refine ⟨predictor, said, ?_, ?_, ?_, ?_, steps.lastSent.trans isKeys, steps.certain, rfl⟩
  · exact steps.state.trans playing
  · exact steps.entity.trans entity
  · exact (congrArg Clock.tick steps.clock).trans advanced
  · rw [predictor]
    exact ahead

/-- A client in step hears the word on the next tick, finds it as expected and steps on. -/
theorem IsInStep.turn (inStep : player.IsInStep own tick next last motion)
    (room : tick.toNat + 3 < 18446744073709551616)
    (word : IsWord snapshot own tick next (motion.step next .standard standardStep))
    (carry : ServerMessage.Carry snapshot messages) :
    ∃ heard error,
      messages.foldl (fun player message => (player.handle message).2) player = heard ∧
      heard.step.1 = some (.replayed (tick + 1) 1 error true) ∧
      heard.step.2.outbox = #[saying (tick + 1 + 2) last player.keys] ∧
      1 < heard.step.2.predictor.history.entries.length ∧
      ({ heard.step.2 with outbox := #[] } : Player).IsInStep own (tick + 1) last player.keys
        (motion.step next .standard standardStep) := by
  obtain ⟨entity, tickEq, motionEq, keysEq⟩ := word
  have course := sameCourse_of_carry (inStep.entity.trans (by rw [entity])) carry
  rw [tickEq, motionEq, keysEq] at course
  obtain ⟨error, corrected, reconciled, ahead, older, entries⟩ :=
    inStep.ahead.turn room player.keys
  obtain ⟨outcome, steps⟩ := course.steps inStep.playing reconciled
    (fun _ _ _ same => by cases same) inStep.certain inStep.outbox
  obtain ⟨predictor, said, inStepAfter⟩ := steps.isInStep inStep.playing inStep.entity inStep.clock
    rfl inStep.lastSent room ahead
  refine ⟨_, error, rfl, outcome, said, ?_, inStepAfter⟩
  rw [predictor, entries]
  simp

/-- A client that takes its seat is welcomed, hears the first word and steps. -/
theorem IsFresh.turn (fresh : player.IsFresh) (room : tick.toNat + 3 < 18446744073709551616)
    (spawn : Vec3) (word : IsWord snapshot own tick .neutral motion)
    (carry : ServerMessage.Carry snapshot messages) :
    ∃ heard outcome,
      (.connectionResponse tick own spawn :: messages).foldl
        (fun player message => (player.handle message).2) player = heard ∧
      heard.step.1 = some outcome ∧
      heard.step.2.outbox = #[saying (tick + 1 + 2) .neutral player.keys] ∧
      ({ heard.step.2 with outbox := #[] } : Player).IsInStep own (tick + 1) .neutral player.keys
        motion := by
  obtain ⟨entity, tickEq, motionEq, keysEq⟩ := word
  have welcomed : (player.handle (.connectionResponse tick own spawn)).2 =
      { player with
        state := .playing
        clock := player.clock.synchronize tick
        predictor := player.predictor.reset (.atRest spawn)
        entity := some own } := by
    simp only [handle, welcome, if_pos fresh.connecting]
  have mine : (player.handle (.connectionResponse tick own spawn)).2.entity =
      some snapshot.entity := by rw [welcomed, entity]
  have course := sameCourse_of_carry mine carry
  rw [tickEq, motionEq, keysEq] at course
  rw [List.foldl_cons]
  generalize messages.foldl (fun player message => (player.handle message).2)
    (player.handle (.connectionResponse tick own spawn)).2 = heard at course
  rw [welcomed] at course
  have blank : (player.predictor.reset (.atRest spawn)).IsBlank :=
    ⟨fresh.blank.gait, fresh.blank.dt, rfl, rfl, fresh.blank.room, rfl⟩
  obtain ⟨outcome, corrected, reconciled, agreed, ahead⟩ :=
    blank.turn motion .neutral player.keys (tick + 1)
  have synchronized : (player.clock.synchronize tick).tick = tick + 2 := by
    have two : (2 : UInt64).toNat = 2 := rfl
    change Tick.addSaturating tick player.clock.rules.initialLead = tick + 2
    rw [fresh.lead]
    unfold Tick.addSaturating
    exact if_pos (by change tick.toNat + (2 : UInt64).toNat < _; omega)
  obtain ⟨isOutcome, steps⟩ := course.steps rfl reconciled agreed fresh.certain fresh.outbox
  obtain ⟨-, said, inStep⟩ := steps.isInStep rfl rfl synchronized rfl fresh.lastSent room ahead
  exact ⟨heard, outcome, rfl, isOutcome, said, inStep⟩

theorem isFresh_ofRules : (ofRules .standard).IsFresh where
  connecting := rfl
  lead := rfl
  blank := ⟨rfl, rfl, rfl, rfl, by decide, rfl⟩
  lastSent := rfl
  certain := rfl
  outbox := rfl

theorem IsInStep.setKeys (inStep : player.IsInStep own tick next last motion) (keys : Keys) :
    (player.setKeys keys).IsInStep own tick next last motion :=
  ⟨inStep.playing, inStep.entity, inStep.clock, inStep.ahead, inStep.lastSent, inStep.certain,
    inStep.outbox⟩

theorem IsFresh.setKeys (fresh : player.IsFresh) (keys : Keys) : (player.setKeys keys).IsFresh :=
  ⟨fresh.connecting, fresh.lead, fresh.blank, fresh.lastSent, fresh.certain, fresh.outbox⟩

end Player

end Overworld
