import Overworld.Proofs.Session.Desk
import Overworld.Proofs.Session.Exactness
import Overworld.Proofs.Settings.Fields

set_option autoImplicit false

/-!
Inputs act in their own tick. The diary of a client is kept over a whole run of a session, beside
whatever others do, and every movement in it finds the client's entity holding the input accepted for
that tick, or what it held before.
-/

namespace Overworld

theorem Settings.inputMinLead_nonneg (settings : Settings) (valid : settings.fault? = none) :
    0 ≤ settings.inputMinLead :=
  (fault?_eq_none_iff.mp valid).1.inputMinLead

theorem Settings.desyncLimit_lt (settings : Settings) :
    settings.sequencerRules.desyncLimit.toNat < 9223372036854775808 := by
  change (600 : UInt64).toNat < 9223372036854775808
  decide

namespace Session

open DiaryEntry (Waits held)

variable {session before after : Session} {client : ClientId} {settings : Settings}
  {diary : List DiaryEntry}

/-- What an event says about the keys of a client. -/
def noted (visiting : Visiting) (now : Nat) (client : ClientId) (session : Session)
    (event : InboundEvent) : List DiaryEntry :=
  if event.client = client then
    match event.kind with
    | .connected _ =>
      if session.isConnected client = false ∧
          (session.handle visiting now event).isConnected client = true then [.joined] else []
    | .message (.input tick keys) =>
      match session.connection? client with
      | none => []
      | some connection =>
        match connection.sequencer.receive session.tick tick keys with
        | .error _ => []
        | .ok (.accepted, _) => [.accepted session.tick tick keys]
        | .ok (.dropped _, _) => [.dropped]
    | _ => []
  else []

def notedAll (visiting : Visiting) (now : Nat) (client : ClientId) :
    Session → List InboundEvent → List DiaryEntry
  | _, [] => []
  | session, event :: rest =>
    noted visiting now client session event ++
      notedAll visiting now client (session.handle visiting now event) rest

/-- What is noted once everything has moved, if the client is in. -/
def movement (client : ClientId) (moved : Session) : List DiaryEntry :=
  match moved.desk? client with
  | none => []
  | some desk => [.moved moved.tick desk.keys]

namespace Chronicle

/-- Only ticks are written about: the events that they handle, and then the movement. -/
def notedOf (client : ClientId) (session : Session) : Action → List DiaryEntry
  | .tick visiting now =>
    notedAll visiting now client { session with inbox := session.inbox.drain.2 }
        session.inbox.events ++
      movement client (session.moved visiting now)
  | _ => []

/-- The diary of a client over the actions that a session goes through. -/
def diaryOf (client : ClientId) : Session → List Action → List DiaryEntry
  | _, [] => []
  | session, action :: rest =>
    notedOf client session action ++ diaryOf client (actOn session action) rest

end Chronicle

/-- The diary of a client is honest so far, and its inputs stand as the diary says. -/
structure Records (session : Session) (client : ClientId) (settings : Settings)
    (diary : List DiaryEntry) : Prop where
  honest : DiaryEntry.IsHonest settings diary
  accounts : ∀ desk, session.desk? client = some desk →
    desk.Accounts settings.sequencerRules session.tick diary

theorem Records.of_same (records : before.Records client settings diary)
    (tick : after.tick = before.tick)
    (desk : after.desk? client = none ∨ after.desk? client = before.desk? client) :
    after.Records client settings diary := by
  refine ⟨records.honest, fun found stands => ?_⟩
  rcases desk with none | same
  · rw [none] at stands
    cases stands
  · rw [tick]
    exact records.accounts found (same ▸ stands)

theorem Records.connect (records : session.Records client settings diary)
    (governed : session.settings = settings) (visiting : Visiting) (now : Nat)
    (endpoint : Endpoint) (bytes : UInt64)
    (numbered : (session.connect client endpoint now).world.places ≤ 4294967296) :
    (session.connect client endpoint now).Records client settings
      (diary ++ noted visiting now client session ⟨client, .connected endpoint, bytes⟩) := by
  have tick := session.tick_connect client endpoint now
  have isNoted : noted visiting now client session ⟨client, .connected endpoint, bytes⟩ =
      if session.isConnected client = false ∧
        (session.connect client endpoint now).isConnected client = true then [.joined] else [] :=
    if_pos rfl
  rw [isNoted]
  obtain ⟨isIn, same⟩ | ⟨free, out | ⟨isIn, stands⟩⟩ :=
    session.desk?_connect client endpoint now numbered
  · rw [if_neg (by simp [isIn]), List.append_nil, same]
    exact records
  · rw [if_neg (by simp [out]), List.append_nil]
    refine records.of_same tick (Or.inl ?_)
    rw [desk?_eq_none_iff]
    exact connection?_eq_none_iff.mpr out
  · rw [if_pos ⟨free, isIn⟩]
    refine ⟨records.honest.append trivial, fun desk isDesk => ?_⟩
    rw [stands, governed] at isDesk
    cases isDesk
    exact Desk.accounts_joined ..

theorem Records.receiveInput (records : session.Records client settings diary)
    (least : 0 ≤ settings.inputMinLead) {connection : Connection} {earlier : Connection}
    (found : session.connection? client = some connection)
    (same : connection.sequencer = earlier.sequencer) (visiting : Visiting) (tick : Tick)
    (keys : Keys) :
    (session.receiveInput visiting client tick keys).Records client settings
      (diary ++ match earlier.sequencer.receive session.tick tick keys with
        | .error _ => []
        | .ok (.accepted, _) => [.accepted session.tick tick keys]
        | .ok (.dropped _, _) => [.dropped]) := by
  obtain ⟨desk, stands⟩ : ∃ desk, session.desk? client = some desk := ⟨_, congrArg _ found⟩
  have accounts := records.accounts desk stands
  have still := session.tick_receive visiting client (.input tick keys)
  change (session.receiveInput visiting client tick keys).tick = _ at still
  rw [← same]
  obtain ⟨fault, far, gone⟩ | ⟨sequencer, accepted, held⟩ | ⟨reason, sequencer, dropped, released⟩ :=
    desk?_receiveInput found stands visiting tick keys
  · rw [far, List.append_nil]
    exact records.of_same still (Or.inl gone)
  · have isDesk : desk.rules = connection.sequencer.rules ∧
        desk.pending = connection.sequencer.pending := by
      unfold desk? at stands
      rw [found] at stands
      cases stands
      exact ⟨rfl, rfl⟩
    have rules : connection.sequencer.rules = settings.sequencerRules :=
      isDesk.1.symm.trans accounts.rules_eq
    have small := rules ▸ settings.desyncLimit_lt
    obtain ⟨order, ahead⟩ := Sequencer.le_of_accepted accepted small (rules ▸ least)
    rw [rules] at ahead
    have free := (Sequencer.receive_cases accepted).2.resolve_right
      (fun ⟨⟨_, dropped⟩, _⟩ => by cases dropped)
    have fresh := (Sequencer.isTaken_eq_false.mp free.2.1).1
    rw [← isDesk.2] at fresh
    rw [accepted]
    refine ⟨records.honest.append ⟨order, ahead⟩, fun found isDesk => ?_⟩
    rw [held] at isDesk
    cases isDesk
    rw [still]
    exact accounts.accepted fresh order
  · rw [dropped]
    refine ⟨records.honest.append trivial, fun found isDesk => ?_⟩
    rw [released] at isDesk
    cases isDesk
    rw [still]
    exact accounts.dropped

theorem Records.disconnect (records : session.Records client settings diary) (visiting : Visiting)
    (fault : Option ConnectionFault) :
    (session.disconnect visiting client fault).Records client settings diary :=
  records.of_same (session.tick_disconnect visiting client fault)
    (Or.inl (session.desk?_disconnect visiting client fault))

theorem Records.message (records : session.Records client settings diary)
    (least : 0 ≤ settings.inputMinLead) (visiting : Visiting) (now : Nat)
    (message : ClientMessage) (bytes : UInt64) :
    (session.handle visiting now ⟨client, .message message, bytes⟩).Records client settings
      (diary ++ noted visiting now client session ⟨client, .message message, bytes⟩) := by
  cases found : session.connection? client with
  | none =>
      have nothing : noted visiting now client session ⟨client, .message message, bytes⟩ = [] := by
        unfold noted
        rw [if_pos rfl]
        cases message with
        | input tick keys => simp only [found]
        | heartbeat tick => rfl
        | disconnect => rfl
      rw [nothing, handle_message_of_unknown found, List.append_nil]
      exact records
  | some connection =>
      obtain ⟨counted, isCounted, held, taken⟩ :=
        handle_message_of_connected found visiting now message bytes
      have still : counted.tick = session.tick := isCounted ▸ rfl
      have same : counted.desk? client = session.desk? client := by
        rw [isCounted]
        exact session.desk?_modifyConnection client client _ fun _ => rfl
      have begun : counted.Records client settings diary := records.of_same still (Or.inr same)
      rw [taken]
      unfold noted
      rw [if_pos rfl]
      cases message with
      | input tick keys =>
          simp only [found]
          rw [← still]
          exact begun.receiveInput least held rfl visiting tick keys
      | heartbeat tick =>
          obtain ⟨desk, stands⟩ : ∃ desk, counted.desk? client = some desk := ⟨_, congrArg _ held⟩
          dsimp only
          rw [List.append_nil]
          refine begun.of_same (counted.tick_receive visiting client (.heartbeat tick)) ?_
          rw [stands]
          exact desk?_receiveHeartbeat stands visiting tick
      | disconnect =>
          dsimp only
          rw [List.append_nil]
          exact begun.disconnect visiting none

theorem Records.handle (records : session.Records client settings diary)
    (keeps : session.KeepsCensus settings) (least : 0 ≤ settings.inputMinLead)
    (visiting : Visiting) (now : Nat) (event : InboundEvent)
    (numbered : (session.handle visiting now event).world.places ≤ 4294967296) :
    (session.handle visiting now event).Records client settings
      (diary ++ noted visiting now client session event) := by
  have grown := @Lasts.handle session _ 0 (lasts_places session.world.places) (Nat.le_refl _)
    visiting now event
  have census := keeps (Nat.le_trans grown numbered)
  by_cases isClient : event.client = client
  · obtain ⟨own, kind, bytes⟩ := event
    obtain rfl : client = own := isClient.symm
    cases kind with
    | connected endpoint => exact records.connect census.governed visiting now endpoint bytes numbered
    | disconnected =>
        have nothing : noted visiting now client session ⟨client, .disconnected, bytes⟩ = [] :=
          if_pos rfl
        rw [nothing, List.append_nil]
        exact records.disconnect visiting none
    | message message => exact records.message least visiting now message bytes
  · have still := @Lasts.handle session _ 0 lasts_keepsCensus keeps visiting now event
    have same := (confined_handle session visiting now event).desk? census (still numbered) isClient
    rw [noted, if_neg isClient, List.append_nil]
    exact records.of_same (session.tick_handle visiting now event) (Or.inr same)

theorem Records.handles (records : session.Records client settings diary)
    (keeps : session.KeepsCensus settings) (least : 0 ≤ settings.inputMinLead)
    (visiting : Visiting) (now : Nat) (events : List InboundEvent)
    (numbered : (events.foldl (Session.handle visiting now) session).world.places ≤ 4294967296) :
    (events.foldl (Session.handle visiting now) session).Records client settings
      (diary ++ notedAll visiting now client session events) := by
  induction events generalizing session diary with
  | nil =>
      rw [notedAll, List.append_nil]
      exact records
  | cons event rest ih =>
      have grown := @Lasts.handles (session.handle visiting now event) _ 0
        (lasts_places (session.handle visiting now event).world.places) (Nat.le_refl _)
        visiting now rest
      have one := records.handle keeps least visiting now event (Nat.le_trans grown numbered)
      have still := @Lasts.handle session _ 0 lasts_keepsCensus keeps visiting now event
      have later := ih one still numbered
      rw [List.append_assoc] at later
      exact later

/-- The events of a tick are handled, the silent go, and then comes the movement. -/
theorem Records.runTick (records : session.Records client settings diary)
    (keeps : session.KeepsCensus settings) (least : 0 ≤ settings.inputMinLead)
    (visiting : Visiting) (now : Nat)
    (numbered : (session.runTick visiting now).world.places ≤ 4294967296) :
    (session.runTick visiting now).Records client settings
      (diary ++ Chronicle.notedOf client session (.tick visiting now)) := by
  obtain ⟨written, isWritten⟩ : ∃ written, written = notedAll visiting now client
    { session with inbox := session.inbox.drain.2 } session.inbox.events := ⟨_, rfl⟩
  have isNoted : Chronicle.notedOf client session (.tick visiting now) =
      written ++ movement client (session.moved visiting now) := by
    rw [isWritten]
    rfl
  rw [(session.stays_told visiting now).world.places] at numbered
  have numberedPresent := numbered
  rw [(session.rests_moved visiting now).world.places] at numberedPresent
  have numberedHandled := Nat.le_trans (@Lasts.dropSilent (session.handleAll visiting now) _ 0
    (lasts_places _) (Nat.le_refl _) visiting now) numberedPresent
  have handled : (session.handleAll visiting now).Records client settings (diary ++ written) := by
    have begun : ({ session with inbox := session.inbox.drain.2 } : Session).Records client settings
        diary := records.of_same rfl (Or.inr rfl)
    rw [isWritten]
    have emptied : session.Rests { session with inbox := session.inbox.drain.2 } :=
      rests_of_same rfl rfl rfl rfl
    exact begun.handles (keeps.of_stays emptied.toStays) least visiting now session.inbox.events
      numberedHandled
  have handledKeeps := @Lasts.handleAll session _ 0 lasts_keepsCensus keeps visiting now
  have present := handled.of_same (tick_dropSilent _ visiting now)
    (desk?_dropSilent handledKeeps visiting now numberedHandled client)
  obtain ⟨tick, desk⟩ := desk?_moved keeps visiting now numbered client
  have last : (session.runTick visiting now).tick = (session.moved visiting now).tick := by
    unfold Session.tick
    rw [world_runTick]
    rfl
  have told := session.desk?_runTick visiting now client
  rw [isNoted, ← List.append_assoc]
  unfold movement
  rw [desk] at told ⊢
  cases stands : ((session.handleAll visiting now).dropSilent visiting now).desk? client with
  | none =>
      rw [stands] at told
      dsimp only [Option.map_none]
      rw [List.append_nil]
      refine ⟨present.honest, fun found isDesk => ?_⟩
      rw [told] at isDesk
      cases isDesk
  | some held =>
      have accounts := present.accounts held stands
      rw [stands] at told
      dsimp only [Option.map_some]
      rw [tick]
      refine ⟨present.honest.append (accounts.obeys settings), fun found isDesk => ?_⟩
      rw [told] at isDesk
      cases isDesk
      rw [last, tick]
      exact accounts.release _

namespace Chronicle

theorem notedOf_of_between {action : Action} (between : action.isTick = false) (client : ClientId)
    (session : Session) : notedOf client session action = [] := by
  cases action with
  | tick visiting now => cases between
  | _ => rfl

/-- Between ticks the inputs of a client stay where they are, or the client goes. -/
theorem desk?_act (chronicle : Chronicle) (keeps : chronicle.session.KeepsCensus settings)
    {action : Action} (between : action.isTick = false)
    (numbered : chronicle.session.world.places ≤ 4294967296) (client : ClientId) :
    (chronicle.act action).session.tick = chronicle.session.tick ∧
      ((chronicle.act action).session.desk? client = none ∨
        (chronicle.act action).session.desk? client = chronicle.session.desk? client) := by
  cases action with
  | submit event =>
      change ((chronicle.session.submit event).toOption.getD chronicle.session).tick = _ ∧
        (((chronicle.session.submit event).toOption.getD chronicle.session).desk? client = none ∨
          ((chronicle.session.submit event).toOption.getD chronicle.session).desk? client = _)
      unfold submit
      cases chronicle.session.inbox.submit event <;> exact ⟨rfl, Or.inr rfl⟩
  | tick visiting now => cases between
  | teleport mover position =>
      change ((chronicle.session.teleport? mover position).getD chronicle.session).tick = _ ∧
        (((chronicle.session.teleport? mover position).getD chronicle.session).desk? client = none ∨
          ((chronicle.session.teleport? mover position).getD chronicle.session).desk? client = _)
      cases moved : chronicle.session.teleport? mover position with
      | none => exact ⟨rfl, Or.inr rfl⟩
      | some after => exact (desk?_teleport? moved client).imp_right Or.inr
  | giveUp visiting leaver fault =>
      refine ⟨tick_disconnect _ visiting leaver (some fault), ?_⟩
      change (chronicle.session.disconnect visiting leaver (some fault)).desk? client = none ∨
        (chronicle.session.disconnect visiting leaver (some fault)).desk? client = _
      by_cases isClient : leaver = client
      · rw [← isClient]
        exact Or.inl (desk?_disconnect ..)
      · have left : (chronicle.session.disconnect visiting leaver (some fault)).CensusHolds
            settings := by
          refine keeps.disconnect visiting leaver (some fault) ?_
          rw [places_disconnect]
          exact numbered
        have confined := chronicle.session.confined_disconnect visiting leaver (some fault)
        exact Or.inr (confined.desk? (keeps numbered) left isClient)
  | invalidateChunk chunk => exact ⟨rfl, Or.inr (desk?_invalidateChunk _ chunk client)⟩
  | drain => exact ⟨rfl, Or.inr rfl⟩

theorem records_foldl {chronicle : Chronicle}
    (records : chronicle.session.Records client settings diary)
    (keeps : chronicle.session.KeepsCensus settings) (least : 0 ≤ settings.inputMinLead)
    (actions : List Action)
    (numbered : (actions.foldl act chronicle).session.world.places ≤ 4294967296) :
    (actions.foldl act chronicle).session.Records client settings
      (diary ++ diaryOf client chronicle.session actions) := by
  induction actions generalizing chronicle diary with
  | nil =>
      rw [diaryOf, List.append_nil]
      exact records
  | cons action rest ih =>
      have later : (chronicle.act action).session.world.places ≤ 4294967296 :=
        Nat.le_trans (places_le_foldl _ rest) numbered
      have still : (chronicle.act action).session.KeepsCensus settings :=
        lasts_keepsCensus.run KeepsCensus.of_stays keeps [action]
      have one : (chronicle.act action).session.Records client settings
          (diary ++ notedOf client chronicle.session action) := by
        cases between : action.isTick with
        | false =>
            have now := Nat.le_trans (places_le_act chronicle action) later
            obtain ⟨tick, desk⟩ := desk?_act chronicle keeps between now client
            rw [notedOf_of_between between, List.append_nil]
            exact records.of_same tick desk
        | true =>
            cases action with
            | tick visiting now => exact records.runTick keeps least visiting now later
            | _ => cases between
      have all := ih one still numbered
      rw [List.append_assoc] at all
      exact all

theorem run_records (settings : Settings) (map : TileMap) (actions : List Action)
    (client : ClientId) (least : 0 ≤ settings.inputMinLead)
    (numbered : (run settings map actions).session.world.places ≤ 4294967296) :
    (run settings map actions).session.Records client settings
      (diaryOf client (ofSettings settings map) actions) := by
  have begun : (start settings map).session.Records client settings [] := by
    refine ⟨DiaryEntry.isHonest_nil settings, fun desk stands => ?_⟩
    unfold start ofSettings desk? connection? at stands
    simp at stands
  exact records_foldl begun (ofSettings_keepsCensus settings map) least actions numbered

/-- What is accepted ahead of its tick acts in it. Over every run of a session with valid settings the
diary of a client says so: in the movement of a tick its entity holds the input that was accepted for
that tick in the same stay, and none that was accepted ahead of its own tick is passed by. While all
that waits is for later ticks the entity holds what it held: the input of the movement before, or
nothing where an input was dropped since or the client is new. Where the settings ask for a lead, these
two are all there is. Where they do not, an input may also be accepted for the tick completed last; it
acts in the next one, unless another is due then. -/
theorem run_inputs_act (settings : Settings) (map : TileMap) (actions : List Action)
    (client : ClientId) (valid : settings.fault? = none)
    (numbered : (run settings map actions).session.world.places ≤ 4294967296) :
    let diary := diaryOf client (ofSettings settings map) actions
    (∀ earlier completed tick keys later,
      diary = earlier ++ .accepted completed tick keys :: later →
        completed ≤ tick ∧ (0 < settings.inputMinLead → completed < tick)) ∧
    ∀ earlier number kept later, diary = earlier ++ .moved number kept :: later →
      (∀ completed keys, Waits earlier completed number keys → kept = some keys) ∧
      (∀ completed tick keys, Waits earlier completed tick keys → completed < tick →
        number ≤ tick) ∧
      ((∀ completed tick keys, Waits earlier completed tick keys → number < tick) →
        kept = held earlier) ∧
      (0 < settings.inputMinLead → (∀ completed keys, ¬ Waits earlier completed number keys) →
        kept = held earlier) ∧
      (∀ completed tick keys, Waits earlier completed tick keys → tick < number →
        settings.inputMinLead = 0 ∧ completed = tick ∧ number = tick + 1 ∧
          ((∀ completed keys, ¬ Waits earlier completed number keys) → kept = some keys)) := by
  intro diary
  have least := settings.inputMinLead_nonneg valid
  have honest := (run_records settings map actions client least numbered).honest
  refine ⟨fun earlier completed tick keys later split => honest _ _ _ split,
    fun earlier number kept later split => ?_⟩
  obtain ⟨due, ahead, overdue, quiet⟩ := honest _ _ _ split
  -- whatever waits was accepted, and is written down as such
  have accepted : ∀ completed tick keys, Waits earlier completed tick keys →
      0 < settings.inputMinLead → completed < tick := by
    rintro completed tick keys ⟨front, back, rfl, -, -⟩ positive
    have written : diary = front ++ .accepted completed tick keys ::
        (back ++ .moved number kept :: later) := by
      rw [split, List.append_assoc]
      rfl
    exact (honest _ _ _ written).2 positive
  refine ⟨due, ahead, quiet, fun positive none => quiet fun completed tick keys waits => ?_,
    fun completed tick keys waits late => ?_⟩
  · have order := ahead completed tick keys waits (accepted completed tick keys waits positive)
    refine UInt64.lt_of_le_of_ne order ?_
    rintro rfl
    exact none completed keys waits
  · obtain ⟨same, next, holds⟩ := overdue completed tick keys waits late
    refine ⟨?_, same, next, holds⟩
    rcases Int64.lt_or_eq_of_le least with positive | zero
    · exact absurd (same ▸ accepted completed tick keys waits positive) (UInt64.lt_irrefl _)
    · exact zero.symm

theorem diaryOf_append (client : ClientId) (session : Session) (actions more : List Action) :
    diaryOf client session (actions ++ more) =
      diaryOf client session actions ++ diaryOf client (actions.foldl actOn session) more := by
  induction actions generalizing session with
  | nil => rfl
  | cons action rest ih =>
      rw [List.cons_append, diaryOf, ih, diaryOf, List.append_assoc]
      rfl

theorem session_foldl_act (actions : List Action) (chronicle : Chronicle) :
    (actions.foldl act chronicle).session = actions.foldl actOn chronicle.session := by
  induction actions generalizing chronicle with
  | nil => rfl
  | cons action rest ih => exact ih (chronicle.act action)

/-- A tick that begins with one event waiting, at the beginning of the clock. -/
def turn (event : InboundEvent) : List Action := [.submit event, .tick .ascending 0]

/-- In such a tick a client that is in once the event is handled is handed what is due, and all that is
written in its diary is about that event and the movement. -/
theorem turn_spec (session : Session) (event : InboundEvent) {connection : Connection}
    (idle : session.inbox = .ofCapacity Inbox.standardCapacity)
    (keeps : session.KeepsCensus settings)
    (numbered : ((turn event).foldl actOn session).world.places ≤ 4294967296)
    (isIn : (session.handle .ascending 0 event).connection? client = some connection) :
    ((turn event).foldl actOn session).tick = session.tick + 1 ∧
      ((turn event).foldl actOn session).inbox = .ofCapacity Inbox.standardCapacity ∧
      (∃ told, ((turn event).foldl actOn session).connection? client = some told ∧
        told.sequencer = (connection.sequencer.release (session.tick + 1)).2) ∧
      ∃ kept, diaryOf client session (turn event) =
        noted .ascending 0 client session event ++ [.moved (session.tick + 1) kept] := by
  obtain ⟨waiting, isWaiting⟩ : ∃ waiting : Session, waiting =
    { session with inbox := ⟨.atLeastOne Inbox.standardCapacity, [event], true⟩ } := ⟨_, rfl⟩
  have submitted : actOn session (.submit event) = waiting := by
    unfold actOn submit
    rw [idle, isWaiting]
    rfl
  have emptied : { waiting with inbox := waiting.inbox.drain.2 } = session := by
    obtain ⟨_, _, _, _, inbox, _, _, _, _⟩ := session
    cases idle
    rw [isWaiting]
    rfl
  have waits : waiting.inbox.events = [event] := by rw [isWaiting]
  have present : (waiting.handleAll .ascending 0).dropSilent .ascending 0 =
      session.handle .ascending 0 event := by
    rw [dropSilent_zero]
    unfold handleAll
    change (waiting.inbox.events).foldl (handle .ascending 0)
      { waiting with inbox := waiting.inbox.drain.2 } = _
    rw [emptied, waits]
    rfl
  have after : (turn event).foldl actOn session = waiting.runTick .ascending 0 :=
    congrArg (actOn · (.tick .ascending 0)) submitted
  have isKept : waiting.KeepsCensus settings := by
    have rests : session.Rests waiting := isWaiting ▸ rests_of_same rfl rfl rfl rfl
    exact keeps.of_stays rests.toStays
  rw [after] at numbered ⊢
  rw [(waiting.stays_told .ascending 0).world.places] at numbered
  obtain ⟨tick, desk⟩ := desk?_moved isKept .ascending 0 numbered client
  rw [present, tick_handle] at tick desk
  have last : (waiting.runTick .ascending 0).tick = (waiting.moved .ascending 0).tick := by
    unfold Session.tick
    rw [world_runTick]
    rfl
  have moved := waiting.connection?_moved .ascending 0 client
  dsimp only at moved
  rw [present, tick_handle, isIn, Option.map_some] at moved
  have told := (waiting.connection?_runTick .ascending 0 client).trans (congrArg _ moved)
  refine ⟨last.trans tick, ?_, ⟨_, told, (informed_frame _ _ _).2⟩, ?_⟩
  · rw [(waiting.follows_runTick .ascending 0).inbox, emptied, idle]
  · obtain ⟨stands, isDesk⟩ : ∃ stands, (waiting.moved .ascending 0).desk? client = some stands :=
      ⟨_, congrArg _ moved⟩
    have isNoted : notedOf client waiting (.tick .ascending 0) =
        noted .ascending 0 client session event ++ [.moved (session.tick + 1) stands.keys] := by
      unfold notedOf movement
      dsimp only
      rw [emptied, waits, isDesk, tick, notedAll, notedAll, List.append_nil]
    refine ⟨stands.keys, ?_⟩
    unfold turn
    rw [diaryOf, diaryOf, diaryOf, submitted, isNoted, List.append_nil]
    rfl

/-- The first client joins, and says in the next tick what keys it will hold. -/
def firstInput (tick : Tick) (keys : Keys) : List Action :=
  firstClient ++ turn ⟨⟨0⟩, .message (.input tick keys), 0⟩

theorem connection?_firstInput (settings : Settings) (map : TileMap)
    (room : 0 < settings.maxConnections) (endpoint : Endpoint) :
    ∃ connection, connection.sequencer = .ofRules settings.sequencerRules ∧
      ((ofSettings settings map).connect ⟨0⟩ endpoint 0).connection? ⟨0⟩ = some connection := by
  have free : (ofSettings settings map).isConnected ⟨0⟩ = false := Std.HashMap.contains_empty
  obtain ⟨entity, members⟩ := connection?_connect endpoint 0 free room
  exact ⟨_, rfl, (members ⟨0⟩).trans (if_pos rfl)⟩

/-- An input that the sequencer of the first client accepts is written between the movements of its
first two ticks. -/
theorem diaryOf_firstInput (settings : Settings) (map : TileMap) {tick : Tick} {keys : Keys}
    (room : 0 < settings.maxConnections)
    (numbered : (run settings map (firstInput tick keys)).session.world.places ≤ 4294967296)
    {sequencer : Sequencer} (accepted : (Sequencer.ofRules settings.sequencerRules).receive 1 tick
      keys = .ok (.accepted, sequencer)) :
    ∃ first second, diaryOf ⟨0⟩ (ofSettings settings map) (firstInput tick keys) =
      [.joined, .moved 1 first, .accepted 1 tick keys, .moved 2 second] := by
  obtain ⟨joining, isJoining⟩ : ∃ joining : InboundEvent, joining =
    ⟨⟨0⟩, .connected (.v4 #v[127, 0, 0, 1] 4000), 0⟩ := ⟨_, rfl⟩
  obtain ⟨saying, isSaying⟩ : ∃ saying : InboundEvent, saying =
    ⟨⟨0⟩, .message (.input tick keys), 0⟩ := ⟨_, rfl⟩
  have isActions : firstInput tick keys = turn joining ++ turn saying := by
    rw [isJoining, isSaying]
    rfl
  obtain ⟨joined, isJoined⟩ : ∃ joined, joined = (run settings map (turn joining)).session :=
    ⟨_, rfl⟩
  have wasTurned : joined = (turn joining).foldl actOn (ofSettings settings map) :=
    isJoined.trans (session_foldl_act ..)
  have ended : (run settings map (firstInput tick keys)).session =
      (turn saying).foldl actOn joined := by
    rw [isActions, run_append, session_foldl_act, ← isJoined]
  have numberedJoined : joined.world.places ≤ 4294967296 := by
    refine Nat.le_trans ?_ numbered
    rw [isActions, run_append, isJoined]
    exact places_le_foldl ..
  rw [ended] at numbered
  have begun : (ofSettings settings map).tick = 0 :=
    tick_spawnNpcs settings.npcCount (World.ofGrid settings.grid .standard settings.dt)
      (.ofSeed settings.worldSeed)
  -- the client joins in the first tick
  obtain ⟨connection, fresh, isIn⟩ := connection?_firstInput settings map room
    (.v4 #v[127, 0, 0, 1] 4000)
  have isHandled : ((ofSettings settings map).handle .ascending 0 joining).connection? ⟨0⟩ =
      some connection := isJoining ▸ isIn
  obtain ⟨one, idle, ⟨told, isTold, kept⟩, first, firstTurn⟩ := turn_spec (ofSettings settings map)
    joining rfl (ofSettings_keepsCensus settings map) (wasTurned ▸ numberedJoined) isHandled
  rw [← wasTurned] at one idle isTold
  rw [begun] at one firstTurn
  have firstNote : noted .ascending 0 ⟨0⟩ (ofSettings settings map) joining = [.joined] := by
    have free : (ofSettings settings map).isConnected ⟨0⟩ = false := Std.HashMap.contains_empty
    have connected : ((ofSettings settings map).handle .ascending 0 joining).isConnected ⟨0⟩ =
        true := by
      rw [isConnected_eq, isHandled]
      rfl
    rw [isJoining] at connected ⊢
    exact (if_pos rfl).trans (if_pos ⟨free, connected⟩)
  have unmoved : told.sequencer = .ofRules settings.sequencerRules := by
    rw [kept, fresh]
    rfl
  -- and its input is accepted in the second
  have secondNote : noted .ascending 0 ⟨0⟩ joined saying = [.accepted 1 tick keys] := by
    rw [isSaying]
    unfold noted
    rw [if_pos rfl]
    dsimp only
    rw [isTold]
    dsimp only
    rw [unmoved, show joined.tick = 1 from one, accepted]
  obtain ⟨counted, isCounted, held, taken⟩ :=
    handle_message_of_connected isTold .ascending 0 (.input tick keys) 0
  have still : counted.tick = joined.tick := isCounted ▸ rfl
  rw [← isSaying] at taken
  obtain ⟨speaking, isSpeaking⟩ :
      ∃ speaking, (joined.handle .ascending 0 saying).connection? ⟨0⟩ = some speaking := by
    refine Option.ne_none_iff_exists'.mp fun gone => ?_
    obtain ⟨desk, stands⟩ : ∃ desk, counted.desk? ⟨0⟩ = some desk := ⟨_, congrArg _ held⟩
    have answer : (told.recordReceived 0 0).sequencer.receive counted.tick tick keys =
        .ok (.accepted, sequencer) := by
      rw [still, show joined.tick = 1 from one]
      exact unmoved ▸ accepted
    rw [taken, ← desk?_eq_none_iff] at gone
    change (counted.receiveInput .ascending ⟨0⟩ tick keys).desk? ⟨0⟩ = none at gone
    rcases desk?_receiveInput held stands .ascending tick keys with
      ⟨fault, far, -⟩ | ⟨_, -, kept⟩ | ⟨reason, _, dropped, -⟩
    · rw [answer] at far
      cases far
    · rw [gone] at kept
      cases kept
    · rw [answer] at dropped
      cases dropped
  obtain ⟨-, -, -, second, secondTurn⟩ := turn_spec joined saying idle
    (isJoined ▸ run_keepsCensus settings map (turn joining)) numbered isSpeaking
  rw [one, secondNote] at secondTurn
  rw [firstNote] at firstTurn
  refine ⟨first, second, ?_⟩
  rw [isActions, diaryOf_append, ← wasTurned, firstTurn, secondTurn]
  rfl

/-- The first client of standard settings says in its second tick that it goes right. -/
theorem first_input_acts :
    Settings.standard.fault? = none ∧
    diaryOf ⟨0⟩ (ofSettings .standard ⟨16, fun _ => []⟩) (firstInput 2 (Keys.neutral.press .right)) =
      [.joined, .moved 1 (some .neutral), .accepted 1 2 (Keys.neutral.press .right),
        .moved 2 (some (Keys.neutral.press .right))] := by
  have valid : Settings.standard.fault? = none := by decide +kernel
  have numbered : (run .standard ⟨16, fun _ => []⟩ (firstInput 2 (Keys.neutral.press
      .right))).session.world.places ≤ 4294967296 :=
    Nat.le_trans (places_run_le ..) (by decide)
  obtain ⟨first, second, isDiary⟩ := diaryOf_firstInput .standard ⟨16, fun _ => []⟩ (by decide)
    numbered (show (Sequencer.ofRules Settings.standard.sequencerRules).receive 1 2
      (Keys.neutral.press .right) = .ok (.accepted, _) from rfl)
  obtain ⟨-, moves⟩ := run_inputs_act .standard ⟨16, fun _ => []⟩
    (firstInput 2 (Keys.neutral.press .right)) ⟨0⟩ valid numbered
  rw [isDiary] at moves ⊢
  have firstHeld : first = some .neutral :=
    (moves [.joined] 1 first _ rfl).2.2.1 fun _ _ _ waits =>
      absurd waits (@DiaryEntry.not_waits_joined [] _ _ _)
  have secondHeld : second = some (Keys.neutral.press .right) :=
    (moves [.joined, .moved 1 first, .accepted 1 2 (Keys.neutral.press .right)] 2 second [] rfl).1
      1 _ ⟨[.joined, .moved 1 first], [], rfl, List.not_mem_nil, fun _ _ none => by cases none⟩
  rw [firstHeld, secondHeld]
  exact ⟨valid, rfl⟩

/-- Settings that ask for no lead, without patrols. -/
def unhurried : Settings := { Settings.standard with inputMinLead := 0, npcCount := 0 }

/-- An input that is accepted for the tick just completed, whose movement is over, acts in the next
tick, for which there is none. -/
theorem input_for_completed_tick_acts :
    unhurried.fault? = none ∧
    diaryOf ⟨0⟩ (ofSettings unhurried ⟨16, fun _ => []⟩) (firstInput 1 (Keys.neutral.press .right)) =
      [.joined, .moved 1 (some .neutral), .accepted 1 1 (Keys.neutral.press .right),
        .moved 2 (some (Keys.neutral.press .right))] := by
  have valid : unhurried.fault? = none := by decide +kernel
  have numbered : (run unhurried ⟨16, fun _ => []⟩ (firstInput 1 (Keys.neutral.press
      .right))).session.world.places ≤ 4294967296 :=
    Nat.le_trans (places_run_le ..) (by decide)
  obtain ⟨first, second, isDiary⟩ := diaryOf_firstInput unhurried ⟨16, fun _ => []⟩ (by decide)
    numbered (show (Sequencer.ofRules unhurried.sequencerRules).receive 1 1
      (Keys.neutral.press .right) = .ok (.accepted, _) from rfl)
  have honest := (run_records unhurried ⟨16, fun _ => []⟩
    (firstInput 1 (Keys.neutral.press .right)) ⟨0⟩ (by decide) numbered).honest
  rw [isDiary] at honest ⊢
  have noneFirst : ∀ completed tick keys, ¬ Waits [.joined] completed tick keys := fun _ _ _ =>
    @DiaryEntry.not_waits_joined [] _ _ _
  have noneSecond : ∀ completed keys, ¬ Waits
      [.joined, .moved 1 first, .accepted 1 1 (Keys.neutral.press .right)] completed 2 keys := by
    intro completed keys waits
    rcases (@DiaryEntry.waits_accepted [.joined, .moved 1 first] _ _ _ _ _ _).mp waits with
      ⟨-, wrong, -⟩ | earlier
    · exact absurd wrong (by decide)
    · exact noneFirst _ _ _ ((@DiaryEntry.waits_moved [.joined] _ _ _ _ _).mp earlier).1
  have firstHeld : first = some .neutral :=
    (honest [.joined] (.moved 1 first) _ rfl).2.2.2 fun _ _ _ waits =>
      absurd waits (noneFirst _ _ _)
  have secondHeld : second = some (Keys.neutral.press .right) := by
    have obeys := honest [.joined, .moved 1 first, .accepted 1 1 (Keys.neutral.press .right)]
      (.moved 2 second) [] rfl
    refine (obeys.2.2.1 1 1 _ ⟨[.joined, .moved 1 first], [], rfl, List.not_mem_nil,
      fun _ _ none => by cases none⟩ (by decide)).2.2 noneSecond
  rw [firstHeld, secondHeld]
  exact ⟨valid, rfl⟩

end Chronicle

end Session

end Overworld
