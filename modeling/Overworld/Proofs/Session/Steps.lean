import Mathlib.Logic.Relation
import Overworld.Proofs.Number.Draws
import Overworld.Proofs.Replication.Connection
import Overworld.Proofs.Session.Stillness
import Overworld.Proofs.World.Finiteness

set_option autoImplicit false

/-!
The small steps that all of a session is made of, up to what clients are told of their surroundings.
What each small step keeps holds of everything: so what is to be known about a run is known from ten
cases.
-/

namespace Overworld

namespace Session

/-- What a client may be told besides its surroundings, where connections end for such causes. -/
inductive IsNotice (cause : ConnectionFault → Prop) : ServerMessage → Prop
  | welcome (tick : Tick) (entity : EntityId) (spawn : Vec3) :
      IsNotice cause (.connectionResponse tick entity spawn)
  | left (tick : Tick) (entity : EntityId) : IsNotice cause (.entityLeft tick entity)
  | adjustment (delta : Int64) : IsNotice cause (.tickAdjustment delta)
  | kicked (fault : ConnectionFault) (known : cause fault) : IsNotice cause (.kicked fault.message)

inductive Step (cause : ConnectionFault → Prop) (session : Session) : Session → Prop
  /-- Counters, draws and waiting events. -/
  | aside (metrics : Metrics) (random : Generator) (inbox : Inbox) :
      Step cause session { session with metrics, random, inbox }
  | world (change : World.Change) :
      Step cause session { session with world := session.world.apply change }
  /-- A connection changes in what its client does not see. -/
  | revise (client : ClientId) (change : Connection → Connection)
      (same : ∀ connection : Connection, connection.HasSameView (change connection)) :
      Step cause session (session.modifyConnection client change)
  | invalidate (chunk : ChunkPosition) : Step cause session (session.invalidateChunk chunk)
  /-- A client comes in and has seen nothing yet. -/
  | join (client : ClientId) (connection : Connection) (blank : connection.interest.visible = [])
      (unseen : connection.observed = ∅) :
      Step cause session { session with connections := session.connections.insert client connection }
  | forget (client : ClientId) (gone : EntityId) :
      Step cause session (session.modifyConnection client fun connection =>
        { connection with
          interest := connection.interest.forget gone
          observed := connection.observed.erase gone })
  | part (client : ClientId) :
      Step cause session { session with connections := session.connections.erase client }
  | tell (client : ClientId) (message : ServerMessage) (notice : IsNotice cause message) :
      Step cause session (session.send client message)
  | close (client : ClientId) : Step cause session (session.close client)
  | drain : Step cause session session.drainOutbound.2

/-- Some small steps, one after the other. -/
def Reaches (cause : ConnectionFault → Prop) : Session → Session → Prop :=
  Relation.ReflTransGen (Step cause)

variable {cause : ConnectionFault → Prop} {session before middle after : Session}

theorem Step.reaches (step : Step cause before after) : before.Reaches cause after :=
  .single step

theorem Reaches.trans (first : before.Reaches cause middle) (second : middle.Reaches cause after) :
    before.Reaches cause after :=
  Relation.ReflTransGen.trans first second

theorem Reaches.step (first : before.Reaches cause middle) (second : Step cause middle after) :
    before.Reaches cause after :=
  Relation.ReflTransGen.tail first second

/-- What each small step keeps is kept. -/
theorem Reaches.keeps (reaches : before.Reaches cause after) (holds : Session → Prop)
    (start : holds before)
    (each : ∀ {session next}, holds session → Step cause session next → holds next) :
    holds after := by
  induction reaches with
  | refl => exact start
  | tail _ step ih => exact each ih step

theorem Reaches.settings (reaches : before.Reaches cause after) :
    after.settings = before.settings := by
  refine reaches.keeps (fun session => session.settings = before.settings) rfl ?_
  intro session next same step
  cases step <;> exact same

theorem reaches_foldl {α : Type} {step : Session → α → Session} (items : List α)
    (one : ∀ (session : Session), ∀ item ∈ items, session.Reaches cause (step session item))
    (session : Session) : session.Reaches cause (items.foldl step session) := by
  induction items generalizing session with
  | nil => exact .refl
  | cons item rest ih =>
      exact (one session item List.mem_cons_self).trans
        (ih (fun session later member => one session later (List.mem_cons_of_mem _ member)) _)

/-- All that a session ends connections for at the time `now`, or before it. -/
structure Covers (cause : ConnectionFault → Prop) (settings : Settings) (now : Nat) : Prop where
  desync : ∀ fault, cause (.desync fault)
  timeout : ∀ idle, idle ≤ now / 1000 → cause (.timeout idle)
  full : cause (.serverFull settings.maxConnections)

theorem reaches_withMetrics (session : Session) (metrics : Metrics) :
    session.Reaches cause { session with metrics } :=
  (Step.aside metrics session.random session.inbox).reaches

theorem reaches_evolve (session : Session) (changes : List World.Change) :
    session.Reaches cause { session with world := session.world.evolve changes } := by
  induction changes generalizing session with
  | nil => exact .refl
  | cons change rest ih =>
      exact (Step.world change).reaches.trans
        (ih { session with world := session.world.apply change })

theorem reaches_revise (session : Session) (client : ClientId) (change : Connection → Connection)
    (same : ∀ connection : Connection, connection.HasSameView (change connection)) :
    session.Reaches cause (session.modifyConnection client change) :=
  (Step.revise client change same).reaches

theorem reaches_withSequencer (session : Session) (client : ClientId) (sequencer : Sequencer) :
    session.Reaches cause (session.modifyConnection client fun connection =>
      { connection with sequencer }) :=
  session.reaches_revise client _ fun _ => ⟨rfl, rfl, rfl⟩

theorem reaches_tellLeft (session : Session) (gone : EntityId) (client : ClientId) :
    session.Reaches cause (session.tellLeft gone client) := by
  unfold tellLeft
  split
  · exact .refl
  · split
    · exact ((Step.forget client gone).reaches.step (.tell client _ (.left ..))).trans
        (reaches_withMetrics ..)
    · exact .refl

theorem reaches_disconnect (session : Session) (visiting : Visiting) (client : ClientId)
    (fault : Option ConnectionFault) (known : ∀ reason, fault = some reason → cause reason) :
    session.Reaches cause (session.disconnect visiting client fault) := by
  cases found : session.connection? client with
  | none =>
      unfold disconnect
      rw [found]
      exact .refl
  | some connection =>
      obtain ⟨parted, told, removed, isParted, isTold, isRemoved, left⟩ :=
        disconnect_cases found visiting fault
      have toParted : session.Reaches cause parted := isParted ▸ (Step.part client).reaches
      have toTold : parted.Reaches cause told := by
        rcases isTold with ⟨-, rfl⟩ | ⟨reason, isReason, rfl⟩
        · exact .refl
        · exact (reaches_withMetrics ..).step
            (.tell client _ (.kicked reason (known reason isReason)))
      have toRemoved : (told.close client).Reaches cause removed := by
        rcases isRemoved with ⟨-, rfl⟩ | ⟨entity, world, gone, rfl⟩
        · exact .refl
        · have despawned : (told.close client).world.apply (.despawn connection.entity) = world := by
            simp only [World.apply, show (told.close client).world = told.world from rfl, gone]
            rfl
          exact despawned ▸ (Step.world (.despawn connection.entity)).reaches
      rw [left]
      exact (((toParted.trans toTold).step (.close client)).trans toRemoved).trans
        (reaches_foldl _ (fun session other _ => session.reaches_tellLeft _ other) _)

theorem isFinite_drawPlace {spread : Single} {scale : Nat} (low : 23 ≤ scale) (high : scale ≤ 253)
    (counts : spread.Counts (2 ^ scale)) (random : Generator) :
    ((drawPlace spread random).1).isFinite = true := by
  have level : Single.zero.isFinite = true := by decide
  have x := Generator.isFinite_between low high counts random 1
  have y := Generator.isFinite_between low high counts (random.between (-spread) spread 1).2 1
  change (_ && _ && _) = true
  rw [Bool.and_eq_true, Bool.and_eq_true]
  exact ⟨⟨x, y⟩, level⟩

theorem reaches_connect (session : Session) (client : ClientId) (endpoint : Endpoint) (now : Nat)
    (full : cause (.serverFull session.settings.maxConnections)) :
    session.Reaches cause (session.connect client endpoint now) := by
  obtain ⟨-, same⟩ | ⟨-, -, refused⟩ |
    ⟨-, -, place, random, entity, world, joined, drawn, came, isJoined, accepted⟩ :=
    session.connect_cases client endpoint now
  · rw [same]
    exact .refl
  · rw [refused]
    exact ((Step.tell client _ (.kicked _ full)).reaches.step (.close client)).trans
      (reaches_withMetrics ..)
  · have counts : clientSpread.Counts (2 ^ 155) := ⟨by decide, by decide⟩
    have somewhere : place.isFinite = true := by
      have finite := isFinite_drawPlace (by decide) (by decide) counts session.random
      rw [drawn] at finite
      exact finite
    have spawned : session.world.apply (.spawn place somewhere actorHalfExtent .controlled) =
        world := congrArg Prod.snd came
    have begun : session.Reaches cause
        { session with
          metrics := session.metrics.tally .connectionsTotal, random
          world := session.world.apply (.spawn place somewhere actorHalfExtent .controlled) } :=
      (Step.aside _ random session.inbox).reaches.step (.world _)
    rw [spawned] at begun
    rw [accepted, isJoined]
    exact (begun.step (.join client _ rfl rfl)).step (.tell client _ (.welcome ..))

theorem reaches_sendAdjustment (session : Session) (client : ClientId) :
    session.Reaches cause (session.sendAdjustment client) := by
  unfold sendAdjustment
  split
  · exact .refl
  · dsimp only
    split
    · exact session.reaches_withSequencer client _
    · exact ((session.reaches_withSequencer client _).trans (reaches_withMetrics ..)).step
        (.tell client _ (.adjustment _))

theorem reaches_recordAdmission (session : Session) (entity : EntityId) (admission : Admission) :
    session.Reaches cause (session.recordAdmission entity admission) := by
  cases admission with
  | accepted => exact session.reaches_withMetrics _
  | dropped reason =>
      exact (session.reaches_withMetrics (session.metrics.recordDrop reason)).step
        (.world (.neutralize entity))

theorem reaches_receive (session : Session) (visiting : Visiting) (client : ClientId)
    (message : ClientMessage) (desync : ∀ fault, cause (.desync fault)) :
    session.Reaches cause (session.receive visiting client message) := by
  have gone : ∀ fault, session.Reaches cause
      (session.disconnect visiting client (some (.desync fault))) := by
    intro fault
    refine session.reaches_disconnect visiting client _ fun reason isIt => ?_
    cases isIt
    exact desync fault
  cases message with
  | disconnect => exact session.reaches_disconnect visiting client none fun _ none => nomatch none
  | input tick keys =>
      unfold receive receiveInput
      dsimp only
      split
      · exact .refl
      · split
        · exact gone _
        · exact ((session.reaches_withSequencer client _).trans (reaches_recordAdmission ..)).trans
            (reaches_sendAdjustment ..)
  | heartbeat tick =>
      unfold receive receiveHeartbeat
      dsimp only
      split
      · exact .refl
      · split
        · exact gone _
        · exact (session.reaches_withSequencer client _).trans (reaches_sendAdjustment ..)

theorem reaches_handle (session : Session) (visiting : Visiting) (now : Nat) (event : InboundEvent)
    (covers : Covers cause session.settings now) :
    session.Reaches cause (session.handle visiting now event) := by
  unfold handle
  split
  · exact session.reaches_connect event.client _ now covers.full
  · exact session.reaches_disconnect visiting event.client none fun _ none => nomatch none
  · split
    · have received : session.Reaches cause
          (session.modifyConnection event.client (·.recordReceived event.bytes now)) :=
        session.reaches_revise event.client _ fun _ => ⟨rfl, rfl, rfl⟩
      have counted := received.trans
        (reaches_withMetrics _ (session.metrics.recordReceived event.bytes))
      exact counted.trans (reaches_receive _ visiting event.client _ covers.desync)
    · exact .refl

theorem reaches_handles (visiting : Visiting) (now : Nat) (events : List InboundEvent)
    (session : Session) (covers : Covers cause session.settings now) :
    session.Reaches cause (events.foldl (handle visiting now) session) := by
  induction events generalizing session with
  | nil => exact .refl
  | cons event rest ih =>
      have first := session.reaches_handle visiting now event covers
      exact first.trans (ih _ (first.settings ▸ covers))

theorem reaches_dropSilent (session : Session) (visiting : Visiting) (now : Nat)
    (timeout : ∀ idle, idle ≤ now / 1000 → cause (.timeout idle)) :
    session.Reaches cause (session.dropSilent visiting now) := by
  refine reaches_foldl _ (fun state connection _ => ?_) session
  refine (reaches_withMetrics ..).trans (reaches_disconnect _ visiting _ _ fun reason isIt => ?_)
  cases isIt
  exact timeout _ (Nat.div_le_div_right (Nat.sub_le ..))

theorem evolve_setKeys (entity : EntityId) (ready : List (Tick × Keys)) (world : World) :
    ready.foldl (fun world entry => world.setKeys entity entry.2) world =
      world.evolve (ready.map fun entry => .setKeys entity entry.2) := by
  unfold World.evolve
  rw [List.foldl_map]
  rfl

theorem reaches_releaseFor (session : Session) (client : ClientId) :
    session.Reaches cause (session.releaseFor client) := by
  unfold releaseFor
  split
  · exact .refl
  · rename_i connection _
    dsimp only
    rw [evolve_setKeys]
    exact (session.reaches_withSequencer client _).trans (reaches_evolve ..)

theorem reaches_releaseInputs (session : Session) (visiting : Visiting) :
    session.Reaches cause (session.releaseInputs visiting) :=
  reaches_foldl _ (fun session client _ => session.reaches_releaseFor client) session

/-- Everything in a tick up to what clients are told of their surroundings. -/
theorem reaches_moved (session : Session) (visiting : Visiting) (now : Nat)
    (covers : Covers cause session.settings now) :
    session.Reaches cause (session.moved visiting now) := by
  have emptied : session.Reaches cause { session with inbox := session.inbox.drain.2 } :=
    (Step.aside session.metrics session.random _).reaches
  have heard : session.Reaches cause (session.handleAll visiting now) :=
    emptied.trans (reaches_handles visiting now session.inbox.events _ covers)
  have present := heard.trans (reaches_dropSilent _ visiting now covers.timeout)
  have begun := present.step (.world .beginTick)
  have ready := begun.trans (reaches_releaseInputs _ visiting)
  exact ready.trans (reaches_evolve _ [.step, .syncGrid])

theorem reaches_told (session : Session) (visiting : Visiting) (now : Nat) :
    ((session.moved visiting now).replicate visiting).Reaches cause
      (session.runTick visiting now) := by
  rw [runTick_eq]
  exact (Step.world .clearDirty).reaches.trans (reaches_withMetrics ..)

theorem reaches_submit (session : Session) (event : InboundEvent) :
    session.Reaches cause ((session.submit event).toOption.getD session) := by
  unfold submit
  cases session.inbox.submit event with
  | error _ => exact .refl
  | ok inbox => exact (Step.aside session.metrics session.random inbox).reaches

theorem reaches_teleport? (session : Session) (client : ClientId) (position : Vec3) :
    session.Reaches cause ((session.teleport? client position).getD session) := by
  unfold teleport?
  split
  · exact .refl
  · rename_i connection _
    split
    · exact .refl
    · rename_i world moved
      have isWorld : session.world.apply (.teleport connection.entity position) = world := by
        simp only [World.apply, moved]
        rfl
      have changed : session.Reaches cause { session with world } :=
        isWorld ▸ (Step.world (.teleport connection.entity position)).reaches
      exact changed.trans (reaches_revise _ client _ fun _ => ⟨rfl, rfl, rfl⟩)

/-- Between ticks a session takes small steps only. -/
theorem Chronicle.reaches_act (chronicle : Chronicle) {action : Action}
    (between : action.isTick = false)
    (known : ∀ visiting client fault, action = .giveUp visiting client fault → cause fault) :
    chronicle.session.Reaches cause (chronicle.act action).session := by
  cases action with
  | submit event => exact chronicle.session.reaches_submit event
  | tick visiting now => cases between
  | teleport client position => exact chronicle.session.reaches_teleport? client position
  | giveUp visiting client fault =>
      have cause := known visiting client fault rfl
      exact chronicle.session.reaches_disconnect visiting client (some fault) fun reason isIt =>
        Option.some.inj isIt ▸ cause
  | invalidateChunk chunk => exact (Step.invalidate chunk).reaches
  | drain => exact Step.drain.reaches

/-- Connections end in an action for such causes only. -/
def Action.Allows (cause : ConnectionFault → Prop) (settings : Settings) : Action → Prop
  | .tick _ now => Covers cause settings now
  | .giveUp _ _ fault => cause fault
  | _ => True

theorem covers_any (settings : Settings) (now : Nat) : Covers (fun _ => True) settings now :=
  ⟨fun _ => trivial, fun _ _ => trivial, trivial⟩

theorem allows_any (settings : Settings) (action : Action) :
    action.Allows (fun _ => True) settings := by
  cases action with
  | tick => exact covers_any ..
  | _ => trivial

/-- What small steps keep, and a round of telling clients of their surroundings, holds in a run. -/
theorem Chronicle.run_keeps (settings : Settings) (map : TileMap) (actions : List Action)
    (allowed : ∀ action ∈ actions, action.Allows cause settings) (holds : Session → Prop)
    (start : holds (ofSettings settings map))
    (each : ∀ {session next}, holds session → Step cause session next → holds next)
    (told : ∀ {session} visiting, holds session → holds (replicate visiting session)) :
    holds (run settings map actions).session := by
  suffices both : (run settings map actions).session.settings = settings ∧
      holds (run settings map actions).session from both.2
  induction actions using List.reverseRecOn with
  | nil => exact ⟨rfl, start⟩
  | append_singleton earlier action ih =>
      obtain ⟨governed, held⟩ :=
        ih fun action member => allowed action (List.mem_append_left _ member)
      have may := allowed action (List.mem_append_right _ List.mem_cons_self)
      have ended : run settings map (earlier ++ [action]) = (run settings map earlier).act action :=
        List.foldl_append
      rw [ended]
      cases isTick : action.isTick with
      | false =>
          have small : (run settings map earlier).session.Reaches cause
              ((run settings map earlier).act action).session := by
            refine (run settings map earlier).reaches_act isTick fun visiting client fault isIt => ?_
            rw [isIt] at may
            exact may
          exact ⟨small.settings.trans governed, small.keeps holds held each⟩
      | true =>
          cases action with
          | tick visiting now =>
              have moved := (run settings map earlier).session.reaches_moved visiting now
                (governed.symm ▸ may)
              have ended : (((run settings map earlier).session.moved visiting now).replicate
                  visiting).Reaches cause ((run settings map earlier).session.runTick visiting now) :=
                reaches_told _ visiting now
              have same := (follows_replicate _ visiting).settings.trans moved.settings
              exact ⟨ended.settings.trans (same.trans governed),
                ended.keeps holds (told visiting (moved.keeps holds held each)) each⟩
          | _ => cases isTick

end Session

end Overworld
