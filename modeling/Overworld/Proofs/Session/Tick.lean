import Overworld.Proofs.Session.Hosting
import Overworld.Proofs.Session.Phases

set_option autoImplicit false

/-!
A tick of a session that serves all its clients: it hears each of them, lets newcomers in, and tells
all of them how their entities fared.
-/

namespace Overworld

namespace Session

variable {session after : Session} {now : Nat} {tick : Tick} {client : ClientId}
  {standing : Standing} {clients order : List ClientId} {role : ClientId → Role}

theorem Hosts.mem_order (hosts : session.Hosts tick clients) (visiting : Visiting) (pass : Pass)
    (client : ClientId) : client ∈ visiting.order pass session.clients ↔ client ∈ clients :=
  Session.mem_order.trans (hosts.members client)

/-- No client is silent within the tick in which it was heard. -/
theorem ServesAll.dropSilent {standings : ClientId → Standing}
    (serves : session.ServesAll now tick tick clients standings) (visiting : Visiting) :
    session.dropSilent visiting now = session := by
  apply dropSilent_of_active
  intro client connection found
  have connected := isConnected_of_connection? found
  obtain ⟨held, same, -, active, -⟩ :=
    (serves.each client ((serves.hosts.members client).mp connected)).connected
  rw [found] at same
  cases same
  simp [Connection.isTimedOut, Connection.idle, active]

theorem vacant_setKeys_foldl (entity : EntityId) (ready : List (Tick × Keys)) (world : World) :
    (ready.foldl (fun world entry => world.setKeys entity entry.2) world).entities.vacant =
      world.entities.vacant := by
  induction ready generalizing world with
  | nil => rfl
  | cons entry rest ih =>
      exact (ih (world.setKeys entity entry.2)).trans (Roster.vacant_modify ..)

theorem Serves.hosts_releaseFor (serves : session.Serves now tick client standing) {world : Tick}
    (hosts : session.Hosts world clients) : (session.releaseFor client).Hosts world clients := by
  obtain ⟨connection, found, -⟩ := serves.connected
  obtain ⟨isWorld, outbound⟩ := world_releaseFor found
  refine hosts.of_connected ?_ ?_ (session.isConnected_releaseFor client) ?_
  · rw [isWorld]
    exact (setKeys_foldl_frame connection.entity _ session.world).1
  · rw [isWorld]
    exact vacant_setKeys_foldl ..
  · intro other _
    rw [outbound]

theorem ServesAll.releaseInputs (visiting : Visiting)
    (soon : tick.toNat + 2 < 18446744073709551616) (apart : Role.Apart role clients)
    (serves : session.ServesAll now (tick + 1) tick clients fun client => (role client).heard tick) :
    (session.releaseInputs visiting).ServesAll now (tick + 1) (tick + 1) clients
      fun client => (role client).handed tick := by
  refine serves.pass _ (session.nodup_order visiting .release)
    (serves.hosts.mem_order visiting .release) apart (fun _ => rfl) (fun _ => rfl) ?_
  intro state client hosts serves
  exact ⟨serves.hosts_releaseFor hosts, spares_releaseFor serves,
    serves.releaseFor hosts.tick_eq soon⟩

theorem Serves.hosts_replicateFor (serves : session.Serves now tick client standing)
    (hosts : session.Hosts tick clients) : (session.replicateFor client).Hosts tick clients := by
  obtain ⟨connection, found, -⟩ := serves.connected
  obtain ⟨isWorld, -⟩ := frame_replicateFor found
  refine hosts.of_connected ?_ ?_ (session.isConnected_replicateFor client) ?_
  · rw [isWorld]
  · rw [isWorld]
  · intro other stranger
    exact (spares_replicateFor serves).letters other (hosts.ne_of_serves serves stranger)

/-- Every client has its word on the tick, and stands as it is to stand at the end. -/
def TellsAll (session : Session) (now : Nat) (tick : Tick) (clients : List ClientId)
    (role : ClientId → Role) : Prop :=
  session.Hosts (tick + 1) clients ∧ ∀ client ∈ clients, ∃ batch,
    (role client).Tells tick batch ∧
      session.Serves now (tick + 1) client ((role client).told tick batch)

theorem ServesAll.replicate (visiting : Visiting) (apart : Role.Apart role clients)
    (serves : session.ServesAll now (tick + 1) (tick + 1) clients
      fun client => (role client).told tick []) :
    (session.replicate visiting).TellsAll now tick clients role := by
  obtain ⟨hosts, each⟩ := serves_pass (fun client => (role client).told tick [])
    (fun client standing => ∃ batch, (role client).Tells tick batch ∧
      standing = (role client).told tick batch)
    (session.nodup_order visiting .replicate) (serves.hosts.mem_order visiting .replicate) apart
    (fun _ => rfl)
    (fun _ _ told => by
      obtain ⟨batch, -, rfl⟩ := told
      rfl)
    (fun state client hosts serves => by
      obtain ⟨batch, snapshot, servesAfter, carry, entity, isTick, motion, keys⟩ :=
        serves.replicateFor
      have word : Player.IsWord snapshot (role client).own tick (role client).next
          (role client).moved := ⟨entity, isTick.trans hosts.tick_eq, motion, keys⟩
      refine ⟨serves.hosts_replicateFor hosts, spares_replicateFor serves, _,
        ⟨batch, ⟨snapshot, carry, word⟩, ?_⟩, servesAfter⟩
      simp [Role.told])
    serves
  refine ⟨hosts, fun client member => ?_⟩
  obtain ⟨standing, ⟨batch, tells, rfl⟩, servesClient⟩ := each client member
  exact ⟨batch, tells, servesClient⟩

/-- The inbox holds a word of each of the clients, and newcomers behind them. -/
def Expects (session : Session) (tick : Tick) (bytes : UInt64) (role : ClientId → Role)
    (order : List ClientId) (joins : List (ClientId × Endpoint)) : Prop :=
  session.inbox.events = order.map (word role tick bytes) ++
    joins.map fun join => ⟨join.1, .connected join.2, 0⟩

variable {bytes : UInt64} {joins : List (ClientId × Endpoint)}

theorem handleAll_of_expects (visiting : Visiting) (now : Nat)
    (expects : session.Expects tick bytes role order joins) :
    ∃ taken spoken : Session, taken = { session with inbox := session.inbox.drain.2 } ∧
      spoken = (order.map (word role tick bytes)).foldl (handle visiting now) taken ∧
      session.handleAll visiting now =
        joins.foldl (fun session join => session.connect join.1 join.2 now) spoken := by
  refine ⟨_, _, rfl, rfl, ?_⟩
  have whole : session.handleAll visiting now = session.inbox.events.foldl (handle visiting now)
      { session with inbox := session.inbox.drain.2 } := rfl
  rw [whole, expects, List.foldl_append, List.foldl_map]
  rfl

theorem follows_words (visiting : Visiting) (now : Nat) {taken spoken : Session}
    (isSpoken : spoken = (order.map (word role tick bytes)).foldl (handle visiting now) taken) :
    taken.Follows spoken 0 := by
  rw [isSpoken, List.foldl_map]
  exact follows_foldl_of_none (fun state client =>
    state.follows_message visiting now client _ bytes) order taken

/-- A tick takes a place for each newcomer and for no one else. -/
theorem follows_runTick_of_expects (visiting : Visiting) (now : Nat)
    (expects : session.Expects tick bytes role order joins) :
    ({ session with inbox := session.inbox.drain.2 } : Session).Follows
      (session.runTick visiting now) joins.length := by
  obtain ⟨taken, spoken, isTaken, isSpoken, handled⟩ := handleAll_of_expects visiting now expects
  apply Follows.runTick
  rw [← isTaken, handled]
  have joined := follows_foldl 1 (fun state (join : ClientId × Endpoint) =>
    state.follows_connect join.1 join.2 now) joins spoken
  have both := (follows_words visiting now isSpoken).trans joined
  rw [Nat.one_mul, Nat.zero_add] at both
  exact both

theorem ServesAll.handleAll (visiting : Visiting)
    (expects : session.Expects tick bytes role order joins) (perm : order.Perm clients)
    (places : session.HasPlaces clients joins) (soon : tick.toNat + 2 < 18446744073709551616)
    (apart : Role.Apart role clients)
    (serves : session.ServesAll now tick tick clients fun client => (role client).waiting tick) :
    ∃ all : ClientId → Role, Role.Admits tick clients joins role all ∧
      (session.handleAll visiting now).ServesAll now tick tick (clients ++ joins.map (·.1))
        fun client => (all client).heard tick := by
  obtain ⟨taken, spoken, isTaken, isSpoken, handled⟩ := handleAll_of_expects visiting now expects
  have servesTaken : taken.ServesAll now tick tick clients
      fun client => (role client).waiting tick := by
    rw [isTaken]
    exact serves.of_same rfl rfl rfl
  have follows := follows_words visiting now isSpoken
  obtain ⟨distinct, room, lead, numbered⟩ := places
  have servesSpoken := servesTaken.words visiting bytes perm (List.nodup_append.mp distinct).1 soon
    apart
  rw [← isSpoken] at servesSpoken
  have settings : spoken.settings = session.settings := by
    rw [follows.settings, isTaken]
  have grown : spoken.world.places ≤ session.world.places := by
    have more := follows.places
    rw [isTaken] at more
    exact more
  have placesSpoken : spoken.HasPlaces clients joins := by
    refine ⟨distinct, ?_, ?_, by omega⟩
    · rw [settings]
      exact room
    · rw [settings]
      exact lead
  rw [handled]
  exact servesSpoken.connectAll joins placesSpoken apart

/-- What a tick does once its events are handled and no one is silent. -/
def finishTick (visiting : Visiting) (session : Session) : Session :=
  let ready := Session.releaseInputs visiting (session.onWorld World.beginTick)
  let moved := ready.onWorld fun world => world.step.syncGrid
  ((Session.replicate visiting moved).onWorld World.clearDirty).recordLevels

theorem ServesAll.finishTick (visiting : Visiting) (soon : tick.toNat + 2 < 18446744073709551616)
    (gait : session.world.gait = .standard) (dt : session.world.dt = standardStep)
    (apart : Role.Apart role clients)
    (serves : session.ServesAll now tick tick clients fun client => (role client).heard tick) :
    (session.finishTick visiting).TellsAll now tick clients role := by
  obtain ⟨begun, isBegun⟩ : ∃ begun, begun = session.onWorld World.beginTick := ⟨_, rfl⟩
  obtain ⟨ready, isReady⟩ : ∃ ready, ready = Session.releaseInputs visiting begun := ⟨_, rfl⟩
  obtain ⟨moved, isMoved⟩ : ∃ moved, moved = ready.onWorld fun world => world.step.syncGrid :=
    ⟨_, rfl⟩
  obtain ⟨hosts, each⟩ := serves
  have servesBegun : begun.ServesAll now (tick + 1) tick clients
      fun client => (role client).heard tick := by
    rw [isBegun, ← hosts.tick_eq]
    refine ⟨⟨rfl, hosts.full, hosts.members, hosts.strangers⟩, ?_⟩
    rw [hosts.tick_eq]
    exact fun client member => (each client member).of_same rfl rfl rfl
  have follows : session.Follows ready 0 := by
    rw [isReady, isBegun]
    exact session.follows_beginTick.trans (follows_releaseInputs _ visiting)
  obtain ⟨hostsReady, eachReady⟩ := servesBegun.releaseInputs visiting soon apart
  rw [← isReady] at hostsReady eachReady
  have servesMoved : moved.ServesAll now (tick + 1) (tick + 1) clients
      fun client => (role client).told tick [] := by
    rw [isMoved]
    refine ⟨⟨hostsReady.tick_eq, hostsReady.full, hostsReady.members, hostsReady.strangers⟩, ?_⟩
    intro client member
    have moves := (eachReady client member).move (follows.gait.trans gait) (follows.dt.trans dt)
    simpa [Role.told, Role.handed, Role.moved] using moves
  obtain ⟨hostsTold, eachTold⟩ := servesMoved.replicate visiting apart
  unfold Session.finishTick
  dsimp only
  rw [← isBegun, ← isReady, ← isMoved]
  refine ⟨⟨hostsTold.tick_eq, hostsTold.full, hostsTold.members, hostsTold.strangers⟩, ?_⟩
  intro client member
  obtain ⟨batch, tells, servesClient⟩ := eachTold client member
  exact ⟨batch, tells, servesClient.endTick⟩

/-- A tick hears every client, lets newcomers in, and tells all of them how their entities fared. -/
theorem ServesAll.runTick (visiting : Visiting)
    (expects : session.Expects tick bytes role order joins) (perm : order.Perm clients)
    (places : session.HasPlaces clients joins) (soon : tick.toNat + 2 < 18446744073709551616)
    (gait : session.world.gait = .standard) (dt : session.world.dt = standardStep)
    (apart : Role.Apart role clients)
    (serves : session.ServesAll now tick tick clients fun client => (role client).waiting tick) :
    ∃ all : ClientId → Role, Role.Admits tick clients joins role all ∧
      (session.runTick visiting now).TellsAll now tick (clients ++ joins.map (·.1)) all := by
  obtain ⟨all, admits, heard⟩ := serves.handleAll visiting expects perm places soon apart
  have follows := session.follows_handleAll visiting now
  have told := heard.finishTick visiting soon (follows.gait.trans gait) (follows.dt.trans dt)
    admits.apart
  have isTick : session.runTick visiting now = (session.handleAll visiting now).finishTick visiting := by
    unfold Session.runTick
    rw [heard.dropSilent visiting]
    rfl
  rw [isTick]
  exact ⟨all, admits, told⟩

end Session

end Overworld
