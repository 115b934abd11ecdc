import Overworld.Proofs.Session.Service

set_option autoImplicit false

/-!
A session that serves all its clients and lets newcomers in. A pass works on one client after the
other, and since no two of them have the same entity, none undoes what was done for another.
-/

namespace Overworld

/-- A pass that works on each of the items once, and undoes for none what it did for another, does
its work for all. -/
theorem foldl_each {σ ι : Type} {step : σ → ι → σ} (inv : σ → Prop) (before after : ι → σ → Prop)
    {items : List ι} (distinct : items.Nodup)
    (keeps : ∀ state item, item ∈ items → inv state → before item state →
      inv (step state item) ∧ after item (step state item))
    (others : ∀ state item other, item ∈ items → other ∈ items → item ≠ other → inv state →
      before item state → (before other state → before other (step state item)) ∧
        (after other state → after other (step state item)))
    {state : σ} (start : inv state) (all : ∀ item ∈ items, before item state) :
    inv (items.foldl step state) ∧ ∀ item ∈ items, after item (items.foldl step state) := by
  suffices walk : ∀ (rest done : List ι) (state : σ), done ++ rest = items → inv state →
      (∀ item ∈ done, after item state) → (∀ item ∈ rest, before item state) →
      inv (rest.foldl step state) ∧ ∀ item ∈ items, after item (rest.foldl step state) from
    walk items [] state rfl start (fun _ none => by cases none) all
  -- the items are split into those that are done and those that wait
  intro rest
  induction rest with
  | nil =>
      intro done state shape start finished _
      rw [List.append_nil] at shape
      exact ⟨start, shape ▸ finished⟩
  | cons item rest ih =>
      intro done state shape start finished waiting
      have inside : item ∈ items := by simp [← shape]
      have apart := distinct
      rw [← shape] at apart
      obtain ⟨-, single, separate⟩ := List.nodup_append.mp apart
      obtain ⟨once, -⟩ := List.nodup_cons.mp single
      have ready := waiting item List.mem_cons_self
      obtain ⟨kept, worked⟩ := keeps state item inside start ready
      refine ih (done ++ [item]) (step state item) (by simp [shape]) kept ?_ ?_
      · intro other member
        rcases List.mem_append.mp member with earlier | isItem
        · have different : item ≠ other := fun same =>
            separate other earlier item List.mem_cons_self same.symm
          have otherInside : other ∈ items := by simp [← shape, earlier]
          exact (others state item other inside otherInside different start ready).2
            (finished other earlier)
        · rw [List.mem_singleton.mp isItem]
          exact worked
      · intro other member
        have different : item ≠ other := fun same => once (same ▸ member)
        have otherInside : other ∈ items := by simp [← shape, member]
        exact (others state item other inside otherInside different start ready).1
          (waiting other (List.mem_cons_of_mem _ member))

/-- What a client is about between two ticks: the keys that the server holds for it, the keys that it
told for the next tick and for the one after, and how its entity moves. -/
structure Role where
  own : EntityId
  held : Keys
  next : Keys
  last : Keys
  motion : Motion
  /-- What is queued for it before the end of the tick. -/
  greeting : List ServerMessage

namespace Role

variable (role : Role) (tick : Tick)

/-- A newcomer has told nothing and is about to be welcomed. -/
def newcomer (own : EntityId) (place : Vec3) : Role :=
  ⟨own, .neutral, .neutral, .neutral, .atRest place, [.connectionResponse tick own place]⟩

/-- Before a tick, with the last message of the client still under way. -/
def waiting : Standing :=
  ⟨role.own, Session.due (tick + 1) role.held role.next, role.held, role.motion, role.greeting⟩

def heard : Standing :=
  ⟨role.own, Session.due (tick + 1) role.held role.next ++ Session.due (tick + 2) role.next role.last,
    role.held, role.motion, role.greeting⟩

def handed : Standing :=
  ⟨role.own, Session.due (tick + 2) role.next role.last, role.next, role.motion, role.greeting⟩

def moved : Motion := role.motion.step role.next .standard standardStep

/-- At the end of the tick, with `batch` for the client. -/
def told (batch : List ServerMessage) : Standing :=
  ⟨role.own, Session.due (tick + 2) role.next role.last, role.next, role.moved,
    role.greeting ++ batch⟩

/-- The batch tells the client how its entity fared in the tick after `tick`. -/
def Tells (batch : List ServerMessage) : Prop :=
  ∃ snapshot, ServerMessage.Carry snapshot batch ∧
    Player.IsWord snapshot role.own tick role.next role.moved

/-- No two of the clients have the same entity. -/
def Apart (role : ClientId → Role) (clients : List ClientId) : Prop :=
  ∀ first ∈ clients, ∀ second ∈ clients, (role first).own = (role second).own → first = second

/-- `all` are the roles once the newcomers have theirs. -/
structure Admits (tick : Tick) (clients : List ClientId) (joins : List (ClientId × Endpoint))
    (role all : ClientId → Role) : Prop where
  kept : ∀ client ∈ clients, all client = role client
  newcomers : ∀ join ∈ joins, ∃ own place, all join.1 = .newcomer tick own place
  apart : Apart all (clients ++ joins.map (·.1))

section Admits

variable {tick : Tick} {clients : List ClientId} {join : ClientId × Endpoint}
  {joins : List (ClientId × Endpoint)} {role middle all : ClientId → Role}

theorem admits_nil (apart : Apart role clients) : Admits tick clients [] role role where
  kept _ _ := rfl
  newcomers join none := by cases none
  apart := by
    rw [List.map_nil, List.append_nil]
    exact apart

theorem Admits.cons (first : Admits tick clients [join] role middle)
    (rest : Admits tick (clients ++ [join.1]) joins middle all) :
    Admits tick clients (join :: joins) role all where
  kept client member :=
    (rest.kept client (List.mem_append_left _ member)).trans (first.kept client member)
  newcomers later member := by
    rcases List.mem_cons.mp member with rfl | member
    · rw [rest.kept later.1 (by simp)]
      exact first.newcomers later List.mem_cons_self
    · exact rest.newcomers later member
  apart := by
    have apart := rest.apart
    rw [List.append_assoc, List.singleton_append] at apart
    exact apart

/-- A newcomer with an entity that no one else has. -/
theorem admits_newcomer (apart : Apart role clients) (absent : join.1 ∉ clients) {own : EntityId}
    (fresh : ∀ client ∈ clients, (role client).own ≠ own) (tick : Tick) (place : Vec3) :
    ∃ all : ClientId → Role, all join.1 = .newcomer tick own place ∧
      Admits tick clients [join] role all := by
  obtain ⟨all, isAll⟩ : ∃ all : ClientId → Role, ∀ client, all client =
    if client = join.1 then .newcomer tick own place else role client := ⟨_, fun _ => rfl⟩
  have atJoin : all join.1 = .newcomer tick own place := by rw [isAll, if_pos rfl]
  have kept : ∀ client ∈ clients, all client = role client := by
    intro client member
    have different : client ≠ join.1 := fun same => absent (same ▸ member)
    rw [isAll, if_neg different]
  refine ⟨all, atJoin, kept, ?_, ?_⟩
  · intro only member
    rw [List.mem_singleton.mp member]
    exact ⟨own, place, atJoin⟩
  · intro first member second memberSecond same
    rcases List.mem_append.mp member with one | one <;>
      rcases List.mem_append.mp memberSecond with two | two
    · rw [kept first one, kept second two] at same
      exact apart first one second two same
    · rw [kept first one, List.mem_singleton.mp two, atJoin] at same
      exact absurd same (fresh first one)
    · rw [kept second two, List.mem_singleton.mp one, atJoin] at same
      exact absurd same.symm (fresh second two)
    · rw [List.mem_singleton.mp one, List.mem_singleton.mp two]

end Admits

end Role

namespace Session

/-- The session is after `tick`, has lost no entity, and has to do with `clients` only. -/
structure Hosts (session : Session) (tick : Tick) (clients : List ClientId) : Prop where
  tick_eq : session.world.tick = tick
  full : session.world.entities.vacant = []
  members : ∀ client, session.isConnected client = true ↔ client ∈ clients
  strangers : ∀ client, client ∉ clients → dispatchesTo client session.outbound.toList = []

/-- The session hosts the clients and serves each of them in its standing. -/
structure ServesAll (session : Session) (now : Nat) (world tick : Tick) (clients : List ClientId)
    (standing : ClientId → Standing) : Prop where
  hosts : session.Hosts world clients
  each : ∀ client ∈ clients, session.Serves now tick client (standing client)

variable {session after : Session} {now : Nat} {tick : Tick} {client other : ClientId}
  {standing : Standing} {clients order : List ClientId} {role : ClientId → Role}

theorem Hosts.size_le (hosts : session.Hosts tick clients) :
    session.connections.size ≤ clients.length :=
  size_le_of_members fun client isIn => (hosts.members client).mp isIn

theorem Hosts.of_connected (hosts : session.Hosts tick clients)
    (tickEq : after.world.tick = session.world.tick)
    (full : after.world.entities.vacant = session.world.entities.vacant)
    (same : ∀ other, after.isConnected other = session.isConnected other)
    (letters : ∀ other, other ∉ clients →
      dispatchesTo other after.outbound.toList = dispatchesTo other session.outbound.toList) :
    after.Hosts tick clients where
  tick_eq := tickEq.trans hosts.tick_eq
  full := full.trans hosts.full
  members client := by
    rw [same]
    exact hosts.members client
  strangers client stranger := (letters client stranger).trans (hosts.strangers client stranger)

theorem Hosts.ne_of_serves (hosts : session.Hosts tick clients) {word : Tick}
    (serves : session.Serves now word client standing) (stranger : other ∉ clients) :
    client ≠ other := by
  intro same
  exact stranger (same ▸ (hosts.members client).mp serves.isConnected)

theorem ServesAll.of_same {world : Tick} {standing : ClientId → Standing}
    (serves : session.ServesAll now world tick clients standing)
    (sameWorld : after.world = session.world)
    (connections : after.connections = session.connections)
    (outbound : after.outbound = session.outbound) :
    after.ServesAll now world tick clients standing := by
  have same : ∀ client, after.connection? client = session.connection? client := by
    intro client
    unfold connection?
    rw [connections]
  refine ⟨serves.hosts.of_connected ?_ ?_ ?_ ?_, fun client member => ?_⟩
  · rw [sameWorld]
  · rw [sameWorld]
  · intro other
    rw [isConnected_eq, isConnected_eq, same]
  · intro other _
    rw [outbound]
  · apply (serves.each client member).of_same (same client)
    · rw [sameWorld]
    · rw [outbound]

/-- A pass over the clients that for each of them spares the others. -/
theorem serves_pass {step : Session → ClientId → Session} {world later : Tick}
    (start : ClientId → Standing) (finish : ClientId → Standing → Prop) (distinct : order.Nodup)
    (same : ∀ client, client ∈ order ↔ client ∈ clients) (apart : Role.Apart role clients)
    (starts : ∀ client, (start client).own = (role client).own)
    (finishes : ∀ client standing, finish client standing → standing.own = (role client).own)
    (keeps : ∀ (state : Session) client, state.Hosts world clients →
      state.Serves now tick client (start client) →
      (step state client).Hosts world clients ∧
        state.Spares (step state client) client (role client).own ∧
        ∃ standing, finish client standing ∧ (step state client).Serves now later client standing)
    (serves : session.ServesAll now world tick clients start) :
    (order.foldl step session).Hosts world clients ∧
      ∀ client ∈ clients, ∃ standing, finish client standing ∧
        (order.foldl step session).Serves now later client standing := by
  obtain ⟨hosts, each⟩ := foldl_each (fun state : Session => state.Hosts world clients)
    (fun client state => state.Serves now tick client (start client))
    (fun client state => ∃ standing, finish client standing ∧
      state.Serves now later client standing) distinct
    (fun state client _ hosts serves => by
      obtain ⟨kept, -, told⟩ := keeps state client hosts serves
      exact ⟨kept, told⟩)
    (fun state client other member memberOther different hosts serves => by
      obtain ⟨-, spares, -⟩ := keeps state client hosts serves
      have ownApart : (role other).own ≠ (role client).own := fun equal =>
        different (apart client ((same client).mp member) other ((same other).mp memberOther)
          equal.symm)
      refine ⟨fun servesOther => ?_, fun ⟨standing, finished, servesOther⟩ => ?_⟩
      · exact spares.serves servesOther different (starts other ▸ ownApart)
      · exact ⟨standing, finished,
          spares.serves servesOther different (finishes other standing finished ▸ ownApart)⟩)
    serves.hosts fun client member => serves.each client ((same client).mp member)
  exact ⟨hosts, fun client member => each client ((same client).mpr member)⟩

/-- A pass that brings each client to the standing it is to have. -/
theorem ServesAll.pass {step : Session → ClientId → Session} {world later : Tick}
    {start : ClientId → Standing} (finish : ClientId → Standing) (distinct : order.Nodup)
    (same : ∀ client, client ∈ order ↔ client ∈ clients) (apart : Role.Apart role clients)
    (starts : ∀ client, (start client).own = (role client).own)
    (finishes : ∀ client, (finish client).own = (role client).own)
    (keeps : ∀ (state : Session) client, state.Hosts world clients →
      state.Serves now tick client (start client) →
      (step state client).Hosts world clients ∧
        state.Spares (step state client) client (role client).own ∧
        (step state client).Serves now later client (finish client))
    (serves : session.ServesAll now world tick clients start) :
    (order.foldl step session).ServesAll now world later clients finish := by
  obtain ⟨hosts, each⟩ := serves_pass start (fun client standing => standing = finish client)
    distinct same apart starts
    (fun client standing isFinish => by rw [isFinish, finishes])
    (fun state client hosts serves => by
      obtain ⟨kept, spares, servesAfter⟩ := keeps state client hosts serves
      exact ⟨kept, spares, _, rfl, servesAfter⟩)
    serves
  refine ⟨hosts, fun client member => ?_⟩
  obtain ⟨standing, rfl, servesClient⟩ := each client member
  exact servesClient

/-- What a client said in its last turn. -/
def word (role : ClientId → Role) (tick : Tick) (bytes : UInt64) (client : ClientId) :
    InboundEvent :=
  ⟨client, .message (Player.saying (tick + 2) (role client).next (role client).last), bytes⟩

theorem Notes.hosts (notes : session.Notes after client) (hosts : session.Hosts tick clients)
    (serves : session.Serves now tick client standing) {standingAfter : Standing}
    (servesAfter : after.Serves now tick client standingAfter) : after.Hosts tick clients := by
  refine hosts.of_connected ?_ ?_ ?_ ?_
  · rw [notes.world]
  · rw [notes.world]
  · intro other
    by_cases same : client = other
    · rw [← same, serves.isConnected, servesAfter.isConnected]
    · rw [isConnected_eq, isConnected_eq, notes.others other same]
  · intro other _
    rw [notes.outbound]

theorem lt_of_mem_due {told keys : Keys} {entry : Tick × Keys}
    (room : tick.toNat + 2 < 18446744073709551616) (member : entry ∈ due (tick + 1) told keys) :
    entry.1 < tick + 2 := by
  have one := Tick.toNat_add_one tick (by omega)
  have two := Tick.toNat_add_two tick room
  unfold due at member
  split at member
  · cases member
  · rw [List.mem_singleton.mp member]
    apply UInt64.lt_iff_toNat_lt.mpr
    change (tick + 1).toNat < _
    omega

theorem ServesAll.words (visiting : Visiting) (bytes : UInt64) (perm : order.Perm clients)
    (distinct : clients.Nodup) (soon : tick.toNat + 2 < 18446744073709551616)
    (apart : Role.Apart role clients)
    (serves : session.ServesAll now tick tick clients fun client => (role client).waiting tick) :
    ((order.map (word role tick bytes)).foldl (handle visiting now) session).ServesAll now tick tick
      clients fun client => (role client).heard tick := by
  rw [List.foldl_map]
  refine serves.pass _ (perm.nodup_iff.mpr distinct) (fun client => perm.mem_iff) apart
    (fun _ => rfl) (fun _ => rfl) ?_
  intro state client hosts serves
  obtain ⟨notes, servesAfter⟩ := serves.handle hosts.tick_eq visiting bytes soon
    (role client).next (role client).last fun _ member => lt_of_mem_due soon member
  exact ⟨notes.hosts hosts serves servesAfter, notes.spares _, servesAfter⟩

/-- There is a place for each of the newcomers. -/
structure HasPlaces (session : Session) (clients : List ClientId)
    (joins : List (ClientId × Endpoint)) : Prop where
  distinct : (clients ++ joins.map (·.1)).Nodup
  room : clients.length + joins.length ≤ session.settings.maxConnections
  lead : session.settings.sequencerRules = .standard
  numbered : session.world.places + joins.length ≤ 4294967296

theorem heard_newcomer (own : EntityId) (place : Vec3) :
    (Role.newcomer tick own place).heard tick =
      ⟨own, [], .neutral, .atRest place, [.connectionResponse tick own place]⟩ := by
  simp [Role.newcomer, Role.heard, due]

theorem Welcomes.hosts {own : EntityId} (welcomes : session.Welcomes after client own)
    (hosts : session.Hosts tick clients) (serves : after.Serves now tick client standing) :
    after.Hosts tick (clients ++ [client]) where
  tick_eq := welcomes.tick_eq.trans hosts.tick_eq
  full := welcomes.full
  members other := by
    rw [List.mem_append, List.mem_singleton]
    by_cases same : client = other
    · rw [← same, serves.isConnected]
      simp
    · have different : other ≠ client := fun equal => same equal.symm
      rw [isConnected_eq, welcomes.spares.connections other same, ← isConnected_eq,
        hosts.members]
      simp [different]
  strangers other stranger := by
    rw [List.mem_append, List.mem_singleton, not_or] at stranger
    rw [welcomes.spares.letters other fun equal => stranger.2 equal.symm]
    exact hosts.strangers other stranger.1

variable {join : ClientId × Endpoint} {joins : List (ClientId × Endpoint)}

theorem HasPlaces.connect (places : session.HasPlaces clients (join :: joins)) (now : Nat) :
    (session.connect join.1 join.2 now).HasPlaces (clients ++ [join.1]) joins := by
  obtain ⟨distinct, room, lead, numbered⟩ := places
  rw [List.map_cons, List.append_cons] at distinct
  rw [List.length_cons] at room numbered
  have follows := session.follows_connect join.1 join.2 now
  have grown := follows.places
  refine ⟨distinct, ?_, ?_, by omega⟩
  · rw [follows.settings, List.length_append, List.length_singleton]
    omega
  · rw [follows.settings]
    exact lead

/-- A client that joins is served like the others from then on. -/
theorem ServesAll.connect (places : session.HasPlaces clients (join :: joins))
    (apart : Role.Apart role clients)
    (serves : session.ServesAll now tick tick clients fun client => (role client).heard tick) :
    ∃ all : ClientId → Role, Role.Admits tick clients [join] role all ∧
      (session.connect join.1 join.2 now).ServesAll now tick tick (clients ++ [join.1])
        fun client => (all client).heard tick := by
  obtain ⟨distinct, room, lead, numbered⟩ := places
  rw [List.length_cons] at room numbered
  have size := serves.hosts.size_le
  have absent : join.1 ∉ clients := fun member =>
    (List.nodup_append.mp distinct).2.2 join.1 member join.1 List.mem_cons_self rfl
  have free : session.isConnected join.1 = false := by
    rw [Bool.eq_false_iff]
    intro connected
    exact absent ((serves.hosts.members join.1).mp connected)
  obtain ⟨own, place, welcomes, served⟩ := serves_connect join.2 now free (by omega) lead
    serves.hosts.full (by omega) (serves.hosts.strangers join.1 absent)
  have isTick : session.tick = tick := serves.hosts.tick_eq
  rw [isTick] at served
  obtain ⟨all, atJoin, admits⟩ := Role.admits_newcomer apart absent
    (fun client member => (serves.each client member).own_ne welcomes.fresh) tick place
  refine ⟨all, admits, welcomes.hosts serves.hosts served, ?_⟩
  intro client member
  rcases List.mem_append.mp member with one | one
  · have different : join.1 ≠ client := fun same => absent (same ▸ one)
    rw [admits.kept client one]
    exact welcomes.serves_other (serves.each client one) different
  · rw [List.mem_singleton.mp one, atJoin, heard_newcomer]
    exact served

theorem ServesAll.connectAll (joins : List (ClientId × Endpoint))
    (places : session.HasPlaces clients joins) (apart : Role.Apart role clients)
    (serves : session.ServesAll now tick tick clients fun client => (role client).heard tick) :
    ∃ all : ClientId → Role, Role.Admits tick clients joins role all ∧
      (joins.foldl (fun session join => session.connect join.1 join.2 now) session).ServesAll now
        tick tick (clients ++ joins.map (·.1)) fun client => (all client).heard tick := by
  induction joins generalizing session clients role with
  | nil =>
      rw [List.map_nil, List.append_nil]
      exact ⟨role, Role.admits_nil apart, serves⟩
  | cons join rest ih =>
      obtain ⟨middle, first, servesFirst⟩ := serves.connect places apart
      obtain ⟨all, more, servesAll⟩ := ih (places.connect now) first.apart servesFirst
      rw [List.map_cons, List.append_cons]
      exact ⟨all, first.cons more, servesAll⟩

end Session

end Overworld
