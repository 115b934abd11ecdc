import Overworld.Proofs.Replication.Connection
import Overworld.Proofs.Session.Basic
import Overworld.Server.Session.Tick

set_option autoImplicit false

/-!
Every step of a session keeps each connected client told: events, faults and timeouts in any order,
and the turns of replication.
-/

namespace Overworld

namespace Session

/-- What a client was sent since its welcome: `earlier` was taken from the session before, and the
rest is still queued. -/
def feed (session : Session) (earlier : List Outbound) (client : ClientId) : List ServerMessage :=
  sinceWelcome (dispatchesTo client (earlier ++ session.outbound.toList))

structure Agrees (session : Session) (earlier : List Outbound) (tick : Tick) : Prop where
  tick_eq : session.world.tick = tick
  indexed : session.world.IndexesEntities
  told : ∀ client connection, session.connection? client = some connection →
    connection.IsTold tick (session.feed earlier client)

/-- The invariant of a session, good for as long as its ids can tell its places apart. -/
def KeepsTold (session : Session) (earlier : List Outbound) (tick : Tick) : Prop :=
  session.world.places ≤ 4294967296 → session.Agrees earlier tick

variable {session : Session} {earlier : List Outbound} {tick : Tick}

theorem feed_send (session : Session) (earlier : List Outbound) (client other : ClientId)
    {message : ServerMessage} (ordinary : message.isWelcome = false) :
    (session.send client message).feed earlier other =
      if client = other then session.feed earlier other ++ [message]
      else session.feed earlier other := by
  unfold feed
  rw [outbound_send, ← List.append_assoc, dispatchesTo_push]
  split
  · rw [sinceWelcome_message ordinary]
  · rfl

theorem feed_close (session : Session) (earlier : List Outbound) (client other : ClientId) :
    (session.close client).feed earlier other = session.feed earlier other := by
  unfold feed
  rw [outbound_close, ← List.append_assoc, dispatchesTo_push]
  split
  · rw [sinceWelcome_close]
  · rfl

theorem feed_sendAll (session : Session) (earlier : List Outbound) (client other : ClientId)
    {messages : List ServerMessage}
    (ordinary : ∀ message ∈ messages, message.isWelcome = false) :
    (session.sendAll client messages).feed earlier other =
      if client = other then session.feed earlier other ++ messages
      else session.feed earlier other := by
  unfold sendAll
  induction messages generalizing session with
  | nil => simp
  | cons message rest ih =>
      rw [List.foldl_cons, ih _ fun later member => ordinary later (List.mem_cons_of_mem _ member),
        feed_send _ _ _ _ (ordinary message List.mem_cons_self)]
      by_cases same : client = other <;> simp [same]

theorem feed_welcome (session : Session) (earlier : List Outbound) (client other : ClientId)
    (tick : Tick) (entity : EntityId) (spawn : Vec3) :
    (session.send client (.connectionResponse tick entity spawn)).feed earlier other =
      if client = other then [.connectionResponse tick entity spawn]
      else session.feed earlier other := by
  unfold feed
  rw [outbound_send, ← List.append_assoc, dispatchesTo_push]
  split
  · rw [sinceWelcome_welcome]
  · rfl

theorem hasSameView_recordSent (connection : Connection) :
    connection.HasSameView connection.recordSent :=
  ⟨rfl, rfl, rfl⟩

theorem hasSameView_recordSents (messages : List ServerMessage) (connection : Connection) :
    connection.HasSameView
      (messages.foldl (fun connection _ => connection.recordSent) connection) := by
  obtain ⟨sent, counted⟩ := Session.exists_recordSents messages connection
  rw [counted]
  exact ⟨rfl, rfl, rfl⟩

theorem KeepsTold.modifyConnection (keeps : session.KeepsTold earlier tick) (client : ClientId)
    {change : Connection → Connection}
    (same : ∀ connection, session.connection? client = some connection →
      connection.HasSameView (change connection)) :
    (session.modifyConnection client change).KeepsTold earlier tick := by
  intro numbered
  have agrees := keeps numbered
  refine ⟨agrees.tick_eq, agrees.indexed, ?_⟩
  intro other connection found
  rw [connection?_modifyConnection] at found
  by_cases isClient : client = other
  · subst isClient
    rw [if_pos rfl] at found
    obtain ⟨before, held, rfl⟩ := Option.map_eq_some_iff.mp found
    exact (agrees.told client before held).of_hasSameView (same before held)
  · rw [if_neg isClient] at found
    exact agrees.told other connection found

theorem KeepsTold.sendAside (keeps : session.KeepsTold earlier tick) (client : ClientId)
    {message : ServerMessage} (isAside : message.isAside = true) :
    (session.send client message).KeepsTold earlier tick := by
  intro numbered
  have agrees := keeps numbered
  have ordinary : message.isWelcome = false := by
    cases message with
    | connectionResponse => cases isAside
    | _ => rfl
  refine ⟨agrees.tick_eq, agrees.indexed, ?_⟩
  intro other connection found
  rw [connection?_send] at found
  rw [feed_send _ _ _ _ ordinary]
  by_cases isClient : client = other
  · rw [if_pos isClient] at found ⊢
    obtain ⟨before, held, rfl⟩ := Option.map_eq_some_iff.mp found
    exact ((agrees.told other before held).of_hasSameView
      (hasSameView_recordSent before)).aside isAside
  · rw [if_neg isClient] at found ⊢
    exact agrees.told other connection found

theorem KeepsTold.close (keeps : session.KeepsTold earlier tick) (client : ClientId) :
    (session.close client).KeepsTold earlier tick := by
  intro numbered
  have agrees := keeps numbered
  refine ⟨agrees.tick_eq, agrees.indexed, ?_⟩
  intro other connection found
  rw [feed_close]
  exact agrees.told other connection found

theorem KeepsTold.erase (keeps : session.KeepsTold earlier tick) (client : ClientId) :
    ({ session with connections := session.connections.erase client } :
      Session).KeepsTold earlier tick := by
  intro numbered
  have agrees := keeps numbered
  refine ⟨agrees.tick_eq, agrees.indexed, ?_⟩
  intro other connection found
  rw [connection?_erase] at found
  split at found
  · cases found
  · exact agrees.told other connection found

/-- Only the world, the connections and the queue count. -/
theorem KeepsTold.of_same (keeps : session.KeepsTold earlier tick) {after : Session}
    (world : after.world = session.world) (connections : after.connections = session.connections)
    (outbound : after.outbound = session.outbound) : after.KeepsTold earlier tick := by
  intro numbered
  rw [world] at numbered
  have agrees := keeps numbered
  refine ⟨world ▸ agrees.tick_eq, world ▸ agrees.indexed, ?_⟩
  intro client connection found
  unfold connection? at found
  rw [connections] at found
  unfold feed
  rw [outbound]
  exact agrees.told client connection found

theorem KeepsTold.onMetrics (keeps : session.KeepsTold earlier tick) (change : Metrics → Metrics) :
    (session.onMetrics change).KeepsTold earlier tick :=
  keeps.of_same rfl rfl rfl

/-- A change of the world between ticks that keeps its index in order. -/
theorem KeepsTold.withWorld (keeps : session.KeepsTold earlier tick) {world : World}
    (sameTick : world.tick = session.world.tick) (places : world.places = session.world.places)
    (indexed : session.world.IndexesEntities → world.IndexesEntities) :
    ({ session with world } : Session).KeepsTold earlier tick := by
  intro numbered
  have agrees := keeps (places ▸ numbered)
  exact ⟨sameTick.trans agrees.tick_eq, indexed agrees.indexed, agrees.told⟩

theorem KeepsTold.beginTick (keeps : session.KeepsTold earlier tick)
    (room : tick.toNat + 1 < 18446744073709551616) :
    (session.onWorld World.beginTick).KeepsTold earlier (tick + 1) := by
  intro numbered
  have agrees := keeps numbered
  refine ⟨congrArg (· + 1) agrees.tick_eq, agrees.indexed, ?_⟩
  intro client connection found
  refine (agrees.told client connection found).later ?_
  rw [UInt64.le_iff_toNat_le, UInt64.toNat_add, UInt64.toNat_one]
  omega

theorem KeepsTold.drain (keeps : session.KeepsTold earlier tick) :
    session.drainOutbound.2.KeepsTold (earlier ++ session.drainOutbound.1) tick := by
  intro numbered
  have agrees := keeps numbered
  refine ⟨agrees.tick_eq, agrees.indexed, ?_⟩
  intro client connection found
  have same : session.drainOutbound.2.feed (earlier ++ session.drainOutbound.1) client =
      session.feed earlier client := by
    unfold feed drainOutbound
    rw [List.append_nil]
  rw [same]
  exact agrees.told client connection found

theorem KeepsTold.foldl {α : Type} {step : Session → α → Session} (items : List α)
    (one : ∀ session item, session.KeepsTold earlier tick →
      (step session item).KeepsTold earlier tick)
    (keeps : session.KeepsTold earlier tick) :
    (items.foldl step session).KeepsTold earlier tick := by
  induction items generalizing session with
  | nil => exact keeps
  | cons item rest ih => exact ih (one session item keeps)

end Session

end Overworld
