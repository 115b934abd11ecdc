import Overworld.Proofs.Session.Passes

set_option autoImplicit false

/-!
Every connection that a session keeps for a client bears the name of that client, whatever happens.
-/

namespace Overworld

theorem Connection.client_lose (gone : EntityId) (connection : Connection) :
    (connection.lose gone).client = connection.client := by
  unfold lose
  split <;> rfl

namespace Session

variable {session before after : Session}

def IsSigned (session : Session) : Prop :=
  ∀ client connection, session.connection? client = some connection → connection.client = client

/-- A connection that was there, under whatever changes, or one that is signed. -/
theorem IsSigned.of_renewed (signed : before.IsSigned)
    (renewed : ∀ client connection, after.connection? client = some connection →
      connection.client = client ∨
        ∃ earlier, before.connection? client = some earlier ∧ connection.client = earlier.client) :
    after.IsSigned := by
  intro client connection found
  obtain own | ⟨earlier, held, same⟩ := renewed client connection found
  · exact own
  · exact same.trans (signed client earlier held)

theorem IsSigned.of_map (signed : before.IsSigned) (change : Connection → Connection)
    (kept : ∀ connection, (change connection).client = connection.client)
    (renewed : ∀ client, after.connection? client = (before.connection? client).map change) :
    after.IsSigned := by
  refine signed.of_renewed fun client connection found => Or.inr ?_
  rw [renewed] at found
  obtain ⟨earlier, held, rfl⟩ := Option.map_eq_some_iff.mp found
  exact ⟨earlier, held, kept earlier⟩

theorem IsSigned.of_same (signed : before.IsSigned)
    (same : ∀ client, after.connection? client = before.connection? client) : after.IsSigned :=
  signed.of_map id (fun _ => rfl) fun client => (same client).trans (congrFun Option.map_id _).symm

theorem IsSigned.modifyConnection (signed : session.IsSigned) (client : ClientId)
    (change : Connection → Connection)
    (kept : ∀ connection, (change connection).client = connection.client) :
    (session.modifyConnection client change).IsSigned := by
  refine signed.of_renewed fun other connection found => Or.inr ?_
  rw [connection?_modifyConnection] at found
  split at found
  · obtain ⟨earlier, held, rfl⟩ := Option.map_eq_some_iff.mp found
    exact ⟨earlier, held, kept earlier⟩
  · exact ⟨connection, found, rfl⟩

theorem IsSigned.onMetrics (signed : session.IsSigned) (change : Metrics → Metrics) :
    (session.onMetrics change).IsSigned :=
  signed

theorem IsSigned.send (signed : session.IsSigned) (client : ClientId) (message : ServerMessage) :
    (session.send client message).IsSigned := by
  have counted := signed.modifyConnection client Connection.recordSent fun _ => rfl
  exact counted

theorem IsSigned.disconnect (signed : session.IsSigned) (visiting : Visiting) (client : ClientId)
    (fault : Option ConnectionFault) : (session.disconnect visiting client fault).IsSigned := by
  cases found : session.connection? client with
  | none =>
      rw [disconnect_of_unknown found]
      exact signed
  | some leaver =>
      refine signed.of_renewed fun other connection held => Or.inr ?_
      rw [connection?_disconnect found] at held
      split at held
      · cases held
      · obtain ⟨earlier, was, rfl⟩ := Option.map_eq_some_iff.mp held
        exact ⟨earlier, was, Connection.client_lose ..⟩

theorem IsSigned.connect (signed : session.IsSigned) (client : ClientId) (endpoint : Endpoint)
    (now : Nat) : (session.connect client endpoint now).IsSigned := by
  obtain ⟨-, same⟩ | ⟨-, -, refused⟩ |
    ⟨-, -, place, random, own, world, joined, -, -, isJoined, accepted⟩ :=
    session.connect_cases client endpoint now
  · rw [same]
    exact signed
  · rw [refused]
    have told := signed.send client
      (.kicked (ConnectionFault.serverFull session.settings.maxConnections).message)
    exact told
  · rw [accepted]
    suffices joinedSigned : joined.IsSigned from joinedSigned.send client _
    refine signed.of_renewed fun other connection found => ?_
    rw [connection?_of_insert (congrArg Session.connections isJoined)] at found
    split at found
    · rename_i isClient
      cases found
      exact Or.inl isClient
    · exact Or.inr ⟨connection, found, rfl⟩

theorem IsSigned.sendAdjustment (signed : session.IsSigned) (client : ClientId) :
    (session.sendAdjustment client).IsSigned := by
  unfold Session.sendAdjustment
  split
  · exact signed
  · dsimp only
    have taken := fun sequencer => signed.modifyConnection client
      (fun connection => { connection with sequencer }) fun _ => rfl
    split
    · exact taken _
    · exact ((taken _).onMetrics _).send client _

theorem IsSigned.receive (signed : session.IsSigned) (visiting : Visiting) (client : ClientId)
    (message : ClientMessage) : (session.receive visiting client message).IsSigned := by
  have sampled := fun sequencer => signed.modifyConnection client
    (fun connection => { connection with sequencer }) fun _ => rfl
  cases message with
  | disconnect => exact signed.disconnect visiting client none
  | input tick keys =>
      unfold Session.receive receiveInput
      dsimp only
      split
      · exact signed
      · split
        · exact signed.disconnect visiting client _
        · rename_i admission sequencer _
          refine IsSigned.sendAdjustment ?_ client
          cases admission <;> exact sampled sequencer
  | heartbeat tick =>
      unfold Session.receive receiveHeartbeat
      dsimp only
      split
      · exact signed
      · split
        · exact signed.disconnect visiting client _
        · exact (sampled _).sendAdjustment client

theorem IsSigned.handle (signed : session.IsSigned) (visiting : Visiting) (now : Nat)
    (event : InboundEvent) : (session.handle visiting now event).IsSigned := by
  unfold Session.handle
  split
  · exact signed.connect event.client _ now
  · exact signed.disconnect visiting event.client none
  · split
    · refine IsSigned.receive ?_ visiting event.client _
      exact signed.modifyConnection event.client (·.recordReceived event.bytes now) fun _ => rfl
    · exact signed

theorem IsSigned.handleAll (signed : session.IsSigned) (visiting : Visiting) (now : Nat) :
    (session.handleAll visiting now).IsSigned := by
  have emptied : ({ session with inbox := session.inbox.drain.2 } : Session).IsSigned := signed
  exact List.foldlRecOn (motive := IsSigned) _ _ emptied fun _ still event _ =>
    still.handle visiting now event

theorem client_informed (world : World) (map : TileMap) (connection : Connection) :
    (informed world map connection).client = connection.client := by
  obtain ⟨sent, counted⟩ := exists_informed world map connection
  rw [counted]
  change (connection.replicate world map).connection.client = connection.client
  unfold Connection.replicate
  split <;> rfl

theorem IsSigned.runTick (signed : session.IsSigned) (visiting : Visiting) (now : Nat) :
    (session.runTick visiting now).IsSigned := by
  have present : ((session.handleAll visiting now).dropSilent visiting now).IsSigned := by
    refine List.foldlRecOn (motive := IsSigned) _ _ (signed.handleAll visiting now)
      fun later still connection _ => ?_
    exact (still.onMetrics _).disconnect visiting connection.client _
  have moved : (session.moved visiting now).IsSigned := by
    refine present.of_renewed fun client connection found => Or.inr ?_
    rw [connection?_moved] at found
    obtain ⟨earlier, held, rfl⟩ := Option.map_eq_some_iff.mp found
    exact ⟨earlier, held, rfl⟩
  exact moved.of_map _ (client_informed _ _) (session.connection?_runTick visiting now)

namespace Chronicle

theorem isSigned_act {chronicle : Chronicle} (signed : chronicle.session.IsSigned)
    (action : Action) : (chronicle.act action).session.IsSigned := by
  cases action with
  | submit event =>
      change ((chronicle.session.submit event).toOption.getD chronicle.session).IsSigned
      unfold submit
      cases chronicle.session.inbox.submit event <;> exact signed
  | tick visiting now => exact signed.runTick visiting now
  | teleport client position =>
      change ((chronicle.session.teleport? client position).getD chronicle.session).IsSigned
      unfold teleport?
      split
      · exact signed
      · split
        · exact signed
        · refine IsSigned.modifyConnection ?_ client _ fun _ => rfl
          exact signed
  | giveUp visiting client fault => exact signed.disconnect visiting client (some fault)
  | invalidateChunk chunk =>
      refine signed.of_map
        (fun connection => { connection with streamer := connection.streamer.invalidate chunk })
        (fun _ => rfl) fun client => ?_
      exact Std.HashMap.getElem?_map
  | drain => exact signed

theorem run_isSigned (settings : Settings) (map : TileMap) (actions : List Action) :
    (run settings map actions).session.IsSigned := by
  induction actions using List.reverseRecOn with
  | nil =>
      intro client connection found
      unfold connection? run start ofSettings at found
      simp at found
  | append_singleton earlier action ih =>
      unfold run
      rw [List.foldl_append]
      exact isSigned_act ih action

end Chronicle

end Session

end Overworld
