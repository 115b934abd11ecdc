import Overworld.Proofs.Order.Repetitions
import Overworld.Proofs.Session.Parting
import Overworld.Server.Delivery

set_option autoImplicit false

/-!
What is queued when clients are given up: word to everyone who saw their entities that these are
gone, each entity once and in the order in which the clients went.
-/

namespace Overworld

/-- Word to a client that saw so much, when entities leave the world one after the other. -/
def farewells (tick : Tick) (saw : EntityId → Bool) (departed : List EntityId) : List Dispatch :=
  (departed.eraseDups.filter saw).map fun id => .message (.entityLeft tick id)

theorem farewells_append (tick : Tick) (saw : EntityId → Bool) (first second : List EntityId) :
    farewells tick saw (first ++ second) =
      farewells tick saw first ++
        farewells tick (fun id => saw id && !first.contains id) second := by
  unfold farewells
  rw [List.eraseDups_append, List.filter_append, List.map_append, List.removeAll, eraseDups_filter,
    List.filter_filter]

theorem farewells_singleton (tick : Tick) (saw : EntityId → Bool) (gone : EntityId) :
    farewells tick saw [gone] = if saw gone then [.message (.entityLeft tick gone)] else [] := by
  unfold farewells
  cases seen : saw gone <;> simp [List.eraseDups_cons, seen]

namespace Session

variable {session before middle after : Session} {client : ClientId}

/-- Whether an entity is in the view of a client. -/
def sees (session : Session) (client : ClientId) (id : EntityId) : Bool :=
  (session.interestOf? client).any (·.isVisible id)

theorem sees_tellLeft (session : Session) (gone : EntityId) (client other : ClientId)
    (id : EntityId) :
    (session.tellLeft gone client).sees other id =
      (session.sees other id && (client != other || id != gone)) := by
  unfold sees
  rw [interestOf?_tellLeft]
  by_cases isClient : client = other
  · rw [if_pos isClient]
    cases session.interestOf? other with
    | none => rfl
    | some interest => simp [Interest.isVisible_forget, isClient]
  · simp [isClient]

theorem outbound_tellLeft (session : Session) (gone : EntityId) (client other : ClientId) :
    dispatchesTo other (session.tellLeft gone client).outbound.toList =
      dispatchesTo other session.outbound.toList ++
        if client = other ∧ session.sees other gone then
          [.message (.entityLeft session.tick gone)] else [] := by
  unfold tellLeft
  cases held : session.connection? client with
  | none =>
      have unseen : ¬ (client = other ∧ session.sees other gone = true) := by
        rintro ⟨rfl, seen⟩
        simp [sees, interestOf?, held] at seen
      rw [if_neg unseen, List.append_nil]
  | some connection =>
      have isSeen : ∀ _ : client = other,
          session.sees other gone = connection.interest.isVisible gone := by
        rintro rfl
        simp [sees, interestOf?, held]
      dsimp only
      by_cases seen : connection.interest.isVisible gone = true
      · rw [if_pos seen, outbound_onMetrics, outbound_send, dispatchesTo_push]
        by_cases isClient : client = other
        · rw [if_pos isClient, if_pos ⟨isClient, (isSeen isClient).trans seen⟩]
          rfl
        · rw [if_neg isClient, if_neg fun both => isClient both.1, List.append_nil]
          rfl
      · rw [if_neg seen, if_neg, List.append_nil]
        rintro ⟨isClient, found⟩
        exact seen ((isSeen isClient).symm.trans found)

theorem outbound_tellLeft_foldl (gone : EntityId) (clients : List ClientId) (session : Session)
    (other : ClientId) :
    dispatchesTo other (clients.foldl (tellLeft gone) session).outbound.toList =
      dispatchesTo other session.outbound.toList ++
        if other ∈ clients ∧ session.sees other gone then
          [.message (.entityLeft session.tick gone)] else [] := by
  induction clients generalizing session with
  | nil => simp
  | cons client rest ih =>
      have sameTick : (session.tellLeft gone client).tick = session.tick :=
        congrArg World.tick (session.world_tellLeft_foldl gone [client])
      rw [List.foldl_cons, ih, outbound_tellLeft, sees_tellLeft, sameTick]
      by_cases isClient : client = other
      · subst isClient
        simp
      · have apart : other ≠ client := fun same => isClient same.symm
        simp [isClient, apart]

theorem dispatchesTo_disconnect {connection : Connection}
    (found : session.connection? client = some connection) (visiting : Visiting)
    (fault : Option ConnectionFault) {other : ClientId} (isOther : client ≠ other) :
    dispatchesTo other (session.disconnect visiting client fault).outbound.toList =
      dispatchesTo other session.outbound.toList ++
        farewells session.tick (session.sees other) [connection.entity] := by
  obtain ⟨parted, told, removed, isParted, isTold, isRemoved, left⟩ :=
    disconnect_cases found visiting fault
  rw [left, outbound_tellLeft_foldl, farewells_singleton]
  have outbound : removed.outbound = (told.close client).outbound := by
    rcases isRemoved with ⟨-, rfl⟩ | ⟨entity, world, -, rfl⟩ <;> rfl
  have connections : removed.connections = (told.close client).connections := by
    rcases isRemoved with ⟨-, rfl⟩ | ⟨entity, world, -, rfl⟩ <;> rfl
  have sameTick : removed.tick = session.tick := by
    have toldTick : told.world.tick = session.world.tick := by
      have partedTick : parted.world.tick = session.world.tick := by rw [isParted]
      rcases isTold with ⟨-, rfl⟩ | ⟨reason, -, rfl⟩ <;> exact partedTick
    rcases isRemoved with ⟨-, rfl⟩ | ⟨entity, world, gone, rfl⟩
    · exact toldTick
    · exact (World.despawn_frame gone).1.trans toldTick
  have queued : dispatchesTo other removed.outbound.toList =
      dispatchesTo other session.outbound.toList := by
    rw [outbound, outbound_close, dispatchesTo_push, if_neg isOther]
    rcases isTold with ⟨-, rfl⟩ | ⟨reason, -, rfl⟩
    · rw [isParted]
    · rw [outbound_send, outbound_onMetrics, dispatchesTo_push, if_neg isOther, isParted]
  have view : removed.interestOf? other = session.interestOf? other := by
    have closed : removed.interestOf? other = parted.interestOf? other := by
      have same : removed.interestOf? other = (told.close client).interestOf? other := by
        unfold interestOf? connection?
        rw [connections]
      refine same.trans ?_
      rcases isTold with ⟨-, rfl⟩ | ⟨reason, -, rfl⟩
      · rfl
      · exact interestOf?_send parted client other (.kicked reason.message)
    rw [closed, isParted, interestOf?, connection?_erase, if_neg isOther]
    rfl
  have sees : removed.sees other = session.sees other := by
    funext id
    unfold Session.sees
    rw [view]
  rw [queued, sees, sameTick]
  congr 2
  refine propext ⟨And.right, fun seen => ⟨mem_order.mpr ?_, seen⟩⟩
  have connected : (removed.interestOf? other).isSome = true := by
    rw [view]
    unfold Session.sees at seen
    cases held : session.interestOf? other with
    | none =>
        rw [held] at seen
        cases seen
    | some interest => rfl
  rw [isConnected_eq]
  rw [interestOf?, Option.isSome_map] at connected
  exact connected

/-- What it means for a session to give up clients, and no others, while `taken` was taken from its
queue. -/
structure GivesUp (before after : Session) (taken : List Outbound) (clients : List ClientId) :
    Prop where
  tick : after.tick = before.tick
  entity : ∀ client, after.entityOf? client =
    if client ∈ clients then none else before.entityOf? client
  sees : ∀ client, client ∉ clients → ∀ id, after.sees client id =
    (before.sees client id && !(clients.filterMap before.entityOf?).contains id)
  world : ∀ id, after.world.get? id =
    if id ∈ clients.filterMap before.entityOf? then none else before.world.get? id
  told : ∀ client, client ∉ clients →
    dispatchesTo client (taken ++ after.outbound.toList) =
      dispatchesTo client before.outbound.toList ++
        farewells before.tick (before.sees client) (clients.filterMap before.entityOf?)
  size : after.connections.size + (clients.filterMap before.entityOf?).length =
    before.connections.size

theorem givesUp_drain (session : Session) :
    session.GivesUp session.drainOutbound.2 session.drainOutbound.1 [] where
  tick := rfl
  entity _ := rfl
  sees client _ id := (Bool.and_true _).symm
  world _ := rfl
  told client _ := by
    unfold drainOutbound
    simp [farewells]
  size := rfl

theorem givesUp_refl (session : Session) : session.GivesUp session [] [] where
  tick := rfl
  entity _ := rfl
  sees client _ id := (Bool.and_true _).symm
  world _ := rfl
  told client _ := by simp [farewells]
  size := rfl

theorem GivesUp.trans {taken more : List Outbound} {first second : List ClientId}
    (start : before.GivesUp middle taken first) (finish : middle.GivesUp after more second)
    (apart : ∀ client ∈ second, client ∉ first) :
    before.GivesUp after (taken ++ more) (first ++ second) := by
  have owned : second.filterMap middle.entityOf? = second.filterMap before.entityOf? :=
    List.filterMap_congr fun client member => by rw [start.entity, if_neg (apart client member)]
  have departed : (first ++ second).filterMap before.entityOf? =
      first.filterMap before.entityOf? ++ second.filterMap middle.entityOf? := by
    rw [List.filterMap_append, owned]
  refine ⟨finish.tick.trans start.tick, fun client => ?_, fun client absent id => ?_, fun id => ?_,
    fun client absent => ?_, ?_⟩
  · rw [finish.entity, start.entity]
    by_cases early : client ∈ first <;> by_cases late : client ∈ second <;> simp [early, late]
  · rw [List.mem_append, not_or] at absent
    rw [finish.sees client absent.2, start.sees client absent.1, departed, Bool.and_assoc]
    simp
  · rw [finish.world, start.world, departed]
    by_cases early : id ∈ first.filterMap before.entityOf? <;>
      by_cases late : id ∈ second.filterMap middle.entityOf? <;>
      simp only [List.mem_append, early, late, if_true, if_false, or_true, or_false, or_self]
  · rw [List.mem_append, not_or] at absent
    have saw : middle.sees client = fun id =>
        before.sees client id && !(first.filterMap before.entityOf?).contains id :=
      funext (start.sees client absent.1)
    rw [List.append_assoc, dispatchesTo_append, finish.told client absent.2, ← List.append_assoc,
      ← dispatchesTo_append, start.told client absent.1, departed, farewells_append, saw,
      start.tick, List.append_assoc]
  · rw [departed, List.length_append, ← start.size, ← finish.size]
    omega

theorem givesUp_disconnect (session : Session) (visiting : Visiting) (client : ClientId)
    (fault : Option ConnectionFault) :
    session.GivesUp (session.disconnect visiting client fault) [] [client] := by
  cases found : session.connection? client with
  | none =>
      have nobody : [client].filterMap session.entityOf? = [] := by
        simp [entityOf?, found]
      have same : session.disconnect visiting client fault = session := by
        unfold disconnect
        rw [found]
      have nothing := session.givesUp_refl
      rw [same]
      refine ⟨rfl, fun other => ?_, fun other absent id => ?_, fun id => ?_, fun other absent => ?_,
        ?_⟩
      · split
        · rename_i isIt
          rw [List.mem_singleton.mp isIt, entityOf?, found]
          rfl
        · rfl
      all_goals rw [nobody]
      · exact nothing.sees other List.not_mem_nil id
      · exact nothing.world id
      · exact nothing.told other List.not_mem_nil
      · rfl
  | some connection =>
      have parts := parts_disconnect found visiting fault
      have departed : [client].filterMap session.entityOf? = [connection.entity] := by
        simp [entityOf?, found]
      have sameTick : (session.disconnect visiting client fault).tick = session.tick := by
        obtain ⟨-, same⟩ | ⟨entity, gone⟩ := parts.world
        · exact congrArg World.tick same
        · exact (World.despawn_frame gone).1
      refine ⟨sameTick, fun other => ?_, fun other absent id => ?_, fun id => ?_,
        fun other absent => ?_, ?_⟩
      · rw [parts.entity]
        simp only [List.mem_singleton, eq_comm]
      · have isOther : client ≠ other := fun same => absent (List.mem_singleton.mpr same.symm)
        unfold Session.sees
        rw [parts.interest, if_neg isOther, departed]
        cases session.interestOf? other with
        | none => rfl
        | some interest =>
            rw [Bool.eq_iff_iff]
            simp [Interest.isVisible_forget]
      · rw [parts.get?, departed]
        simp
      · have isOther : client ≠ other := fun same => absent (List.mem_singleton.mpr same.symm)
        rw [departed, List.nil_append]
        exact dispatchesTo_disconnect found visiting fault isOther
      · rw [departed]
        exact parts.size

theorem givesUp_giveUpAll (session : Session) (visiting : Visiting) {clients : List ClientId}
    (once : clients.Nodup) (capacity : Nat) :
    session.GivesUp (session.giveUpAll visiting clients capacity) [] clients := by
  induction clients generalizing session with
  | nil => exact session.givesUp_refl
  | cons client rest ih =>
      obtain ⟨single, distinct⟩ := List.nodup_cons.mp once
      have first := session.givesUp_disconnect visiting client (some (.backlog capacity))
      refine first.trans (ih _ distinct) fun other member isFirst => ?_
      rw [List.mem_singleton.mp isFirst] at member
      exact single member

/-- To give up clients that are gone already changes nothing. -/
theorem giveUpAll_of_unknown (session : Session) (visiting : Visiting) {clients : List ClientId}
    (capacity : Nat) (unknown : clients.filterMap session.entityOf? = []) :
    session.giveUpAll visiting clients capacity = session := by
  induction clients with
  | nil => rfl
  | cons client rest ih =>
      rw [List.filterMap_eq_nil_iff] at unknown
      have absent : session.connection? client = none :=
        Option.map_eq_none_iff.mp (unknown client List.mem_cons_self)
      have same : session.giveUp visiting client (.backlog capacity) = session := by
        unfold giveUp disconnect
        rw [absent]
      unfold giveUpAll
      rw [List.foldl_cons, same]
      exact ih (List.filterMap_eq_nil_iff.mpr fun other member =>
        unknown other (List.mem_cons_of_mem _ member))

end Session

end Overworld
