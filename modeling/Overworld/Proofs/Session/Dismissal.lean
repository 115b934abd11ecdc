import Overworld.Proofs.Session.Likeness
import Overworld.Proofs.Session.Signatures
import Overworld.Proofs.Session.Twins

set_option autoImplicit false

/-!
The pass that ends the connections of clients that were silent for too long. Whoever stays has lost
the entities of those who went, and was told so, in the order in which they went; nothing else depends
on that order.
-/

namespace Overworld

namespace Session

variable {session : Session}

/-- The connections that were silent for too long, in the order in which they are come to. -/
def leavers (session : Session) (visiting : Visiting) (now : Nat) : List Connection :=
  ((visiting.order .timeouts session.clients).filterMap session.connection?).filter
    (·.isTimedOut now session.settings.timeoutUs)

/-- Ends a connection that was silent for too long. -/
def dismiss (visiting : Visiting) (now : Nat) (session : Session) (leaver : Connection) : Session :=
  disconnect visiting (session.onMetrics (·.tally .connectionsTimedOut)) leaver.client
    (some (.timeout (leaver.idle now / 1000)))

theorem dropSilent_eq (session : Session) (visiting : Visiting) (now : Nat) :
    session.dropSilent visiting now =
      (session.leavers visiting now).foldl (dismiss visiting now) session :=
  rfl

theorem mem_leavers {visiting : Visiting} {now : Nat} {leaver : Connection}
    (signed : session.IsSigned) :
    leaver ∈ session.leavers visiting now ↔
      session.connection? leaver.client = some leaver ∧
        leaver.isTimedOut now session.settings.timeoutUs = true := by
  unfold leavers
  rw [List.mem_filter, List.mem_filterMap]
  refine and_congr_left fun _ => ⟨?_, fun held => ⟨leaver.client, ?_, held⟩⟩
  · rintro ⟨client, -, held⟩
    rw [signed client leaver held]
    exact held
  · rw [mem_order, isConnected_eq, held]
    rfl

theorem nodup_leavers (signed : session.IsSigned) (visiting : Visiting) (now : Nat) :
    ((session.leavers visiting now).map (·.client)).Nodup := by
  have distinct : (session.leavers visiting now).Nodup := by
    refine List.Nodup.filter _ ((session.nodup_order visiting .timeouts).filterMap ?_)
    exact fun client other leaver held alsoHeld =>
      (signed client leaver held).symm.trans (signed other leaver alsoHeld)
  refine distinct.map_on fun leaver isLeaver other isOther same => ?_
  have held := ((mem_leavers signed).mp isLeaver).1
  rw [same] at held
  exact Option.some.inj (held.symm.trans ((mem_leavers signed).mp isOther).1)

/-- Both of two sessions that are alike dismiss the same. -/
theorem Alike.leavers_perm {first second : Session} (alike : first.Alike second) (one two : Visiting)
    (now : Nat) : (first.leavers one now).Perm (second.leavers two now) := by
  have members : first.connection? = second.connection? := funext alike.connections
  have visited : (one.order .timeouts first.clients).Perm (two.order .timeouts second.clients) := by
    refine (List.perm_ext_iff_of_nodup (first.nodup_order one .timeouts)
      (second.nodup_order two .timeouts)).mpr fun client => ?_
    rw [mem_order, mem_order, alike.isConnected]
  unfold leavers
  rw [members, alike.settings]
  exact (visited.filterMap _).filter _

theorem givesUp_dismiss (visiting : Visiting) (now : Nat) (session : Session) (leaver : Connection) :
    session.GivesUp (dismiss visiting now session leaver) [] [leaver.client] :=
  have counted : session.GivesUp (session.onMetrics (·.tally .connectionsTimedOut)) [] [] :=
    have nothing := session.givesUp_refl
    ⟨nothing.tick, nothing.entity, nothing.sees, nothing.world, nothing.told, nothing.size⟩
  counted.trans (givesUp_disconnect _ visiting leaver.client _) fun _ _ => List.not_mem_nil

theorem givesUp_dismiss_foldl (visiting : Visiting) (now : Nat) {leavers : List Connection}
    (once : (leavers.map (·.client)).Nodup) (session : Session) :
    session.GivesUp (leavers.foldl (dismiss visiting now) session) [] (leavers.map (·.client)) := by
  induction leavers generalizing session with
  | nil => exact session.givesUp_refl
  | cons leaver rest ih =>
      obtain ⟨single, distinct⟩ := List.nodup_cons.mp once
      refine (givesUp_dismiss visiting now session leaver).trans (ih distinct _) ?_
      intro other member isFirst
      rw [List.mem_singleton.mp isFirst] at member
      exact single member

theorem connection?_dismiss {leaver : Connection} {own : EntityId}
    (owns : session.entityOf? leaver.client = some own) (visiting : Visiting) (now : Nat)
    (other : ClientId) :
    (dismiss visiting now session leaver).connection? other =
      if leaver.client = other then none else (session.connection? other).map (·.lose own) := by
  obtain ⟨connection, found, rfl⟩ := Option.map_eq_some_iff.mp owns
  have held : (session.onMetrics (·.tally .connectionsTimedOut)).connection? leaver.client =
      some connection := found
  exact connection?_disconnect held visiting _ other

theorem connection?_dismiss_foldl (visiting : Visiting) (now : Nat) {leavers : List Connection}
    (once : (leavers.map (·.client)).Nodup) (session : Session)
    (owns : ∀ leaver ∈ leavers, session.entityOf? leaver.client = some leaver.entity)
    (other : ClientId) :
    (leavers.foldl (dismiss visiting now) session).connection? other =
      if other ∈ leavers.map (·.client) then none
      else (session.connection? other).map (·.loseAll (leavers.map (·.entity))) := by
  induction leavers generalizing session with
  | nil => exact (congrFun Option.map_id _).symm
  | cons leaver rest ih =>
      obtain ⟨single, distinct⟩ := List.nodup_cons.mp once
      have gone := connection?_dismiss (owns leaver List.mem_cons_self) visiting now
      have left := (givesUp_dismiss visiting now session leaver).entity
      have later : ∀ other ∈ rest,
          (dismiss visiting now session leaver).entityOf? other.client = some other.entity := by
        intro other member
        rw [left, if_neg, owns other (List.mem_cons_of_mem _ member)]
        intro isLeaver
        exact single (List.mem_map.mpr ⟨other, member, List.mem_singleton.mp isLeaver⟩)
      rw [List.foldl_cons, ih distinct _ later, gone]
      by_cases isLeaver : leaver.client = other
      · simp [isLeaver]
      · have different : other ≠ leaver.client := fun same => isLeaver same.symm
        simp [isLeaver, different, Option.map_map, Function.comp_def, Connection.loseAll]

end Session

end Overworld
