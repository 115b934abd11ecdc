import Overworld.Proofs.Delivery.Farewells
import Overworld.Proofs.Delivery.Routing

set_option autoImplicit false

/-!
The rounds of a delivery. It ends because every round that queues more takes a connection away; who
is reported in some round had no room for what was for it and is out for good, and everyone else is
sent all that was for it.
-/

namespace Overworld

/-- The batches for a client up to the first one that says to close its line. -/
def throughClose (client : ClientId) : List (List Outbound) → List (List Outbound)
  | [] => []
  | batch :: later =>
    if .close ∈ dispatchesTo client batch then [batch] else batch :: throughClose client later

theorem throughClose_of_open {client : ClientId} {batches : List (List Outbound)}
    (isOpen : .close ∉ batches.flatMap (dispatchesTo client)) :
    throughClose client batches = batches ∧
      (batches.all fun batch => !(dispatchesTo client batch).contains .close) = true := by
  induction batches with
  | nil => exact ⟨rfl, rfl⟩
  | cons batch later ih =>
      rw [List.flatMap_cons, List.mem_append, not_or] at isOpen
      obtain ⟨same, stays⟩ := ih isOpen.2
      rw [throughClose, if_neg isOpen.1, same, List.all_cons, stays]
      exact ⟨rfl, by simpa using isOpen.1⟩

theorem Line.afterBatch_foldl_of_unfed (client : ClientId) (batches : List (List Outbound))
    {line : Line} (unfed : line.isFed = false) :
    batches.foldl (fun line batch => line.afterBatch (dispatchesTo client batch)) line = line := by
  induction batches with
  | nil => rfl
  | cons batch later ih =>
      have same : line.afterBatch (dispatchesTo client batch) = line := by
        simp [afterBatch, unfed]
      rw [List.foldl_cons, same, ih]

/-- A line that is still fed was not closed. -/
theorem Line.afterBatch_of_isFed {line : Line} {dispatches : List Dispatch}
    (isFed : (line.afterBatch dispatches).isFed = true) :
    line.isFed = true ∧ line.afterBatch dispatches = line.takeAll dispatches := by
  unfold afterBatch at isFed ⊢
  cases wasFed : line.isFed with
  | false =>
      rw [if_neg (by simp [wasFed]), wasFed] at isFed
      cases isFed
  | true =>
      rw [if_pos wasFed] at isFed
      replace isFed : (!dispatches.contains .close) = true := isFed
      refine ⟨rfl, ?_⟩
      change Line.mk (line.takeAll dispatches).queue (!dispatches.contains .close)
        (line.takeAll dispatches).isRead = line.takeAll dispatches
      rw [isFed, ← wasFed, ← line.isFed_takeAll dispatches]

/-- A line takes what is for its client until it is closed. -/
theorem Line.afterBatch_foldl (client : ClientId) (batches : List (List Outbound)) {line : Line}
    (isFed : line.isFed = true) (isRead : line.isRead = true) :
    batches.foldl (fun line batch => line.afterBatch (dispatchesTo client batch)) line =
      ⟨line.queue ++ (throughClose client batches).flatMap (dispatchesTo client),
        batches.all fun batch => !(dispatchesTo client batch).contains .close, true⟩ := by
  induction batches generalizing line with
  | nil =>
      obtain ⟨queue, _, _⟩ := line
      cases isFed
      cases isRead
      simp [throughClose]
  | cons batch later ih =>
      have next : line.afterBatch (dispatchesTo client batch) =
          ⟨line.queue ++ dispatchesTo client batch,
            !(dispatchesTo client batch).contains .close, true⟩ := by
        simp [afterBatch, takeAll, isFed, isRead]
      rw [List.foldl_cons, next, throughClose]
      by_cases closed : .close ∈ dispatchesTo client batch
      · rw [afterBatch_foldl_of_unfed client later (by simpa using closed)]
        simp [closed]
      · rw [ih (by simpa using closed) rfl]
        simp [closed]

namespace Session

/-- What a round of a delivery routes, and whose lines overflow in it. -/
structure Round where
  batch : List Outbound
  overflowed : List ClientId

/-- The rounds of a delivery, at most so many. -/
def rounds (visiting : Visiting) : Nat → Session → Router → List Round
  | 0, _, _ => []
  | count + 1, session, router =>
    if session.outbound.isEmpty then []
    else
      ⟨session.outbound.toList, (router.route session.outbound.toList).1⟩ ::
        rounds visiting count (deliverRound visiting session router).1
          (deliverRound visiting session router).2

variable {session : Session} {router : Router} {visiting : Visiting}

theorem router_deliverRound (visiting : Visiting) (session : Session) (router : Router) :
    (deliverRound visiting session router).2 = (router.route session.outbound.toList).2 := rfl

theorem givesUp_deliverRound (visiting : Visiting) (session : Session) (router : Router) :
    session.GivesUp (deliverRound visiting session router).1 session.outbound.toList
      (router.route session.outbound.toList).1 := by
  have gaveUp := session.givesUp_drain.trans (givesUp_giveUpAll session.drainOutbound.2 visiting
    (router.nodup_overflowed session.outbound.toList)
    (router.route session.outbound.toList).2.capacity.count) fun _ _ => List.not_mem_nil
  rw [List.append_nil, List.nil_append] at gaveUp
  exact gaveUp

/-- A round that takes no connection away queues nothing. -/
theorem outbound_deliverRound (visiting : Visiting) (session : Session) (router : Router) :
    (deliverRound visiting session router).1.outbound = #[] ∨
      (deliverRound visiting session router).1.connections.size < session.connections.size := by
  have size := (givesUp_deliverRound visiting session router).size
  by_cases nobody : (router.route session.outbound.toList).1.filterMap session.entityOf? = []
  · left
    have same : (deliverRound visiting session router).1 = session.drainOutbound.2 :=
      session.drainOutbound.2.giveUpAll_of_unknown visiting _ nobody
    rw [same]
    rfl
  · right
    have some := List.length_pos_iff.mpr nobody
    omega

/-- There is nothing to deliver, or there are rounds enough to take all connections away. -/
def CanFinish (session : Session) (count : Nat) : Prop :=
  session.outbound = #[] ∨ session.connections.size < count

theorem CanFinish.deliverRound {count : Nat} (can : session.CanFinish (count + 1))
    (some : session.outbound.isEmpty = false) :
    (session.deliverRound visiting router).1.CanFinish count := by
  have few := can.resolve_left fun empty => by
    rw [empty] at some
    cases some
  exact (outbound_deliverRound visiting session router).imp_right fun fewer => by omega

theorem CanFinish.outbound {count : Nat} (can : session.CanFinish count) :
    (deliverRounds visiting count session router).1.outbound = #[] := by
  induction count generalizing session router with
  | zero => exact can.resolve_right (Nat.not_lt_zero _)
  | succ count ih =>
      rw [deliverRounds]
      cases empty : session.outbound.isEmpty with
      | true => exact Array.isEmpty_iff.mp empty
      | false => exact ih (can.deliverRound empty)

/-- More rounds change nothing. -/
theorem CanFinish.deliverRounds_add {count : Nat} (can : session.CanFinish count) (more : Nat) :
    deliverRounds visiting (count + more) session router =
      deliverRounds visiting count session router := by
  induction count generalizing session router with
  | zero =>
      have empty : session.outbound.isEmpty = true :=
        Array.isEmpty_iff.mpr (can.resolve_right (Nat.not_lt_zero _))
      cases more with
      | zero => rfl
      | succ more => simp [deliverRounds, empty]
  | succ count ih =>
      rw [Nat.succ_add, deliverRounds, deliverRounds]
      cases empty : session.outbound.isEmpty with
      | true => rfl
      | false => exact ih (can.deliverRound empty)

theorem fedLine?_deliverRound {client : ClientId} (unfed : router.fedLine? client = none) :
    (deliverRound visiting session router).2.fedLine? client = none := by
  rw [router_deliverRound, Router.fedLine?,
    Router.lines_route (Router.not_overflowed_of_unfed unfed)]
  unfold Router.fedLine? at unfed
  cases held : router.lines[client]? with
  | none => rfl
  | some line =>
      rw [held] at unfed
      have notFed : line.isFed = false := by simpa using unfed
      simp [Line.afterBatch, notFed]

/-- Where the server feeds no line it does not come to feed one, and nothing overflows. -/
theorem fedLine?_deliverRounds {client : ClientId} (count : Nat)
    (unfed : router.fedLine? client = none) :
    (deliverRounds visiting count session router).2.fedLine? client = none ∧
      ∀ round ∈ rounds visiting count session router, client ∉ round.overflowed := by
  induction count generalizing session router with
  | zero => exact ⟨unfed, fun _ none => by cases none⟩
  | succ count ih =>
      rw [deliverRounds, rounds]
      cases session.outbound.isEmpty with
      | true => exact ⟨unfed, fun _ none => by cases none⟩
      | false =>
          have next : (deliverRound visiting session router).2.fedLine? client = none :=
            fedLine?_deliverRound unfed
          obtain ⟨later, spared⟩ := ih next
          refine ⟨later, fun round member => ?_⟩
          obtain rfl | after := List.mem_cons.mp member
          · exact Router.not_overflowed_of_unfed unfed
          · exact spared round after

def reported (rounds : List Round) : List ClientId := rounds.flatMap (·.overflowed)

theorem givesUp_deliverRounds (visiting : Visiting) (count : Nat) (session : Session)
    (router : Router) :
    session.GivesUp (deliverRounds visiting count session router).1
      ((rounds visiting count session router).flatMap (·.batch))
      (reported (rounds visiting count session router)) := by
  induction count generalizing session router with
  | zero => exact session.givesUp_refl
  | succ count ih =>
      rw [deliverRounds, rounds]
      cases session.outbound.isEmpty with
      | true => exact session.givesUp_refl
      | false =>
          refine (givesUp_deliverRound visiting session router).trans (ih _ _) ?_
          -- who is reported has no line from then on, so that it is not reported again
          intro client later spilled
          obtain ⟨round, member, again⟩ := List.mem_flatMap.mp later
          exact (fedLine?_deliverRounds count (Router.fedLine?_of_overflowed spilled)).2
            round member again

theorem fedLine?_of_reported {client : ClientId} (count : Nat)
    (spilled : client ∈ reported (rounds visiting count session router)) :
    (deliverRounds visiting count session router).2.fedLine? client = none := by
  induction count generalizing session router with
  | zero => cases spilled
  | succ count ih =>
      rw [rounds] at spilled
      rw [deliverRounds]
      cases empty : session.outbound.isEmpty with
      | true =>
          rw [empty] at spilled
          cases spilled
      | false =>
          rw [empty] at spilled
          obtain now | later := List.mem_append.mp spilled
          · exact (fedLine?_deliverRounds count (Router.fedLine?_of_overflowed now)).1
          · exact ih later

/-- Only a line without room for all that there is for it is reported. -/
theorem full_of_reported {client : ClientId} (count : Nat)
    (spilled : client ∈ reported (rounds visiting count session router)) :
    ∃ line, router.fedLine? client = some line ∧
      line.Overflows router.capacity.count
        (((rounds visiting count session router).map (·.batch)).flatMap (dispatchesTo client)) := by
  induction count generalizing session router with
  | zero => cases spilled
  | succ count ih =>
      rw [rounds] at spilled ⊢
      cases empty : session.outbound.isEmpty with
      | true =>
          rw [empty] at spilled
          cases spilled
      | false =>
          rw [empty] at spilled
          by_cases now : client ∈ (router.route session.outbound.toList).1
          · obtain ⟨line, fed, full⟩ := Router.full_of_overflowed now
            exact ⟨line, fed, full.append _⟩
          · obtain ⟨line, fed, full⟩ := ih ((List.mem_append.mp spilled).resolve_left now)
            obtain ⟨held, isFed⟩ := Router.fedLine?_eq_some_iff.mp fed
            rw [router_deliverRound, Router.lines_route now] at held
            obtain ⟨earlier, heldBefore, rfl⟩ := Option.map_eq_some_iff.mp held
            obtain ⟨wasFed, same⟩ := Line.afterBatch_of_isFed isFed
            rw [router_deliverRound, Router.capacity_route, same] at full
            exact ⟨earlier, Router.fedLine?_eq_some_iff.mpr ⟨heldBefore, wasFed⟩,
              full.of_takeAll⟩

/-- Where no line overflows, nothing more is queued, and nobody is reported. -/
theorem reported_of_room (count : Nat) (room : (router.route session.outbound.toList).1 = []) :
    reported (rounds visiting count session router) = [] := by
  cases count with
  | zero => rfl
  | succ count =>
      rw [rounds]
      cases session.outbound.isEmpty with
      | true => rfl
      | false =>
          have drained : (deliverRound visiting session router).1 = session.drainOutbound.2 := by
            change giveUpAll visiting session.drainOutbound.2
              (router.route session.outbound.toList).1 _ = _
            rw [room]
            rfl
          have nothing : ∀ count router,
              rounds visiting count session.drainOutbound.2 router = [] :=
            fun count _ => by cases count <;> rfl
          change (router.route session.outbound.toList).1 ++
            reported (rounds visiting count _ _) = []
          rw [room, drained, nothing]
          rfl

/-- A line that does not overflow takes all that is for it, until it is closed. -/
theorem lines_deliverRounds {client : ClientId} (count : Nat)
    (kept : client ∉ reported (rounds visiting count session router)) :
    (deliverRounds visiting count session router).2.lines[client]? =
      (router.lines[client]?).map fun line =>
        ((rounds visiting count session router).map (·.batch)).foldl
          (fun line batch => line.afterBatch (dispatchesTo client batch)) line := by
  induction count generalizing session router with
  | zero => simp [rounds, deliverRounds]
  | succ count ih =>
      rw [rounds] at kept ⊢
      rw [deliverRounds]
      cases empty : session.outbound.isEmpty with
      | true => simp
      | false =>
          rw [empty] at kept
          obtain ⟨now, later⟩ := not_or.mp (mt List.mem_append.mpr kept)
          refine (ih later).trans ?_
          rw [router_deliverRound, Router.lines_route now, Option.map_map]
          rfl

/-- The first round routes what was queued. -/
theorem rounds_cases (visiting : Visiting) (count : Nat) (session : Session) (router : Router) :
    session.outbound.toList = [] ∧ rounds visiting (count + 1) session router = [] ∨
      ∃ overflowed later, rounds visiting (count + 1) session router =
        ⟨session.outbound.toList, overflowed⟩ :: later := by
  rw [rounds]
  cases empty : session.outbound.isEmpty with
  | true => exact Or.inl ⟨Array.toList_eq_nil_iff.mpr (Array.isEmpty_iff.mp empty), rfl⟩
  | false => exact Or.inr ⟨_, _, rfl⟩

/-- Whoever is reported is so in some round, and the first one routes what was queued. -/
theorem batches_of_reported {count : Nat} {client : ClientId}
    (spilled : client ∈ reported (rounds visiting (count + 1) session router)) :
    session.outbound.toList :: (rounds visiting (count + 1) session router).tail.map (·.batch) =
      (rounds visiting (count + 1) session router).map (·.batch) := by
  obtain ⟨-, none⟩ | ⟨overflowed, later, first⟩ := rounds_cases visiting count session router
  · rw [none] at spilled
    cases spilled
  · rw [first]
    rfl

theorem dispatchesTo_flatMap_batch (client : ClientId) (rounds : List Round) :
    dispatchesTo client (rounds.flatMap (·.batch)) =
      (rounds.map (·.batch)).flatMap (dispatchesTo client) := by
  induction rounds with
  | nil => rfl
  | cons round later ih => simp [ih]

variable {count : Nat} {client : ClientId}

/-- A client that was reported is out: its connection, its line and its entity are gone. -/
theorem out_of_reported (spilled : client ∈ reported (rounds visiting count session router)) :
    (deliverRounds visiting count session router).1.connection? client = none ∧
      (deliverRounds visiting count session router).2.fedLine? client = none ∧
      ∀ connection, session.connection? client = some connection →
        (deliverRounds visiting count session router).1.world.get? connection.entity = none := by
  have gaveUp := givesUp_deliverRounds visiting count session router
  refine ⟨?_, fedLine?_of_reported count spilled, fun connection found => ?_⟩
  · have gone := gaveUp.entity client
    rw [if_pos spilled] at gone
    exact Option.map_eq_none_iff.mp gone
  · rw [gaveUp.world, if_pos]
    exact List.mem_filterMap.mpr ⟨client, spilled, congrArg _ found⟩

/-- Behind what was queued a client that was not reported is told who of those it saw was given
up. -/
theorem CanFinish.told (can : session.CanFinish (count + 1))
    (kept : client ∉ reported (rounds visiting (count + 1) session router)) :
    ((rounds visiting (count + 1) session router).tail.map (·.batch)).flatMap
        (dispatchesTo client) =
      farewells session.tick (session.sees client)
        ((reported (rounds visiting (count + 1) session router)).filterMap session.entityOf?) := by
  have all := (givesUp_deliverRounds visiting (count + 1) session router).told client kept
  rw [can.outbound, List.append_nil, dispatchesTo_flatMap_batch] at all
  obtain ⟨empty, none⟩ | ⟨overflowed, later, first⟩ := rounds_cases visiting count session router
  · rw [none, empty] at all
    rw [none]
    exact all
  · generalize farewells _ _ _ = told at all ⊢
    rw [first, List.map_cons, List.flatMap_cons] at all
    rw [first]
    exact List.append_cancel_left all

/-- A line that is fed and read, and not reported, takes what there is for its client. -/
theorem lines_of_kept {line : Line}
    (kept : client ∉ reported (rounds visiting (count + 1) session router))
    (fed : router.fedLine? client = some line) (isRead : line.isRead = true)
    {batches : List (List Outbound)} (all : batches = session.outbound.toList ::
      (rounds visiting (count + 1) session router).tail.map (·.batch)) :
    (deliverRounds visiting (count + 1) session router).2.lines[client]? =
      some ⟨line.queue ++ (throughClose client batches).flatMap (dispatchesTo client),
        batches.all fun batch => !(dispatchesTo client batch).contains .close, true⟩ := by
  obtain ⟨held, isFed⟩ := Router.fedLine?_eq_some_iff.mp fed
  rw [lines_deliverRounds _ kept, held, Option.map_some,
    Line.afterBatch_foldl client _ isFed isRead]
  obtain ⟨empty, none⟩ | ⟨overflowed, later, first⟩ := rounds_cases visiting count session router
  · simp [all, none, empty, throughClose]
  · simp [all, first]

/-- A delivery ends with nothing queued, and more rounds would change nothing. A client is reported in
some round only if its line has no room for all that there is for it, and then it is out: it has no
connection and no line, and its entity has left the world. Every other client that the server feeds
and that holds its line is sent exactly what there is for it, in order, up to the batch that closes its
line: first what was queued, then word of each entity that it saw and whose client was given up,
once. -/
theorem deliver_loses_nothing (visiting : Visiting) (session : Session) (router : Router) :
    let rounds := rounds visiting (session.connections.size + 1) session router
    let batches := session.outbound.toList :: rounds.tail.map (·.batch)
    let after := (session.deliver visiting router).1
    let routed := (session.deliver visiting router).2
    (∀ more, deliverRounds visiting (session.connections.size + 1 + more) session router =
      session.deliver visiting router) ∧
    after.outbound = #[] ∧
    (∀ client ∈ reported rounds,
      (∃ line, router.fedLine? client = some line ∧
        line.Overflows router.capacity.count (batches.flatMap (dispatchesTo client))) ∧
      after.connection? client = none ∧
      routed.fedLine? client = none ∧
      ∀ connection, session.connection? client = some connection →
        after.world.get? connection.entity = none) ∧
    (∀ client line, client ∉ reported rounds → router.fedLine? client = some line →
      line.isRead = true →
      routed.lines[client]? =
        some ⟨line.queue ++ (throughClose client batches).flatMap (dispatchesTo client),
          batches.all fun batch => !(dispatchesTo client batch).contains .close, true⟩) ∧
    ∀ client, client ∉ reported rounds →
      batches.tail.flatMap (dispatchesTo client) =
        farewells session.tick (session.sees client)
          ((reported rounds).filterMap session.entityOf?) := by
  intro rounds batches after routed
  have can : session.CanFinish (session.connections.size + 1) := Or.inr (Nat.lt_succ_self _)
  refine ⟨can.deliverRounds_add, can.outbound, fun client spilled => ⟨?_, out_of_reported spilled⟩,
    fun client line kept fed isRead => lines_of_kept kept fed isRead rfl,
    fun client kept => can.told kept⟩
  have all : batches = rounds.map (·.batch) := batches_of_reported spilled
  rw [all]
  exact full_of_reported _ spilled

/-- A connection of a client that was shown some entities. -/
def showing (client : ClientId) (entity : EntityId) (visible : List EntityId) : Connection :=
  { Connection.opened client (.v6 (.replicate 8 0) 0 4000) entity .standard .standard .standard 0
    with interest := { Interest.ofRules .standard with visible } }

/-- The first entity in a world, and the world with it. -/
def firstComer : EntityId × World :=
  (World.ofGrid Settings.standard.grid .standard Settings.standard.dt).spawn .zero actorHalfExtent
    .controlled

def secondComer : EntityId × World :=
  firstComer.2.spawn .zero actorHalfExtent .controlled

/-- Something is queued for two clients. The first has a full line and is in the view of the second. -/
def crowd : Session × Router :=
  ({ ofSettings { Settings.standard with npcCount := 0 } ⟨16, fun _ => []⟩ with
      world := secondComer.2
      connections := ((∅ : Std.HashMap ClientId Connection).insert ⟨0⟩
        (showing ⟨0⟩ firstComer.1 [])).insert ⟨1⟩ (showing ⟨1⟩ secondComer.1 [firstComer.1])
      outbound := #[⟨⟨0⟩, .message (.tickAdjustment 1)⟩, ⟨⟨1⟩, .message (.tickAdjustment 1)⟩] },
    ⟨.atLeastOne 2, ((∅ : Std.HashMap ClientId Line).insert ⟨0⟩
      ⟨[.message (.tickAdjustment 0), .message (.tickAdjustment 0)], true, true⟩).insert ⟨1⟩
      .opened⟩)

theorem connection?_crowd :
    crowd.1.connection? ⟨0⟩ = some (showing ⟨0⟩ firstComer.1 []) ∧
      crowd.1.connection? ⟨1⟩ = some (showing ⟨1⟩ secondComer.1 [firstComer.1]) := by
  refine ⟨(Std.HashMap.getElem?_insert ..).trans ?_, Std.HashMap.getElem?_insert_self⟩
  rw [if_neg (by decide)]
  exact Std.HashMap.getElem?_insert_self

theorem fedLine?_crowd :
    crowd.2.fedLine? ⟨0⟩ =
        some ⟨[.message (.tickAdjustment 0), .message (.tickAdjustment 0)], true, true⟩ ∧
      crowd.2.fedLine? ⟨1⟩ = some .opened ∧
      ∀ client, client ≠ ⟨0⟩ → client ≠ ⟨1⟩ → crowd.2.fedLine? client = none := by
  refine ⟨Router.fedLine?_eq_some_iff.mpr ⟨?_, rfl⟩,
    Router.fedLine?_eq_some_iff.mpr ⟨Std.HashMap.getElem?_insert_self, rfl⟩,
    fun client notFirst notSecond => ?_⟩
  · refine (Std.HashMap.getElem?_insert ..).trans ?_
    rw [if_neg (by decide)]
    exact Std.HashMap.getElem?_insert_self
  · have absent : crowd.2.lines[client]? = none := by
      refine (Std.HashMap.getElem?_insert ..).trans ?_
      rw [if_neg (by simpa using notSecond.symm), Std.HashMap.getElem?_insert,
        if_neg (by simpa using notFirst.symm), Std.HashMap.getElem?_empty]
    rw [Router.fedLine?, absent, Option.filter_none]

theorem sees_crowd : crowd.1.sees ⟨1⟩ firstComer.1 = true := by
  rw [sees, interestOf?, connection?_crowd.2]
  exact List.contains_iff_mem.mpr List.mem_cons_self

theorem isSome_get?_crowd : (crowd.1.world.get? firstComer.1).isSome = true := by
  have cameFirst : (World.ofGrid Settings.standard.grid .standard Settings.standard.dt).spawn .zero
      actorHalfExtent .controlled = (firstComer.1, firstComer.2) := rfl
  have cameThen : firstComer.2.spawn .zero actorHalfExtent .controlled =
      (secondComer.1, secondComer.2) := rfl
  have one := World.places_spawn cameFirst
  have two := World.places_spawn cameThen
  have empty : (World.ofGrid Settings.standard.grid .standard Settings.standard.dt).places = 0 :=
    rfl
  change (secondComer.2.get? firstComer.1).isSome = true
  rw [World.get?_spawn cameThen (by omega), World.get?_spawn cameFirst (by omega), if_pos rfl]
  split <;> rfl

theorem farewells_crowd :
    farewells crowd.1.tick (crowd.1.sees ⟨1⟩) ([⟨0⟩].filterMap crowd.1.entityOf?) =
      [.message (.entityLeft 0 firstComer.1)] := by
  have owns : [⟨0⟩].filterMap crowd.1.entityOf? = [firstComer.1] := by
    have owned : crowd.1.entityOf? ⟨0⟩ = some firstComer.1 := congrArg _ connection?_crowd.1
    rw [List.filterMap_cons_some owned, List.filterMap_nil]
  rw [owns, farewells_singleton, if_pos sees_crowd]
  rfl

/-- Only the first client overflows, and word of its going has room with the second one. -/
theorem reported_crowd :
    reported (rounds .ascending (crowd.1.connections.size + 1) crowd.1 crowd.2) = [⟨0⟩] := by
  obtain ⟨slow, fast, others⟩ := fedLine?_crowd
  have room : crowd.2.capacity.count = 2 := rfl
  have spilled : (crowd.2.route crowd.1.outbound.toList).1 = [⟨0⟩] := by
    change (crowd.2.route [⟨⟨0⟩, .message (.tickAdjustment 1)⟩,
      ⟨⟨1⟩, .message (.tickAdjustment 1)⟩]).1 = _
    simp [Router.route, Router.putItem, slow, fast, Line.put?, Line.opened, room]
  have kept : ⟨1⟩ ∉ (crowd.2.route crowd.1.outbound.toList).1 := by
    rw [spilled]
    decide
  obtain ⟨next, isNext⟩ : ∃ next, next = deliverRound .ascending crowd.1 crowd.2 := ⟨_, rfl⟩
  have routed : next.2 = (crowd.2.route crowd.1.outbound.toList).2 := by
    rw [isNext, router_deliverRound]
  have told := (givesUp_deliverRound .ascending crowd.1 crowd.2).told ⟨1⟩ kept
  rw [spilled, farewells_crowd, dispatchesTo_append, ← isNext] at told
  have word := List.append_cancel_left told
  -- in the second round only the second client has a line, and it has room for one dispatch more
  have fits : (next.2.route next.1.outbound.toList).1 = [] := by
    refine List.eq_nil_iff_forall_not_mem.mpr fun client again => ?_
    obtain ⟨line, fed, -, many⟩ := Router.full_of_overflowed again
    rw [routed] at fed many
    by_cases isFirst : client = ⟨0⟩
    · rw [Router.fedLine?_of_overflowed (by rw [spilled, isFirst]; exact List.mem_cons_self)] at fed
      cases fed
    by_cases isSecond : client = ⟨1⟩
    · obtain ⟨held, -⟩ := Router.fedLine?_eq_some_iff.mp fed
      rw [isSecond, Router.lines_route kept, (Router.fedLine?_eq_some_iff.mp fast).1] at held
      rw [isSecond, word, Router.capacity_route, room, ← Option.some.inj held] at many
      exact absurd many (by decide)
    · rw [← routed, isNext, fedLine?_deliverRound (others client isFirst isSecond)] at fed
      cases fed
  rw [rounds, if_neg (by decide), ← isNext]
  change (crowd.2.route crowd.1.outbound.toList).1 ++ reported _ = _
  rw [spilled, reported_of_room _ fits]
  rfl

/-- The full line is cut and its client goes; the other one, who saw it, hears of that behind what was
queued. -/
theorem full_line_is_cut :
    crowd.1.sees ⟨1⟩ firstComer.1 = true ∧ (crowd.1.world.get? firstComer.1).isSome = true ∧
    (crowd.1.deliver .ascending crowd.2).1.connection? ⟨0⟩ = none ∧
    (crowd.1.deliver .ascending crowd.2).1.world.get? firstComer.1 = none ∧
    (crowd.1.deliver .ascending crowd.2).2.fedLine? ⟨0⟩ = none ∧
    (crowd.1.deliver .ascending crowd.2).2.lines[(⟨1⟩ : ClientId)]? =
      some ⟨[.message (.tickAdjustment 1), .message (.entityLeft 0 firstComer.1)], true, true⟩ := by
  obtain ⟨-, -, given, served, told⟩ := deliver_loses_nothing .ascending crowd.1 crowd.2
  rw [reported_crowd] at given served told
  obtain ⟨-, unconnected, unfed, gone⟩ := given ⟨0⟩ List.mem_cons_self
  refine ⟨sees_crowd, isSome_get?_crowd, unconnected, gone _ connection?_crowd.1, unfed, ?_⟩
  obtain ⟨later, isLater⟩ : ∃ later, later = (rounds .ascending (crowd.1.connections.size + 1)
    crowd.1 crowd.2).tail.map (·.batch) := ⟨_, rfl⟩
  have word := (told ⟨1⟩ (by decide)).trans farewells_crowd
  have line := served ⟨1⟩ _ (by decide) fedLine?_crowd.2.1 rfl
  rw [← isLater] at word line
  have all : (crowd.1.outbound.toList :: later).flatMap (dispatchesTo ⟨1⟩) =
      [.message (.tickAdjustment 1), .message (.entityLeft 0 firstComer.1)] := by
    rw [List.flatMap_cons]
    exact congrArg (_ ++ ·) word
  have isOpen : .close ∉ (crowd.1.outbound.toList :: later).flatMap (dispatchesTo ⟨1⟩) := by
    rw [all]
    simp
  obtain ⟨same, stays⟩ := throughClose_of_open isOpen
  rw [same, all, stays] at line
  exact line

end Session

end Overworld
