import Overworld.Proofs.Session.Sight

set_option autoImplicit false

/-!
What clients see over whole runs of a session: after each tick exactly what there is to see, and from
one tick to the next nothing else than what the client was told.
-/

namespace Overworld

namespace Session

variable {session : Session} {settings : Settings}

theorem lasts_places (least : Nat) : Lasts fun _ session => least ≤ session.world.places where
  mono grown _ := grown
  rests grown rests := rests.world.places ▸ grown
  connect grown client endpoint now := Nat.le_trans grown (places_le_connect _ client endpoint now)
  disconnect grown visiting client fault :=
    Nat.le_trans grown (Nat.le_of_eq (places_disconnect _ visiting client fault).symm)

theorem places_le_moved (session : Session) (visiting : Visiting) (now : Nat) :
    session.world.places ≤ (session.moved visiting now).world.places := by
  rw [(session.rests_moved visiting now).world.places]
  exact @Lasts.present session _ 0 (lasts_places session.world.places) (Nat.le_refl _) visiting now

theorem Chronicle.places_le_act (chronicle : Chronicle) (action : Action) :
    chronicle.session.world.places ≤ (chronicle.act action).session.world.places := by
  cases isTick : action.isTick with
  | false =>
      exact @Lasts.act _ 0 (lasts_places chronicle.session.world.places) chronicle (Nat.le_refl _)
        action isTick
  | true =>
      cases action with
      | tick visiting now =>
          refine Nat.le_trans (chronicle.session.places_le_moved visiting now) ?_
          exact Nat.le_of_eq (chronicle.session.stays_told visiting now).world.places.symm
      | _ => cases isTick

theorem Chronicle.places_le_foldl (chronicle : Chronicle) (actions : List Action) :
    chronicle.session.world.places ≤ (actions.foldl act chronicle).session.world.places := by
  induction actions generalizing chronicle with
  | nil => exact Nat.le_refl _
  | cons action rest ih => exact Nat.le_trans (chronicle.places_le_act action) (ih _)

theorem Chronicle.run_append (settings : Settings) (map : TileMap) (actions more : List Action) :
    run settings map (actions ++ more) = more.foldl act (run settings map actions) :=
  List.foldl_append

theorem sees_ofSettings (settings : Settings) (map : TileMap) : (ofSettings settings map).Sees := by
  have empty : ∀ client, (ofSettings settings map).connection? client = none := by
    intro client
    unfold connection? ofSettings
    simp
  refine ⟨fun client connection found => ?_, fun client connection found => ?_⟩ <;>
  · rw [empty] at found
    cases found

theorem Chronicle.run_sees (settings : Settings) (map : TileMap) (actions : List Action)
    (numbered : (run settings map actions).session.world.places ≤ 4294967296) :
    (run settings map actions).session.Sees := by
  induction actions using List.reverseRecOn with
  | nil => exact sees_ofSettings settings map
  | append_singleton earlier action ih =>
      rw [run_append] at numbered ⊢
      have keeps := run_keepsCensus settings map earlier
      have sees := ih (Nat.le_trans (places_le_act _ action) numbered)
      cases isTick : action.isTick with
      | false =>
          have views : (run settings map earlier).session.KeepsViews settings 0
              (run settings map earlier).session := ⟨keeps, fun _ _ => sees.recalls⟩
          have later := (sees.lasts_keepsViews settings).act views isTick
          exact (later.2 numbered (by decide)).sees sees
      | true =>
          cases action with
          | tick visiting now => exact keeps.sees_runTick visiting now numbered
          | _ => cases isTick

/-- No more events wait than the inbox has room for. -/
def HasStandardInbox (session : Session) : Prop :=
  session.inbox.capacity = .atLeastOne Inbox.standardCapacity ∧
    session.inbox.events.length ≤ Inbox.standardCapacity

theorem HasStandardInbox.of_inbox {after : Session} (standard : session.HasStandardInbox)
    (same : after.inbox = session.inbox) : after.HasStandardInbox := by
  unfold HasStandardInbox
  rw [same]
  exact standard

theorem HasStandardInbox.act {chronicle : Chronicle} (standard : chronicle.session.HasStandardInbox)
    (action : Action) : (chronicle.act action).session.HasStandardInbox := by
  cases action with
  | submit event =>
      change ((chronicle.session.submit event).toOption.getD chronicle.session).HasStandardInbox
      unfold submit Inbox.submit
      split
      · exact standard
      · split
        · exact standard
        · rename_i room
          refine ⟨standard.1, ?_⟩
          change (chronicle.session.inbox.events ++ [event]).length ≤ _
          rw [standard.1] at room
          rw [List.length_append, List.length_singleton]
          exact Nat.lt_of_not_le room
  | tick visiting now =>
      have emptied : ({ chronicle.session with inbox := chronicle.session.inbox.drain.2 } :
          Session).HasStandardInbox := ⟨standard.1, Nat.zero_le _⟩
      exact emptied.of_inbox (chronicle.session.follows_runTick visiting now).inbox
  | teleport client position =>
      exact standard.of_inbox (chronicle.session.places_teleport?_le client position).2
  | giveUp visiting client fault =>
      exact standard.of_inbox
        (chronicle.session.follows_disconnect visiting client (some fault)).inbox
  | invalidateChunk chunk => exact standard
  | drain => exact standard

theorem Chronicle.run_hasStandardInbox (settings : Settings) (map : TileMap)
    (actions : List Action) : (run settings map actions).session.HasStandardInbox := by
  suffices steps : ∀ chronicle : Chronicle, chronicle.session.HasStandardInbox →
      (actions.foldl act chronicle).session.HasStandardInbox from
    steps _ ⟨rfl, Nat.zero_le _⟩
  induction actions with
  | nil => exact fun _ standard => standard
  | cons action rest ih =>
      exact fun chronicle standard => ih (chronicle.act action) (standard.act action)

/-- What a client sees within a tick, before it looks again, is what it saw at any moment since the
last tick, less what has left the world. A client that was not in at that moment is new to the
world, and sees nothing. -/
theorem Chronicle.run_recalls (settings : Settings) (map : TileMap)
    (earlier between : List Action) (idle : ∀ action ∈ between, action.isTick = false)
    (visiting : Visiting) (now : Nat)
    (numbered : ((run settings map (earlier ++ between)).session.moved visiting
      now).world.places ≤ 4294967296) :
    (run settings map earlier).session.Recalls
      ((run settings map (earlier ++ between)).session.moved visiting now)
      (run settings map (earlier ++ between)).session.inbox.events.length := by
  obtain ⟨last, isLast⟩ : ∃ last, last = (run settings map earlier).session := ⟨_, rfl⟩
  have grown := places_le_foldl (run settings map earlier) between
  rw [← run_append] at grown
  have numberedLast : last.world.places ≤ 4294967296 :=
    Nat.le_trans (isLast ▸ grown) (Nat.le_trans (places_le_moved _ visiting now) numbered)
  have sees : last.Sees := isLast ▸ run_sees settings map earlier (isLast ▸ numberedLast)
  have lasts := sees.lasts_keepsViews settings
  have start : last.KeepsViews settings 0 (run settings map earlier).session :=
    ⟨run_keepsCensus settings map earlier, fun _ _ => isLast ▸ sees.recalls⟩
  have waiting := lasts.acts start between idle
  rw [← run_append] at waiting
  have present := (lasts.present waiting visiting now).2
  have rests := (run settings map (earlier ++ between)).session.rests_moved visiting now
  have few := (run_hasStandardInbox settings map (earlier ++ between)).2
  rw [Nat.zero_add] at present
  rw [rests.world.places] at numbered
  rw [← isLast]
  exact (present numbered (Nat.lt_of_le_of_lt few (by decide))).rests rests

namespace Chronicle

/-- After a tick a client sees exactly those others whose square touches the area around its own
entity. What the client is told came into view, and what left it, are the differences from `before`,
each in ascending order; and `before` is what the client saw at any moment since the last tick, less
what has left the world since. This holds as long as ids can tell the places of the world apart. -/
theorem run_sees_exactly (settings : Settings) (map : TileMap) (actions : List Action)
    (visiting : Visiting) (now : Nat)
    (numbered : (run settings map (actions ++ [.tick visiting now])).session.world.places ≤
      4294967296)
    (client : ClientId) (connection : Connection)
    (connected : (run settings map (actions ++ [.tick visiting now])).session.connection? client =
      some connection) :
    let session := (run settings map (actions ++ [.tick visiting now])).session
    let moved := (run settings map actions).session.moved visiting now
    ∃ owner before delta,
      session.world.get? connection.entity = some owner ∧
      (∀ id, id ∈ connection.interest.visible ↔ id ≠ connection.entity ∧
        ∃ entity, session.world.get? id = some entity ∧
          (Shape.rect (connection.interest.rules.areaFor owner.motion.position).rect).intersects
            entity.shape = true) ∧
      moved.connection? client = some before ∧ before.entity = connection.entity ∧
      before.interest.update connection.entity owner.motion.position moved.world.grid =
        (delta, connection.interest) ∧
      (∀ id, id ∈ delta.entered ↔
        id ∈ connection.interest.visible ∧ id ∉ before.interest.visible) ∧
      (∀ id, id ∈ delta.left ↔
        id ∈ before.interest.visible ∧ id ∉ connection.interest.visible) ∧
      (delta.entered.Pairwise fun a b => a.precedes b = true ∧ a ≠ b) ∧
      (delta.left.Pairwise fun a b => a.precedes b = true ∧ a ≠ b) ∧
      delta.entered.Disjoint delta.left ∧
      ∀ earlier between, actions = earlier ++ between →
        (∀ action ∈ between, action.isTick = false) →
        (∃ last, (run settings map earlier).session.connection? client = some last ∧
          last.entity = connection.entity ∧
          before.interest.visible =
            last.interest.visible.filter fun id => (session.world.get? id).isSome) ∨
        before.interest.visible = [] ∧
          ((run settings map earlier).session.world.get? connection.entity).isSome = false := by
  have ended : (run settings map (actions ++ [.tick visiting now])).session =
      (run settings map actions).session.runTick visiting now :=
    congrArg Chronicle.session (run_append settings map actions [.tick visiting now])
  rw [ended] at numbered connected ⊢
  intro session moved
  have stays := (run settings map actions).session.stays_told visiting now
  obtain ⟨owner, before, delta, owned, sees, held, same, looked⟩ :=
    (run_keepsCensus settings map actions).sees_exactly visiting now numbered connected
  rw [stays.world.places] at numbered
  have recalls : ∀ earlier between, actions = earlier ++ between →
      (∀ action ∈ between, action.isTick = false) →
      (run settings map earlier).session.Recalls moved
        (run settings map actions).session.inbox.events.length := by
    rintro earlier between rfl idle
    exact run_recalls settings map earlier between idle visiting now numbered
  have ascending : moved.Sees := by
    have last := recalls actions [] (List.append_nil _).symm fun _ none => by cases none
    exact last.sees (run_sees settings map actions
      (Nat.le_trans (places_le_moved _ visiting now) numbered))
  refine ⟨owner, before, delta, owned, sees, held, same, looked, Interest.mem_entered looked,
    Interest.mem_left looked, Interest.ascending_entered looked,
    Interest.ascending_left looked (ascending.ascending client before held), ?_, ?_⟩
  · intro id entered left
    exact ((Interest.mem_left looked id).mp left).2 ((Interest.mem_entered looked id).mp entered).1
  · intro earlier between split idle
    refine ((recalls earlier between split idle).seen client before held).imp ?_ ?_
    · rintro ⟨last, isLast, owner, visible⟩
      refine ⟨last, isLast, owner.symm.trans same, ?_⟩
      simp only [session, stays.world.isSome_get?]
      exact visible
    · rw [same]
      exact id

/-- What the first client of standard settings sees among the patrols. -/
theorem first_client_sees :
    ∃ connection owner,
      (run .standard ⟨16, fun _ => []⟩ firstClient).session.connection? ⟨0⟩ = some connection ∧
      (run .standard ⟨16, fun _ => []⟩ firstClient).session.world.get? connection.entity =
        some owner ∧
      ∀ id, id ∈ connection.interest.visible ↔ id ≠ connection.entity ∧
        ∃ entity,
          (run .standard ⟨16, fun _ => []⟩ firstClient).session.world.get? id = some entity ∧
          (Shape.rect (connection.interest.rules.areaFor owner.motion.position).rect).intersects
            entity.shape = true := by
  have isIn : (run .standard ⟨16, fun _ => []⟩ firstClient).session.isConnected ⟨0⟩ = true :=
    isConnected_first .standard _ (by decide) _ _ _ _
  rw [isConnected_eq] at isIn
  obtain ⟨connection, connected⟩ := Option.isSome_iff_exists.mp isIn
  have numbered := places_run_le .standard ⟨16, fun _ => []⟩ firstClient
  obtain ⟨owner, -, -, owned, sees, -⟩ := run_sees_exactly .standard ⟨16, fun _ => []⟩
    [.submit ⟨⟨0⟩, .connected (.v4 #v[127, 0, 0, 1] 4000), 0⟩] .ascending 0
    (Nat.le_trans numbered (by decide)) ⟨0⟩ connection connected
  exact ⟨connection, owner, connected, owned, sees⟩

end Chronicle

end Session

end Overworld
