import Overworld.Proofs.Session.Census
import Overworld.Proofs.World.Tenancy

set_option autoImplicit false

/-!
What clients see from one look around to the next. In between nothing comes into view, and an entity
leaves it exactly when it leaves the world; only newcomers come with an empty view.
-/

namespace Overworld

namespace Session

variable {session before middle after : Session} {settings : Settings} {joins : Nat}

/-- Whatever is in the view of a client is in the world, and stands there in order. -/
structure Sees (session : Session) : Prop where
  alive : ∀ client connection, session.connection? client = some connection →
    ∀ id ∈ connection.interest.visible, (session.world.get? id).isSome = true
  ascending : ∀ client connection, session.connection? client = some connection →
    connection.interest.visible.Pairwise fun a b => a.precedes b = true ∧ a ≠ b

/-- Who is in `after` sees what it saw in `before`, where that is still in the world, or has come
since, after at most so many, and sees nothing yet. -/
structure Recalls (before after : Session) (joins : Nat) : Prop where
  ages : before.world.Ages after.world joins
  seen : ∀ client connection, after.connection? client = some connection →
    (∃ earlier, before.connection? client = some earlier ∧ connection.entity = earlier.entity ∧
      connection.interest.visible =
        earlier.interest.visible.filter fun id => (after.world.get? id).isSome) ∨
    connection.interest.visible = [] ∧ (before.world.get? connection.entity).isSome = false

theorem Recalls.sees (recalls : before.Recalls after joins) (sees : before.Sees) : after.Sees := by
  refine ⟨fun client connection found => ?_, fun client connection found => ?_⟩
  · obtain ⟨earlier, -, -, visible⟩ | ⟨empty, -⟩ := recalls.seen client connection found
    · rw [visible]
      exact fun id member => (List.mem_filter.mp member).2
    · rw [empty]
      exact fun _ none => by cases none
  · obtain ⟨earlier, held, -, visible⟩ | ⟨empty, -⟩ := recalls.seen client connection found
    · rw [visible]
      exact (sees.ascending client earlier held).filter _
    · rw [empty]
      exact .nil

theorem Sees.recalls (sees : session.Sees) : session.Recalls session 0 := by
  refine ⟨.refl _, fun client connection found => Or.inl ⟨connection, found, rfl, ?_⟩⟩
  exact (List.filter_eq_self.mpr (sees.alive client connection found)).symm

theorem Recalls.mono (recalls : before.Recalls after joins) {more : Nat} (order : joins ≤ more) :
    before.Recalls after more :=
  ⟨recalls.ages.mono order, recalls.seen⟩

/-- A connection of a session is told from where its entity and its view were before. -/
theorem exists_earlier {client : ClientId} {connection : Connection} (change : Interest → Interest)
    (entity : after.entityOf? client = before.entityOf? client)
    (interest : after.interestOf? client = (before.interestOf? client).map change)
    (found : after.connection? client = some connection) :
    ∃ earlier, before.connection? client = some earlier ∧ connection.entity = earlier.entity ∧
      connection.interest = change earlier.interest := by
  rw [entityOf?, entityOf?, found] at entity
  rw [interestOf?, interestOf?, found] at interest
  cases held : before.connection? client with
  | none =>
      rw [held] at entity
      cases entity
  | some earlier =>
      rw [held] at entity interest
      exact ⟨earlier, rfl, Option.some.inj entity, Option.some.inj interest⟩

theorem Recalls.rests (recalls : before.Recalls middle joins) (rests : middle.Rests after) :
    before.Recalls after joins := by
  refine ⟨recalls.ages.remains rests.world, fun client connection found => ?_⟩
  obtain ⟨held, isHeld, entity, interest⟩ := exists_earlier id (rests.entity client)
    ((rests.interest client).trans Option.map_id_apply.symm) found
  rw [entity, interest]
  simp only [rests.world.isSome_get?]
  exact recalls.seen client held isHeld

theorem Recalls.connect (recalls : before.Recalls session joins) (sees : before.Sees)
    (keeps : session.KeepsCensus settings) (few : joins < 4294967295) (client : ClientId)
    (endpoint : Endpoint) (now : Nat)
    (numbered : (session.connect client endpoint now).world.places ≤ 4294967296) :
    before.Recalls (session.connect client endpoint now) (joins + 1) := by
  obtain ⟨-, same⟩ | ⟨-, -, refused⟩ |
    ⟨free, room, place, random, entity, world, joined, -, came, isJoined, accepted⟩ :=
    session.connect_cases client endpoint now
  · rw [same]
    exact recalls.mono (Nat.le_succ _)
  · rw [refused]
    exact (recalls.rests (((session.rests_send _ _).trans (rests_close ..)).trans
      (rests_onMetrics ..))).mono (Nat.le_succ _)
  · rw [accepted] at numbered ⊢
    have sameWorld : joined.world = world := by rw [isJoined]
    have members := connection?_of_insert (congrArg Session.connections isJoined)
    change joined.world.places ≤ 4294967296 at numbered
    rw [sameWorld] at numbered
    have grown := World.places_spawn came
    have kept := (keeps (by omega)).kept
    have newcomer := recalls.ages.not_before few (kept.tenancy?_newcomer came numbered)
    suffices ofJoined : before.Recalls joined (joins + 1) from ofJoined.rests (rests_send ..)
    refine ⟨sameWorld ▸ recalls.ages.spawn kept came numbered, fun other connection found => ?_⟩
    rw [members] at found
    by_cases isClient : client = other
    · rw [if_pos isClient] at found
      cases found
      exact Or.inr ⟨rfl, newcomer⟩
    · rw [if_neg isClient] at found
      refine (recalls.seen other connection found).imp_left ?_
      rintro ⟨earlier, held, owner, visible⟩
      refine ⟨earlier, held, owner, visible.trans (List.filter_congr fun id member => ?_)⟩
      -- the newcomer was never seen, since it was not there
      have alive := sees.alive other earlier held id member
      rw [sameWorld, World.get?_spawn came numbered, if_neg]
      rintro rfl
      exact Bool.false_ne_true (newcomer.symm.trans alive)

theorem Recalls.disconnect (recalls : before.Recalls session joins) (visiting : Visiting)
    (client : ClientId) (fault : Option ConnectionFault) :
    before.Recalls (session.disconnect visiting client fault) joins := by
  cases gone : session.connection? client with
  | none =>
      unfold Session.disconnect
      rw [gone]
      exact recalls
  | some leaver =>
      have parts := parts_disconnect gone visiting fault
      refine ⟨?_, fun other connection found => ?_⟩
      · obtain ⟨-, same⟩ | ⟨entity, left⟩ := parts.world
        · rw [same]
          exact recalls.ages
        · exact recalls.ages.despawn left
      · have entity := parts.entity other
        have interest := parts.interest other
        by_cases isClient : client = other
        · rw [if_pos isClient, entityOf?, found] at entity
          cases entity
        · rw [if_neg isClient] at entity interest
          obtain ⟨held, isHeld, owner, view⟩ := exists_earlier _ entity interest found
          rw [owner, view]
          refine (recalls.seen other held isHeld).imp ?_ ?_
          · rintro ⟨earlier, isEarlier, same, visible⟩
            refine ⟨earlier, isEarlier, same, ?_⟩
            rw [Interest.forget, visible, List.filter_filter]
            refine List.filter_congr fun id _ => ?_
            rw [parts.get?]
            by_cases isGone : id = leaver.entity <;> simp [isGone]
          · rintro ⟨empty, newcomer⟩
            exact ⟨by rw [Interest.forget, empty]; rfl, newcomer⟩

theorem places_le_connect (session : Session) (client : ClientId) (endpoint : Endpoint) (now : Nat) :
    session.world.places ≤ (session.connect client endpoint now).world.places := by
  obtain ⟨-, same⟩ | ⟨-, -, refused⟩ |
    ⟨-, -, place, random, entity, world, joined, -, came, isJoined, accepted⟩ :=
    session.connect_cases client endpoint now
  · rw [same]
  · rw [refused]
    exact Nat.le_refl _
  · have grown := World.places_spawn came
    rw [accepted, isJoined]
    change _ ≤ world.places
    omega

/-- The census and the views, as long as places have numbers of their own and not too many come. -/
def KeepsViews (before : Session) (settings : Settings) (joins : Nat) (after : Session) : Prop :=
  after.KeepsCensus settings ∧
    (after.world.places ≤ 4294967296 → joins < 4294967295 → before.Recalls after joins)

theorem Sees.lasts_keepsViews (sees : before.Sees) (settings : Settings) :
    Lasts (before.KeepsViews settings) where
  mono keeps order := ⟨keeps.1, fun numbered few =>
    (keeps.2 numbered (Nat.lt_of_le_of_lt order few)).mono order⟩
  rests keeps rests := ⟨keeps.1.of_stays rests.toStays, fun numbered few =>
    (keeps.2 (rests.world.places ▸ numbered) few).rests rests⟩
  connect {joins session} keeps client endpoint now := by
    refine ⟨keeps.1.connect client endpoint now, fun numbered few => ?_⟩
    have fewer : joins < 4294967295 := by omega
    have places : session.world.places ≤ 4294967296 :=
      Nat.le_trans (session.places_le_connect client endpoint now) numbered
    exact (keeps.2 places fewer).connect sees keeps.1 fewer client endpoint now numbered
  disconnect {joins session} keeps visiting client fault := by
    refine ⟨keeps.1.disconnect visiting client fault, fun numbered few => ?_⟩
    rw [session.places_disconnect] at numbered
    exact (keeps.2 numbered few).disconnect visiting client fault

end Session

end Overworld
