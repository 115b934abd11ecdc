import Mathlib.Data.List.Chain
import Overworld.Client.Replicas
import Overworld.Server.Outbound
import Overworld.Server.Replication

set_option autoImplicit false

/-!
The messages that one client is sent, in order, and what they tell about the entities in its view.
`Conveys` ties a feed to the snapshots that the server believes the client to have; each message the
server sends keeps the two together.
-/

namespace Overworld

/-- What a client was sent from its last welcome on. -/
def sinceWelcome (dispatches : List Dispatch) : List ServerMessage :=
  dispatches.foldl (fun feed dispatch =>
    match dispatch with
    | .message (.connectionResponse tick entity spawn) => [.connectionResponse tick entity spawn]
    | .message message => feed ++ [message]
    | .close => feed) []

/-- The replicas of a client after a message; word on its own entity is not kept there. -/
def Replicas.follow (own : EntityId) (replicas : Replicas) : ServerMessage → Replicas
  | .entityUpdate snapshot =>
    if snapshot.entity = own then replicas else (replicas.update? snapshot).getD replicas
  | .entityEntered snapshot => if snapshot.entity = own then replicas else replicas.enter snapshot
  | .entityLeft _ entity => replicas.leave entity
  | _ => replicas

namespace ServerMessage

def isWelcome : ServerMessage → Bool
  | .connectionResponse .. => true
  | _ => false

/-- Not about an entity in view. -/
def isAside : ServerMessage → Bool
  | .chunkData _ | .tickAdjustment _ | .kicked _ => true
  | _ => false

/-- Whether the message brings `id` into view or takes it away. -/
def viewChange? (id : EntityId) : ServerMessage → Option Bool
  | .entityEntered snapshot => if snapshot.entity = id then some true else none
  | .entityLeft _ entity => if entity = id then some false else none
  | _ => none

end ServerMessage

/-- The comings (`true`) and goings (`false`) of `id` in a feed. -/
def viewChanges (id : EntityId) (feed : List ServerMessage) : List Bool :=
  feed.filterMap (·.viewChange? id)

/-- Whether `id` came into view and has not gone since. -/
def inView (id : EntityId) (feed : List ServerMessage) : Bool :=
  (viewChanges id feed).getLast?.getD false

/-- The feed of a client with the entity `own` leaves it with the replicas `observed`, and every
message on another entity is in its place. -/
structure Conveys (own : EntityId) (feed : List ServerMessage) (observed : Observed) : Prop where
  welcomed : ∃ tick spawn rest, feed = .connectionResponse tick own spawn :: rest
  mirrored : ∀ id, (feed.foldl (Replicas.follow own) .empty).get? id = observed[id]?
  present : ∀ id, inView id feed = (observed[id]?).isSome
  alternating : ∀ id, (false :: viewChanges id feed).IsChain (· ≠ ·)
  updated : ∀ before snapshot after, feed = before ++ .entityUpdate snapshot :: after →
    snapshot.entity ≠ own → inView snapshot.entity before = true

theorem sinceWelcome_message {dispatches : List Dispatch} {message : ServerMessage}
    (ordinary : message.isWelcome = false) :
    sinceWelcome (dispatches ++ [.message message]) = sinceWelcome dispatches ++ [message] := by
  unfold sinceWelcome
  rw [List.foldl_append]
  cases message with
  | connectionResponse => cases ordinary
  | _ => rfl

theorem sinceWelcome_close (dispatches : List Dispatch) :
    sinceWelcome (dispatches ++ [.close]) = sinceWelcome dispatches := by
  unfold sinceWelcome
  rw [List.foldl_append]
  rfl

theorem sinceWelcome_welcome (dispatches : List Dispatch) (tick : Tick) (entity : EntityId)
    (spawn : Vec3) :
    sinceWelcome (dispatches ++ [.message (.connectionResponse tick entity spawn)]) =
      [.connectionResponse tick entity spawn] := by
  unfold sinceWelcome
  rw [List.foldl_append]
  rfl

theorem viewChanges_append (id : EntityId) (feed : List ServerMessage) (message : ServerMessage) :
    viewChanges id (feed ++ [message]) =
      viewChanges id feed ++ (message.viewChange? id).toList := by
  unfold viewChanges
  rw [List.filterMap_append]
  cases change : message.viewChange? id <;> simp [change]

theorem inView_append (id : EntityId) (feed : List ServerMessage) (message : ServerMessage) :
    inView id (feed ++ [message]) = (message.viewChange? id).getD (inView id feed) := by
  unfold inView
  rw [viewChanges_append]
  cases message.viewChange? id <;> simp

theorem isChain_viewChanges_append {id : EntityId} {feed : List ServerMessage}
    (alternating : (false :: viewChanges id feed).IsChain (· ≠ ·)) {message : ServerMessage}
    (turn : ∀ change, message.viewChange? id = some change → change ≠ inView id feed) :
    (false :: viewChanges id (feed ++ [message])).IsChain (· ≠ ·) := by
  rw [viewChanges_append]
  cases changes : message.viewChange? id with
  | none => simpa using alternating
  | some change =>
      refine List.isChain_append.mpr ⟨alternating, List.isChain_singleton change, ?_⟩
      intro last isLast first isFirst
      rw [List.head?_cons, Option.mem_some_iff] at isFirst
      rw [List.getLast?_cons, Option.mem_some_iff] at isLast
      rw [← isLast, ← isFirst]
      exact (turn change changes).symm

namespace Conveys

variable {own : EntityId} {feed : List ServerMessage} {observed : Observed}

theorem welcome (tick : Tick) (own : EntityId) (spawn : Vec3) :
    Conveys own [.connectionResponse tick own spawn] ∅ where
  welcomed := ⟨tick, spawn, [], rfl⟩
  mirrored id := by simp [Replicas.follow, Replicas.get?, Replicas.empty]
  present id := by simp [inView, viewChanges, ServerMessage.viewChange?]
  alternating id := List.isChain_singleton false
  updated before snapshot after split := by
    rcases List.cons_eq_append_iff.mp split with ⟨rfl, impossible⟩ | ⟨_, rfl, impossible⟩
    · simp at impossible
    · simp at impossible

/-- What is to be shown of a message so that it keeps feed and snapshots together. -/
theorem append (conveys : Conveys own feed observed) {message : ServerMessage} {after : Observed}
    (mirrored : ∀ id, ((feed.foldl (Replicas.follow own) .empty).follow own message).get? id =
      after[id]?)
    (present : ∀ id, (message.viewChange? id).getD (observed[id]?).isSome = (after[id]?).isSome)
    (turn : ∀ id change, message.viewChange? id = some change → change ≠ (observed[id]?).isSome)
    (updated : ∀ snapshot, message = .entityUpdate snapshot → snapshot.entity ≠ own →
      (observed[snapshot.entity]?).isSome = true) :
    Conveys own (feed ++ [message]) after where
  welcomed := by
    obtain ⟨tick, spawn, rest, shape⟩ := conveys.welcomed
    exact ⟨tick, spawn, rest ++ [message], by rw [shape]; rfl⟩
  mirrored := by
    rw [List.foldl_append]
    exact mirrored
  present id := by rw [inView_append, conveys.present, present]
  alternating id := isChain_viewChanges_append (conveys.alternating id) (by
    rw [conveys.present]
    exact turn id)
  updated before snapshot later split foreign := by
    rcases List.eq_nil_or_concat later with rfl | ⟨front, last, rfl⟩
    · obtain ⟨rfl, same⟩ := List.append_inj' split rfl
      rw [conveys.present]
      exact updated snapshot (List.cons.inj same).1 foreign
    · rw [List.concat_eq_append, ← List.cons_append, ← List.append_assoc] at split
      obtain ⟨same, -⟩ := List.append_inj' split rfl
      exact conveys.updated before snapshot front same foreign

theorem aside (conveys : Conveys own feed observed) {message : ServerMessage}
    (isAside : message.isAside = true) : Conveys own (feed ++ [message]) observed := by
  cases message with
  | chunkData | tickAdjustment | kicked =>
      exact conveys.append conveys.mirrored (fun _ => rfl) (fun _ _ none => by cases none)
        (fun _ impossible => by cases impossible)
  | _ => cases isAside

theorem entered (conveys : Conveys own feed observed) {snapshot : Snapshot}
    (foreign : snapshot.entity ≠ own) (unseen : observed[snapshot.entity]? = none) :
    Conveys own (feed ++ [.entityEntered snapshot])
      (observed.insert snapshot.entity snapshot) := by
  refine conveys.append ?_ ?_ ?_ (fun _ impossible => by cases impossible)
  · intro id
    have before := conveys.mirrored id
    unfold Replicas.get? at before ⊢
    simp only [Replicas.follow, if_neg foreign, Replicas.enter, Std.HashMap.getElem?_insert, before]
  · intro id
    rw [Std.HashMap.getElem?_insert]
    by_cases same : snapshot.entity = id <;> simp [ServerMessage.viewChange?, same]
  · intro id change changes
    simp only [ServerMessage.viewChange?, Option.ite_none_right_eq_some, Option.some.injEq] at changes
    obtain ⟨rfl, rfl⟩ := changes
    simp [unseen]

theorem left (conveys : Conveys own feed observed) (tick : Tick) {entity : EntityId}
    (seen : (observed[entity]?).isSome = true) :
    Conveys own (feed ++ [.entityLeft tick entity]) (observed.erase entity) := by
  refine conveys.append ?_ ?_ ?_ (fun _ impossible => by cases impossible)
  · intro id
    have before := conveys.mirrored id
    unfold Replicas.get? at before ⊢
    simp only [Replicas.follow, Replicas.leave, Std.HashMap.getElem?_erase, before]
  · intro id
    rw [Std.HashMap.getElem?_erase]
    by_cases same : entity = id <;> simp [ServerMessage.viewChange?, same]
  · intro id change changes
    simp only [ServerMessage.viewChange?, Option.ite_none_right_eq_some, Option.some.injEq] at changes
    obtain ⟨rfl, rfl⟩ := changes
    simp [seen]

theorem updateOwn (conveys : Conveys own feed observed) (snapshot : Snapshot)
    (mine : snapshot.entity = own) : Conveys own (feed ++ [.entityUpdate snapshot]) observed := by
  refine conveys.append ?_ (fun _ => rfl) (fun _ _ none => by cases none) ?_
  · intro id
    simp only [Replicas.follow, if_pos mine]
    exact conveys.mirrored id
  · intro other same foreign
    cases same
    exact absurd mine foreign

theorem update (conveys : Conveys own feed observed) {snapshot previous : Snapshot}
    (foreign : snapshot.entity ≠ own) (seen : observed[snapshot.entity]? = some previous)
    (later : previous.tick ≤ snapshot.tick) :
    Conveys own (feed ++ [.entityUpdate snapshot]) (observed.insert snapshot.entity snapshot) := by
  refine conveys.append ?_ ?_ (fun _ _ none => by cases none) ?_
  · intro id
    have before := conveys.mirrored id
    have held := (conveys.mirrored snapshot.entity).trans seen
    simp only [Replicas.follow, if_neg foreign, Replicas.update?, held, if_pos later,
      Option.getD_some]
    unfold Replicas.get? at before ⊢
    rw [Replicas.enter, Std.HashMap.getElem?_insert, Std.HashMap.getElem?_insert, before]
  · intro id
    rw [Std.HashMap.getElem?_insert]
    by_cases same : snapshot.entity = id
    · subst same
      simp [ServerMessage.viewChange?, seen]
    · simp [ServerMessage.viewChange?, same]
  · intro other same _
    cases same
    rw [seen]
    rfl

end Conveys

end Overworld
