import Overworld.Server.Outbound

set_option autoImplicit false

/-!
The visits of a client, as they show in what it is sent. A visit begins with a welcome and is over
when the line is closed, after a kick where the client is told a reason. A client that is turned away
is kicked and closed without a welcome. No visit begins before the one before it is over.
-/

namespace Overworld

/-- The tick that a welcome or a message on an entity is of. -/
def ServerMessage.stamp? : ServerMessage → Option Tick
  | .connectionResponse tick _ _ => some tick
  | .entityUpdate snapshot => some snapshot.tick
  | .entityEntered snapshot => some snapshot.tick
  | .entityLeft tick _ => some tick
  | .chunkData _ => none
  | .tickAdjustment _ => none
  | .kicked _ => none

/-- What is sent between a welcome and the end of the visit. -/
def ServerMessage.isNews : ServerMessage → Bool
  | .connectionResponse .. => false
  | .kicked _ => false
  | _ => true

/-- News for a client that is in while the world is at `tick`. -/
def ServerMessage.IsNewsOf (tick : Tick) (message : ServerMessage) : Prop :=
  message.isNews = true ∧ ∀ stamp, message.stamp? = some stamp → stamp = tick

def Dispatch.stamp? : Dispatch → Option Tick
  | .message content => content.stamp?
  | .close => none

def stamps (dispatches : List Dispatch) : List Tick := dispatches.filterMap (·.stamp?)

/-- A visit that is not over: a welcome, and news from then on. -/
def IsStay (dispatches : List Dispatch) : Prop :=
  ∃ (tick : Tick) (entity : EntityId) (spawn : Vec3) (news : List ServerMessage),
    (∀ message ∈ news, message.isNews = true) ∧
      dispatches = .message (.connectionResponse tick entity spawn) :: news.map .message

/-- A visit that is over, or an attempt that was turned away. -/
inductive IsVisit : List Dispatch → Prop
  | left {stay : List Dispatch} (isStay : IsStay stay) : IsVisit (stay ++ [.close])
  | kicked {stay : List Dispatch} (isStay : IsStay stay) (reason : String) :
      IsVisit (stay ++ [.message (.kicked reason), .close])
  | refused (reason : String) : IsVisit [.message (.kicked reason), .close]

/-- What a client was sent since its last visit was over, by whether it is in. -/
def IsOpen : Bool → List Dispatch → Prop
  | true, stay => IsStay stay
  | false, stay => stay = []

/-- Ticks do not go back within `dispatches`, and none is after `tick`. -/
structure IsTimely (tick : Tick) (dispatches : List Dispatch) : Prop where
  ordered : (stamps dispatches).Pairwise (· ≤ ·)
  past : ∀ stamp ∈ stamps dispatches, stamp ≤ tick

/-- What a client was sent is one visit after the other, and the open one where it is in. Where ticks
are `countable`, they do not go back within a visit, and the open one is not ahead of `tick`. -/
def InVisits (isIn : Bool) (countable : Prop) (tick : Tick) (dispatches : List Dispatch) : Prop :=
  ∃ (visits : List (List Dispatch)) (stay : List Dispatch),
    dispatches = visits.flatten ++ stay ∧ (∀ visit ∈ visits, IsVisit visit) ∧ IsOpen isIn stay ∧
    (countable → (∀ visit ∈ visits, (stamps visit).Pairwise (· ≤ ·)) ∧ IsTimely tick stay)

@[simp] theorem stamps_append (before after : List Dispatch) :
    stamps (before ++ after) = stamps before ++ stamps after :=
  List.filterMap_append

theorem mem_stamps_messages {messages : List ServerMessage} {stamp : Tick} :
    stamp ∈ stamps (messages.map .message) ↔
      ∃ message ∈ messages, message.stamp? = some stamp := by
  simp [stamps, Dispatch.stamp?]

theorem IsTimely.empty (tick : Tick) : IsTimely tick [] :=
  ⟨List.Pairwise.nil, fun _ member => absurd member List.not_mem_nil⟩

theorem IsTimely.later {tick later : Tick} {dispatches : List Dispatch}
    (timely : IsTimely tick dispatches) (order : tick ≤ later) : IsTimely later dispatches :=
  { timely with past := fun stamp member => UInt64.le_trans (timely.past stamp member) order }

/-- What is of the present tick can be added. -/
theorem IsTimely.append {tick : Tick} {dispatches more : List Dispatch}
    (timely : IsTimely tick dispatches) (present : ∀ stamp ∈ stamps more, stamp = tick) :
    IsTimely tick (dispatches ++ more) := by
  have alike : (stamps more).Pairwise (· ≤ ·) := by
    rw [List.eq_replicate_of_mem present, List.pairwise_replicate]
    exact Or.inr (UInt64.le_refl tick)
  constructor
  · rw [stamps_append, List.pairwise_append]
    refine ⟨timely.ordered, alike, fun first early last late => ?_⟩
    rw [present last late]
    exact timely.past first early
  · intro stamp member
    rw [stamps_append, List.mem_append] at member
    rcases member with early | late
    · exact timely.past stamp early
    · exact UInt64.le_of_eq (present stamp late)

theorem IsStay.append {stay : List Dispatch} (isStay : IsStay stay) {messages : List ServerMessage}
    (areNews : ∀ message ∈ messages, message.isNews = true) :
    IsStay (stay ++ messages.map .message) := by
  obtain ⟨tick, entity, spawn, news, wereNews, rfl⟩ := isStay
  refine ⟨tick, entity, spawn, news ++ messages, ?_, by simp⟩
  intro message member
  rcases List.mem_append.mp member with old | new
  · exact wereNews message old
  · exact areNews message new

namespace InVisits

variable {isIn : Bool} {countable : Prop} {tick : Tick} {dispatches : List Dispatch}

theorem empty (countable : Prop) (tick : Tick) : InVisits false countable tick [] :=
  ⟨[], [], rfl, fun _ member => absurd member List.not_mem_nil, rfl,
    fun _ => ⟨fun _ member => absurd member List.not_mem_nil, .empty tick⟩⟩

theorem later (visits : InVisits isIn countable tick dispatches) {later : Tick} {fewer : Prop}
    (order : fewer → countable ∧ tick ≤ later) : InVisits isIn fewer later dispatches := by
  obtain ⟨earlier, stay, split, areVisits, isOpen, timely⟩ := visits
  refine ⟨earlier, stay, split, areVisits, isOpen, fun few => ?_⟩
  obtain ⟨each, last⟩ := timely (order few).1
  exact ⟨each, last.later (order few).2⟩

theorem news (visits : InVisits true countable tick dispatches) {messages : List ServerMessage}
    (areNews : ∀ message ∈ messages, message.IsNewsOf tick) :
    InVisits true countable tick (dispatches ++ messages.map .message) := by
  obtain ⟨earlier, stay, rfl, areVisits, isStay, timely⟩ := visits
  refine ⟨earlier, stay ++ messages.map Dispatch.message, List.append_assoc .., areVisits,
    IsStay.append isStay fun message member => (areNews message member).1, fun counts => ?_⟩
  obtain ⟨each, last⟩ := timely counts
  refine ⟨each, last.append fun stamp member => ?_⟩
  obtain ⟨message, among, stamped⟩ := mem_stamps_messages.mp member
  exact (areNews message among).2 stamp stamped

theorem welcome (visits : InVisits false countable tick dispatches) (entity : EntityId)
    (spawn : Vec3) : InVisits true countable tick
      (dispatches ++ [.message (.connectionResponse tick entity spawn)]) := by
  obtain ⟨earlier, stay, rfl, areVisits, isOpen, timely⟩ := visits
  have none : stay = [] := isOpen
  subst none
  refine ⟨earlier, [.message (.connectionResponse tick entity spawn)], by simp, areVisits,
    ⟨tick, entity, spawn, [], by simp, rfl⟩, fun counts => ?_⟩
  have present : ∀ stamp ∈ stamps [.message (.connectionResponse tick entity spawn)],
      stamp = tick := by
    simp [stamps, Dispatch.stamp?, ServerMessage.stamp?]
  obtain ⟨each, last⟩ := timely counts
  exact ⟨each, last.append present⟩

/-- An ending that makes a visit of whatever is open. -/
theorem finish (visits : InVisits isIn countable tick dispatches) {ending : List Dispatch}
    (ends : ∀ stay, IsOpen isIn stay → IsVisit (stay ++ ending)) (silent : stamps ending = []) :
    InVisits false countable tick (dispatches ++ ending) := by
  obtain ⟨earlier, stay, rfl, areVisits, isOpen, timely⟩ := visits
  refine ⟨earlier ++ [stay ++ ending], [], by simp, ?_, rfl, fun counts => ?_⟩
  · intro visit member
    rcases List.mem_append.mp member with old | new
    · exact areVisits visit old
    · rw [List.mem_singleton.mp new]
      exact ends stay isOpen
  · obtain ⟨each, last⟩ := timely counts
    refine ⟨?_, .empty tick⟩
    intro visit member
    rcases List.mem_append.mp member with old | new
    · exact each visit old
    · rw [List.mem_singleton.mp new, stamps_append, silent, List.append_nil]
      exact last.ordered

theorem leave (visits : InVisits true countable tick dispatches) :
    InVisits false countable tick (dispatches ++ [.close]) :=
  visits.finish (fun _ isStay => .left isStay) rfl

theorem kick (visits : InVisits true countable tick dispatches) (reason : String) :
    InVisits false countable tick (dispatches ++ [.message (.kicked reason), .close]) :=
  visits.finish (fun _ isStay => .kicked isStay reason) rfl

theorem refuse (visits : InVisits false countable tick dispatches) (reason : String) :
    InVisits false countable tick (dispatches ++ [.message (.kicked reason), .close]) := by
  refine visits.finish (fun stay isOpen => ?_) rfl
  have none : stay = [] := isOpen
  rw [none]
  exact .refused reason

end InVisits

end Overworld
