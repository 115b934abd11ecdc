import Overworld.Proofs.Sequencer.Window
import Overworld.Server.Settings

set_option autoImplicit false

/-!
A diary of the keys of one client: when it joined, which of its inputs were accepted and dropped, and
what its entity held in the movement of each tick. It tells which inputs wait for their tick, and the
inputs that a sequencer holds are the ones that wait.
-/

namespace Overworld

inductive DiaryEntry
  /-- The client joins, with an entity that is new. -/
  | joined
  /-- An input for `tick` is accepted; `completed` is the last tick that was completed. -/
  | accepted (completed tick : Tick) (keys : Keys)
  | dropped
  /-- The movement of a tick, and what the client's entity holds in it. -/
  | moved (number : Tick) (keys : Option Keys)
deriving DecidableEq

namespace DiaryEntry

/-- What the entity holds behind an entry; a newcomer holds nothing, and a dropped input releases all
keys. -/
def keysAfter (keys : Option Keys) : DiaryEntry → Option Keys
  | .joined => some .neutral
  | .accepted .. => keys
  | .dropped => some .neutral
  | .moved _ held => held

/-- What the entity holds at the end of a diary. -/
def held (diary : List DiaryEntry) : Option Keys := diary.foldl keysAfter none

/-- An input was accepted for `tick`, and since then the client has stayed, and has seen the movement
of earlier ticks only. -/
def Waits (diary : List DiaryEntry) (completed tick : Tick) (keys : Keys) : Prop :=
  ∃ earlier later, diary = earlier ++ .accepted completed tick keys :: later ∧
    .joined ∉ later ∧ ∀ number held, .moved number held ∈ later → number < tick

variable {diary : List DiaryEntry} {completed tick number : Tick} {keys : Keys}

theorem held_append (diary : List DiaryEntry) (entry : DiaryEntry) :
    held (diary ++ [entry]) = entry.keysAfter (held diary) :=
  List.foldl_append

/-- What one more entry does to the inputs that wait. -/
theorem waits_append {entry : DiaryEntry} :
    Waits (diary ++ [entry]) completed tick keys ↔
      entry = .accepted completed tick keys ∨
        Waits diary completed tick keys ∧ entry ≠ .joined ∧
          ∀ number held, entry = .moved number held → number < tick := by
  constructor
  · rintro ⟨earlier, later, split, stayed, before⟩
    rcases List.eq_nil_or_concat later with rfl | ⟨between, last, rfl⟩
    · exact Or.inl (List.singleton_inj.mp (List.append_inj' split rfl).2)
    · rw [List.concat_eq_append, ← List.cons_append, ← List.append_assoc] at split
      obtain ⟨front, back⟩ := List.append_inj' split rfl
      cases back
      rw [List.concat_eq_append, List.mem_append, not_or] at stayed
      refine Or.inr ⟨⟨earlier, between, front, stayed.1, fun number held member => ?_⟩, ?_, ?_⟩
      · exact before number held (by simp [member])
      · rintro rfl
        exact stayed.2 List.mem_cons_self
      · rintro number held rfl
        exact before number held (by simp)
  · rintro (rfl | ⟨⟨earlier, later, rfl, stayed, before⟩, stays, after⟩)
    · exact ⟨diary, [], rfl, List.not_mem_nil, fun _ _ member => absurd member List.not_mem_nil⟩
    · refine ⟨earlier, later ++ [entry], by simp, ?_, fun number held member => ?_⟩
      · simp [stayed, stays.symm]
      · rcases List.mem_append.mp member with member | isLast
        · exact before number held member
        · exact after number held (List.mem_singleton.mp isLast).symm

theorem not_waits_joined : ¬ Waits (diary ++ [.joined]) completed tick keys := by
  rw [waits_append]
  rintro (same | ⟨-, stays, -⟩)
  · cases same
  · exact stays rfl

theorem waits_accepted {before due : Tick} {input : Keys} :
    Waits (diary ++ [.accepted before due input]) completed tick keys ↔
      (before = completed ∧ due = tick ∧ input = keys) ∨ Waits diary completed tick keys := by
  simp [waits_append]

theorem waits_dropped :
    Waits (diary ++ [.dropped]) completed tick keys ↔ Waits diary completed tick keys := by
  simp [waits_append]

theorem waits_moved {kept : Option Keys} :
    Waits (diary ++ [.moved number kept]) completed tick keys ↔
      Waits diary completed tick keys ∧ number < tick := by
  simp [waits_append]

/-- What an entry has to say behind a diary. An input is accepted for the tick completed last or for
one to come, and for the former only where the settings ask for no lead. In the movement of a tick the
entity holds the input that waits for it. Inputs that were accepted ahead of their tick are not passed
by, and one that was accepted for the tick completed last takes effect in the next, where no input is
due. While all that waits is for later, the entity holds what it held. -/
def Obeys (settings : Settings) (diary : List DiaryEntry) : DiaryEntry → Prop
  | .joined | .dropped => True
  | .accepted completed tick _ =>
    completed ≤ tick ∧ (0 < settings.inputMinLead → completed < tick)
  | .moved number kept =>
    (∀ completed keys, Waits diary completed number keys → kept = some keys) ∧
    (∀ completed tick keys, Waits diary completed tick keys → completed < tick → number ≤ tick) ∧
    (∀ completed tick keys, Waits diary completed tick keys → tick < number →
      completed = tick ∧ number = tick + 1 ∧
        ((∀ completed keys, ¬ Waits diary completed number keys) → kept = some keys)) ∧
    ((∀ completed tick keys, Waits diary completed tick keys → number < tick) → kept = held diary)

/-- Every entry says what it has to behind those before it. -/
def IsHonest (settings : Settings) (diary : List DiaryEntry) : Prop :=
  ∀ earlier entry later, diary = earlier ++ entry :: later → entry.Obeys settings earlier

theorem isHonest_nil (settings : Settings) : IsHonest settings [] := by
  intro earlier entry later split
  simp at split

theorem IsHonest.append {settings : Settings} {entry : DiaryEntry} (honest : IsHonest settings diary)
    (obeys : entry.Obeys settings diary) : IsHonest settings (diary ++ [entry]) := by
  intro earlier other later split
  rcases List.eq_nil_or_concat later with rfl | ⟨between, last, rfl⟩
  · obtain ⟨rfl, same⟩ := List.append_inj' split rfl
    exact List.singleton_inj.mp same ▸ obeys
  · rw [List.concat_eq_append, ← List.cons_append, ← List.append_assoc] at split
    exact honest earlier other between (List.append_inj' split rfl).1

end DiaryEntry

/-- What an entity holds after it was handed one input after the other. -/
def lastKeys (keys : Keys) (ready : List (Tick × Keys)) : Keys :=
  ready.foldl (fun _ entry => entry.2) keys

theorem lastKeys_of_greatest {ready : List (Tick × Keys)} {entry : Tick × Keys}
    (ascending : ready.Pairwise fun earlier later => earlier.1 < later.1) (member : entry ∈ ready)
    (greatest : ∀ other ∈ ready, other.1 ≤ entry.1) (keys : Keys) :
    lastKeys keys ready = entry.2 := by
  induction ready generalizing keys with
  | nil => cases member
  | cons first rest ih =>
      obtain ⟨least, sorted⟩ := List.pairwise_cons.mp ascending
      rcases List.mem_cons.mp member with rfl | inRest
      · have last : rest = [] := by
          refine List.eq_nil_iff_forall_not_mem.mpr fun other inRest => ?_
          exact UInt64.not_le.mpr (least other inRest) (greatest other (List.mem_cons_of_mem _ inRest))
        rw [last]
        rfl
      · exact ih sorted inRest (fun other inRest => greatest other (List.mem_cons_of_mem _ inRest)) _

/-- Where the inputs of a client stand. -/
structure Desk where
  rules : SequencerRules
  /-- The inputs held, ticks ascending. -/
  pending : List (Tick × Keys)
  /-- What the client's entity holds. -/
  keys : Option Keys

namespace Desk

open DiaryEntry (Waits held)

/-- The inputs that the diary knows to wait are held, and are for ticks to come. An input that was
accepted for the tick completed last is the one exception. -/
structure Accounts (desk : Desk) (rules : SequencerRules) (now : Tick) (diary : List DiaryEntry) :
    Prop where
  rules_eq : desk.rules = rules
  ascending : desk.pending.Pairwise fun earlier later => earlier.1 < later.1
  pending : ∀ tick keys, (tick, keys) ∈ desk.pending ↔ ∃ completed, Waits diary completed tick keys
  soon : ∀ completed tick keys, Waits diary completed tick keys →
    now < tick ∨ completed = tick ∧ now = tick
  keys : desk.keys = held diary
  alive : desk.keys.isSome = true

variable {desk : Desk} {rules : SequencerRules} {now : Tick} {diary : List DiaryEntry}

theorem accounts_joined (rules : SequencerRules) (now : Tick) (diary : List DiaryEntry) :
    Accounts ⟨rules, [], some .neutral⟩ rules now (diary ++ [.joined]) where
  rules_eq := rfl
  ascending := .nil
  pending _ _ :=
    ⟨fun none => absurd none List.not_mem_nil, fun ⟨_, waits⟩ =>
      absurd waits DiaryEntry.not_waits_joined⟩
  soon _ _ _ waits := absurd waits DiaryEntry.not_waits_joined
  keys := (DiaryEntry.held_append diary .joined).symm
  alive := rfl

theorem Accounts.accepted (accounts : desk.Accounts rules now diary) {tick : Tick} {keys : Keys}
    (fresh : ∀ entry ∈ desk.pending, entry.1 ≠ tick) (order : now ≤ tick) :
    Accounts { desk with pending := Sequencer.insertPending (tick, keys) desk.pending } rules now
      (diary ++ [.accepted now tick keys]) where
  rules_eq := accounts.rules_eq
  ascending := Sequencer.insertPending_ascending accounts.ascending fresh
  pending due input := by
    rw [Sequencer.mem_insertPending, accounts.pending due input]
    simp only [DiaryEntry.waits_accepted, Prod.mk.injEq, exists_or]
    constructor
    · rintro (⟨rfl, rfl⟩ | waits)
      · exact Or.inl ⟨now, rfl, rfl, rfl⟩
      · exact Or.inr waits
    · rintro (⟨_, -, rfl, rfl⟩ | waits)
      · exact Or.inl ⟨rfl, rfl⟩
      · exact Or.inr waits
  soon completed due input waits := by
    rcases DiaryEntry.waits_accepted.mp waits with ⟨rfl, rfl, -⟩ | earlier
    · rcases UInt64.lt_or_eq_of_le order with before | same
      · exact Or.inl before
      · exact Or.inr ⟨same, same⟩
    · exact accounts.soon completed due input earlier
  keys := accounts.keys.trans (DiaryEntry.held_append diary (.accepted now tick keys)).symm
  alive := accounts.alive

theorem Accounts.dropped (accounts : desk.Accounts rules now diary) :
    Accounts { desk with keys := desk.keys.map fun _ => .neutral } rules now
      (diary ++ [.dropped]) where
  rules_eq := accounts.rules_eq
  ascending := accounts.ascending
  pending tick keys := by
    simp only [DiaryEntry.waits_dropped]
    exact accounts.pending tick keys
  soon completed tick keys waits :=
    accounts.soon completed tick keys (DiaryEntry.waits_dropped.mp waits)
  keys := by
    obtain ⟨keys, some⟩ := Option.isSome_iff_exists.mp accounts.alive
    rw [DiaryEntry.held_append, some]
    rfl
  alive := by
    rw [Option.isSome_map]
    exact accounts.alive

theorem succ_le_of_lt {before after : Tick} (order : before < after) : before + 1 ≤ after := by
  have one : (1 : UInt64).toNat = 1 := rfl
  have room := after.toNat_lt
  rw [UInt64.lt_iff_toNat_lt] at order
  rw [UInt64.le_iff_toNat_le, UInt64.toNat_add, one]
  omega

/-- The desk after the inputs up to a tick were handed over. -/
def release (number : Tick) (desk : Desk) : Desk where
  rules := desk.rules
  pending := desk.pending.filter fun entry => number < entry.1
  keys := desk.keys.map fun keys =>
    lastKeys keys (desk.pending.filter fun entry => entry.1 ≤ number)

theorem Accounts.release (accounts : desk.Accounts rules now diary) (number : Tick) :
    (desk.release number).Accounts rules number
      (diary ++ [.moved number (desk.release number).keys]) where
  rules_eq := accounts.rules_eq
  ascending := accounts.ascending.filter _
  pending tick keys := by
    simp only [Desk.release, List.mem_filter, accounts.pending, DiaryEntry.waits_moved,
      decide_eq_true_eq, exists_and_right]
  soon completed tick keys waits := Or.inl (DiaryEntry.waits_moved.mp waits).2
  keys := (DiaryEntry.held_append diary (.moved number _)).symm
  alive := Option.isSome_map.trans accounts.alive

/-- The input that is due when the next tick begins is what the entity holds in it. -/
theorem Accounts.keys_release (accounts : desk.Accounts rules now diary) {completed number : Tick}
    {keys : Keys} (waits : Waits diary completed number keys) :
    (desk.release number).keys = some keys := by
  obtain ⟨before, some⟩ := Option.isSome_iff_exists.mp accounts.alive
  have member := (accounts.pending number keys).mpr ⟨completed, waits⟩
  have greatest := lastKeys_of_greatest (accounts.ascending.filter fun entry => entry.1 ≤ number)
    (List.mem_filter.mpr ⟨member, by simp⟩) (by simp) before
  rw [Desk.release, some, Option.map_some, greatest]

theorem Accounts.keys_release_of_later (accounts : desk.Accounts rules now diary) {number : Tick}
    (later : ∀ completed tick keys, Waits diary completed tick keys → number < tick) :
    (desk.release number).keys = held diary := by
  have none : desk.pending.filter (fun entry => entry.1 ≤ number) = [] := by
    refine List.filter_eq_nil_iff.mpr fun entry member => ?_
    obtain ⟨completed, waits⟩ := (accounts.pending entry.1 entry.2).mp member
    simpa using later completed entry.1 entry.2 waits
  rw [← accounts.keys, Desk.release, none]
  exact Option.map_id'

/-- An input that was accepted ahead of its tick is not passed by. -/
theorem Accounts.succ_le (accounts : desk.Accounts rules now diary) {completed tick : Tick}
    {keys : Keys} (waits : Waits diary completed tick keys) (ahead : completed < tick) :
    now + 1 ≤ tick := by
  rcases accounts.soon completed tick keys waits with before | ⟨rfl, -⟩
  · exact succ_le_of_lt before
  · exact absurd ahead (UInt64.lt_irrefl _)

/-- An input that was accepted for the tick completed last is handed over in the next, and is what
the entity holds in it where no input is due. -/
theorem Accounts.overdue (accounts : desk.Accounts rules now diary) {completed tick : Tick}
    {keys : Keys} (waits : Waits diary completed tick keys) (late : tick < now + 1) :
    completed = tick ∧ now = tick ∧
      ((∀ completed keys, ¬ Waits diary completed (now + 1) keys) →
        (desk.release (now + 1)).keys = some keys) := by
  have last : completed = tick ∧ now = tick := by
    refine (accounts.soon completed tick keys waits).resolve_left fun before => ?_
    exact UInt64.not_le.mpr late (succ_le_of_lt before)
  refine ⟨last.1, last.2, fun none => ?_⟩
  obtain ⟨before, some⟩ := Option.isSome_iff_exists.mp accounts.alive
  have member := (accounts.pending tick keys).mpr ⟨completed, waits⟩
  have greatest := lastKeys_of_greatest (accounts.ascending.filter fun entry => entry.1 ≤ now + 1)
    (List.mem_filter.mpr ⟨member, by simpa using UInt64.le_of_lt late⟩) ?_ before
  · rw [Desk.release, some, Option.map_some, greatest]
  · intro other isReady
    obtain ⟨isHeld, due⟩ := List.mem_filter.mp isReady
    obtain ⟨earlier, otherWaits⟩ := (accounts.pending other.1 other.2).mp isHeld
    rcases accounts.soon earlier other.1 other.2 otherWaits with ahead | ⟨-, same⟩
    · have isNext : other.1 = now + 1 :=
        UInt64.le_antisymm (of_decide_eq_true due) (succ_le_of_lt ahead)
      exact absurd (isNext ▸ otherWaits) (none earlier other.2)
    · exact UInt64.le_of_eq (same.symm.trans last.2)

/-- What the entity holds in the next tick is what the diary asks for. -/
theorem Accounts.obeys (accounts : desk.Accounts rules now diary) (settings : Settings) :
    (DiaryEntry.moved (now + 1) (desk.release (now + 1)).keys).Obeys settings diary := by
  refine ⟨fun completed keys => accounts.keys_release, fun completed tick keys => accounts.succ_le,
    fun completed tick keys waits late => ?_, accounts.keys_release_of_later⟩
  obtain ⟨same, last, holds⟩ := accounts.overdue waits late
  exact ⟨same, by rw [last], holds⟩

end Desk

end Overworld
