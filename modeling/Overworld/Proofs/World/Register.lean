import Mathlib.Data.List.Induction
import Mathlib.Data.List.Perm.Subperm
import Overworld.Proofs.World.Occupancy

set_option autoImplicit false

/-!
Runs of a roster with a register beside it: the ids that were given out, those that were taken back,
and what was last written under each. As long as places and generations have numbers of their own,
no id is given out twice, and the roster finds under an id what the register has under it.
-/

namespace Overworld

namespace Roster

variable {α : Type}

/-- The entity at a place, whatever the marks say. -/
def occupant? (roster : Roster α) (place : Nat) : Option (EntityId × α) :=
  match roster.slots[place]? with
  | none => none
  | some slot => slot.occupant.map fun value => (⟨place.toUInt32, slot.generation⟩, value)

/-- The entities as one meets them who goes from place to place. -/
def occupants (roster : Roster α) : List (EntityId × α) :=
  (List.range roster.slots.size).filterMap roster.occupant?

variable {roster : Roster α}

theorem IsSound.occupants_eq_entries (sound : roster.IsSound) :
    roster.occupants = roster.entries := by
  unfold occupants entries
  rw [sound.size_live]
  refine List.filterMap_congr fun place _ => ?_
  unfold occupant? entry?
  rw [sound.marked]
  cases roster.slots[place]? with
  | none => rfl
  | some slot =>
      obtain ⟨generation, _ | value⟩ := slot <;> rfl

/-- Entities stand in the order of their places. -/
theorem ascending_ids (numbered : roster.slots.size ≤ 4294967296) :
    roster.ids.Pairwise fun a b => a.index < b.index := by
  have placed : ∀ place entry, roster.entry? place = some entry → entry.1.index.toNat = place := by
    intro place entry found
    unfold entry? at found
    split at found
    · rename_i slot _ held
      obtain ⟨inside, _⟩ := Array.getElem?_eq_some_iff.mp held
      obtain ⟨value, -, rfl⟩ := Option.map_eq_some_iff.mp found
      exact UInt32.toNat_ofNat_of_lt' (Nat.lt_of_lt_of_le inside numbered)
    · cases found
  unfold ids entries
  rw [List.pairwise_map, List.pairwise_filterMap]
  refine List.pairwise_lt_range.imp fun before first isFirst second isSecond => ?_
  rw [UInt32.lt_iff_toNat_lt, placed _ _ isFirst, placed _ _ isSecond]
  exact before

/-- Occupied and vacant places together are all places. -/
theorem IsSound.perm_places (sound : roster.IsSound) (numbered : roster.slots.size ≤ 4294967296) :
    ((roster.ids.map (·.index) ++ roster.vacant).map (·.toNat)).Perm
      (List.range roster.slots.size) := by
  have occupied : ∀ id ∈ roster.ids,
      ∃ value, roster.slots[id.index.toNat]? = some ⟨id.generation, some value⟩ := by
    intro id member
    obtain ⟨value, found⟩ := Option.isSome_iff_exists.mp ((sound.mem_ids numbered).mp member)
    exact ⟨value, get?_eq_some_iff.mp found⟩
  have once : (roster.ids.map (·.index) ++ roster.vacant).Nodup := by
    refine List.nodup_append.mpr ⟨?_, sound.once, ?_⟩
    · exact List.Pairwise.map _ (fun _ _ order => UInt32.ne_of_lt order) (ascending_ids numbered)
    · rintro _ isIndex other free rfl
      obtain ⟨id, member, rfl⟩ := List.mem_map.mp isIndex
      obtain ⟨value, held⟩ := occupied id member
      obtain ⟨_, empty⟩ := sound.free id.index free
      rw [held] at empty
      cases empty
  have inside : ∀ index ∈ roster.ids.map (·.index) ++ roster.vacant,
      index.toNat < roster.slots.size := by
    intro index member
    obtain isIndex | free := List.mem_append.mp member
    · obtain ⟨id, isId, rfl⟩ := List.mem_map.mp isIndex
      obtain ⟨value, held⟩ := occupied id isId
      exact (Array.getElem?_eq_some_iff.mp held).1
    · obtain ⟨_, empty⟩ := sound.free index free
      exact (Array.getElem?_eq_some_iff.mp empty).1
  refine (List.subperm_of_subset (once.map fun _ _ => UInt32.toNat_inj.mp) ?_).perm_of_length_le
    (Nat.le_of_eq ?_)
  · intro place member
    obtain ⟨index, isIndex, rfl⟩ := List.mem_map.mp member
    exact List.mem_range.mpr (inside index isIndex)
  · rw [List.length_map, List.length_append, List.length_map, sound.length_ids, sound.spare,
      List.length_range]

/-- The vacant places are the ones without an occupant. -/
theorem IsSound.mem_vacant (sound : roster.IsSound) (numbered : roster.slots.size ≤ 4294967296)
    (index : UInt32) :
    index ∈ roster.vacant ↔ ∃ generation, roster.slots[index.toNat]? = some ⟨generation, none⟩ := by
  refine ⟨sound.free index, fun ⟨generation, empty⟩ => ?_⟩
  have member : index.toNat ∈ (roster.ids.map (·.index) ++ roster.vacant).map (·.toNat) := by
    rw [(sound.perm_places numbered).mem_iff, List.mem_range]
    exact (Array.getElem?_eq_some_iff.mp empty).1
  obtain ⟨other, isPlace, same⟩ := List.mem_map.mp member
  rw [UInt32.toNat_inj.mp same] at isPlace
  refine (List.mem_append.mp isPlace).resolve_left fun isIndex => ?_
  obtain ⟨id, isId, rfl⟩ := List.mem_map.mp isIndex
  obtain ⟨value, found⟩ := Option.isSome_iff_exists.mp ((sound.mem_ids numbered).mp isId)
  rw [get?_eq_some_iff.mp found] at empty
  cases empty

/-- What a departure hands back is what the id finds. -/
theorem fst_remove (roster : Roster α) (id : EntityId) :
    (roster.remove id).map (·.1) = roster.get? id := by
  unfold remove
  split
  · rename_i absent
    rw [absent, Option.map_none]
  · rename_i value found
    rw [found, Option.map_some]

theorem IsSound.isEmpty_eq (sound : roster.IsSound) : roster.isEmpty = roster.ids.isEmpty := by
  have counted : roster.ids.length = roster.live.count true := sound.length_ids
  unfold isEmpty
  cases held : roster.ids with
  | nil =>
      rw [held] at counted
      have absent : true ∉ roster.live := Array.count_eq_zero.mp counted.symm
      simp [absent]
  | cons first rest =>
      rw [held] at counted
      have present : true ∈ roster.live :=
        Array.count_pos_iff.mp (counted ▸ Nat.succ_pos rest.length)
      simp [present]

/-- A change of one entity, place by place. -/
theorem getElem?_slots_modify (numbered : roster.slots.size ≤ 4294967296) (id : EntityId)
    (change : α → α) (place : Nat) :
    (roster.modify id change).slots[place]? = roster.slots[place]?.map fun slot =>
      if ⟨place.toUInt32, slot.generation⟩ = id then
        { slot with occupant := slot.occupant.map change }
      else slot := by
  cases held : roster.slots[place]? with
  | none =>
      rw [Array.getElem?_eq_none_iff] at held
      rw [Array.getElem?_eq_none (slots_size_modify roster id change ▸ held)]
      rfl
  | some slot =>
      obtain ⟨inside, _⟩ := Array.getElem?_eq_some_iff.mp held
      have number : place.toUInt32.toNat = place :=
        UInt32.toNat_ofNat_of_lt' (Nat.lt_of_lt_of_le inside numbered)
      rw [Option.map_some]
      unfold modify
      split
      · rename_i absent
        split
        · rename_i isIt
          obtain ⟨generation, occupant⟩ := slot
          have vacant : occupant = none := by
            simpa [← isIt, get?, number, held] using absent
          rw [held, vacant]
          rfl
        · exact held
      · rename_i value found
        have here := get?_eq_some_iff.mp found
        dsimp only
        rw [Array.set!_eq_setIfInBounds, Array.getElem?_setIfInBounds]
        by_cases isPlace : id.index.toNat = place
        · rw [isPlace, held] at here
          cases here
          have isIt : ⟨place.toUInt32, id.generation⟩ = id := by
            rw [← isPlace]
            exact congrArg (EntityId.mk · id.generation) UInt32.ofNat_toNat
          rw [if_pos isPlace, if_pos (isPlace ▸ inside), if_pos isIt]
          rfl
        · have other : ⟨place.toUInt32, slot.generation⟩ ≠ id := by
            rintro rfl
            exact isPlace number
          rw [if_neg isPlace, if_neg other]
          exact held

theorem live_modify (roster : Roster α) (id : EntityId) (change : α → α) :
    (roster.modify id change).live = roster.live := by
  unfold modify
  split <;> rfl

/-- Changes of several entities, one after the other, place by place. -/
theorem getElem?_slots_foldl_modify {roster : Roster α}
    (numbered : roster.slots.size ≤ 4294967296) (change : EntityId → α → α)
    {visits : List EntityId} (once : visits.Nodup) (place : Nat) :
    (visits.foldl (fun roster id => roster.modify id (change id)) roster).slots[place]? =
      roster.slots[place]?.map fun slot =>
        if ⟨place.toUInt32, slot.generation⟩ ∈ visits then
          { slot with occupant := slot.occupant.map (change ⟨place.toUInt32, slot.generation⟩) }
        else slot := by
  induction visits generalizing roster with
  | nil => simp
  | cons id rest ih =>
      obtain ⟨single, distinct⟩ := List.nodup_cons.mp once
      rw [List.foldl_cons, ih (slots_size_modify roster id (change id) ▸ numbered) distinct,
        getElem?_slots_modify numbered, Option.map_map]
      congr 1
      funext slot
      by_cases isIt : ⟨place.toUInt32, slot.generation⟩ = id
      · subst isIt
        simp [single]
      · simp [isIt]

theorem frame_foldl_modify (roster : Roster α) (change : EntityId → α → α)
    (visits : List EntityId) :
    (visits.foldl (fun roster id => roster.modify id (change id)) roster).vacant = roster.vacant ∧
      (visits.foldl (fun roster id => roster.modify id (change id)) roster).live = roster.live := by
  induction visits generalizing roster with
  | nil => exact ⟨rfl, rfl⟩
  | cons id rest ih =>
      obtain ⟨vacant, live⟩ := ih (roster.modify id (change id))
      exact ⟨vacant.trans (roster.vacant_modify ..), live.trans (roster.live_modify ..)⟩

/-- To change everyone is to change one after the other, in whichever order. -/
theorem IsSound.foldl_modify_eq_mapEntities (sound : roster.IsSound)
    (numbered : roster.slots.size ≤ 4294967296) (change : EntityId → α → α) {visits : List EntityId}
    (everyone : visits.Perm roster.ids) :
    visits.foldl (fun roster id => roster.modify id (change id)) roster =
      roster.mapEntities change := by
  have once : visits.Nodup := everyone.nodup_iff.mpr (sound.nodup_ids numbered)
  obtain ⟨vacant, live⟩ := roster.frame_foldl_modify change visits
  have slots : (visits.foldl (fun roster id => roster.modify id (change id)) roster).slots =
      (roster.mapEntities change).slots := by
    refine Array.ext_getElem? fun place => ?_
    rw [getElem?_slots_foldl_modify numbered change once]
    simp only [Roster.mapEntities, Array.getElem?_mapIdx]
    cases held : roster.slots[place]? with
    | none => rfl
    | some slot =>
        obtain ⟨inside, _⟩ := Array.getElem?_eq_some_iff.mp held
        have number : place.toUInt32.toNat = place :=
          UInt32.toNat_ofNat_of_lt' (Nat.lt_of_lt_of_le inside numbered)
        obtain ⟨generation, _ | value⟩ := slot
        · simp
        · have found : roster.get? ⟨place.toUInt32, generation⟩ = some value := by
            rw [get?_eq_some_iff, number, held]
          have member : ⟨place.toUInt32, generation⟩ ∈ visits := by
            rw [everyone.mem_iff, sound.mem_ids numbered, found]
            rfl
          simp [member]
  calc
    visits.foldl (fun roster id => roster.modify id (change id)) roster
    _ = ⟨(roster.mapEntities change).slots, roster.vacant, roster.live⟩ := by
      rw [← slots, ← vacant, ← live]
    _ = roster.mapEntities change := rfl

inductive Call (α : Type)
  | insert (value : α)
  | remove (id : EntityId)
  | modify (id : EntityId) (change : α → α)
  | mapEntities (change : EntityId → α → α)

structure Register (α : Type) where
  roster : Roster α
  /-- The ids that were given out, the last one first. -/
  given : List EntityId
  /-- The ids that were taken back, the last one first. -/
  returned : List EntityId
  /-- What was last written under each id that is out. -/
  written : EntityId → Option α

namespace Register

def start : Register α := ⟨.empty, [], [], fun _ => none⟩

def call (register : Register α) : Call α → Register α
  | .insert value =>
    { register with
      roster := (register.roster.insert value).2
      given := (register.roster.insert value).1 :: register.given
      written := fun id =>
        if id = (register.roster.insert value).1 then some value else register.written id }
  | .remove id =>
    let written := fun other => if other = id then none else register.written other
    match register.roster.remove id with
    | none => { register with written }
    | some (_, roster) => { register with roster, returned := id :: register.returned, written }
  | .modify id change =>
    { register with
      roster := register.roster.modify id change
      written := fun other =>
        if other = id then (register.written id).map change else register.written other }
  | .mapEntities change =>
    { register with
      roster := register.roster.mapEntities change
      written := fun id => (register.written id).map (change id) }

def run (calls : List (Call α)) : Register α := calls.foldl call start

/-- How often a place was vacated. -/
def vacated (register : Register α) (index : UInt32) : Nat :=
  register.returned.countP (·.index = index)

/-- Places and their generations have numbers of their own. -/
structure IsNumbered (register : Register α) : Prop where
  places : register.roster.slots.size < 4294967296
  generations : ∀ index, register.vacated index < 4294967296

structure IsTrue (register : Register α) : Prop where
  sound : register.roster.IsSound
  found : ∀ id, register.roster.get? id = register.written id
  once : register.given.Nodup
  known : ∀ id ∈ register.returned, id ∈ register.given
  out : ∀ id, (register.written id).isSome = true ↔ id ∈ register.given ∧ id ∉ register.returned
  /-- With every departure a place moves to its next generation. -/
  turned : ∀ (index : UInt32) generation occupied,
    register.roster.tenancy? index.toNat = some (generation, occupied) →
      generation = (register.vacated index).toUInt32
  /-- Where a place is vacant, all ids given out for it are of earlier generations. -/
  aged : ∀ id ∈ register.given, ∃ generation occupied,
    register.roster.tenancy? id.index.toNat = some (generation, occupied) ∧
      id.generation.toNat + (!occupied).toNat ≤ register.vacated id.index

variable {register : Register α}

theorem start_isTrue : (start : Register α).IsTrue where
  sound := isSound_empty
  found _ := rfl
  once := List.nodup_nil
  known _ member := member
  out id := by simp [start]
  turned _ _ _ held := nomatch held
  aged _ member := absurd member List.not_mem_nil

/-- An id that is given out is a new one. -/
theorem IsTrue.fresh (isTrue : register.IsTrue) (value : α)
    (numbered : (register.roster.insert value).2.slots.size < 4294967296)
    (few : ∀ index, register.vacated index < 4294967296) :
    (register.roster.insert value).1 ∉ register.given := by
  intro member
  obtain ⟨generation, occupied, held, older⟩ := isTrue.aged _ member
  obtain ⟨absent, -⟩ | vacant :=
    isTrue.sound.tenancy?_newcomer value (Nat.le_of_lt numbered)
  · rw [absent] at held
    cases held
  · rw [vacant] at held
    cases held
    have turned := isTrue.turned _ _ _ vacant
    have number : (register.vacated (register.roster.insert value).1.index).toUInt32.toNat =
        register.vacated (register.roster.insert value).1.index :=
      UInt32.toNat_ofNat_of_lt' (few _)
    rw [turned, number] at older
    exact Nat.not_succ_le_self _ older

theorem IsTrue.insert (isTrue : register.IsTrue) (value : α)
    (numbered : (register.call (.insert value)).IsNumbered) :
    (register.call (.insert value)).IsTrue := by
  have places : (register.roster.insert value).2.slots.size ≤ 4294967296 :=
    Nat.le_of_lt numbered.places
  have fresh := isTrue.fresh value numbered.places numbered.generations
  have tenancy := tenancy?_insert value places
  have newcomer := isTrue.sound.tenancy?_newcomer value places
  refine ⟨isTrue.sound.insert value, fun id => ?_, List.nodup_cons.mpr ⟨fresh, isTrue.once⟩,
    fun id member => List.mem_cons_of_mem _ (isTrue.known id member), fun id => ?_,
    fun index generation occupied held => ?_, fun id member => ?_⟩
  · rw [call, register.roster.get?_insert value places, isTrue.found]
  · by_cases isNew : id = (register.roster.insert value).1
    · have unknown : id ∉ register.returned := fun member =>
        fresh (isNew ▸ isTrue.known id member)
      simp [call, isNew, isNew ▸ unknown]
    · simp [call, isNew, isTrue.out]
  · change generation = (register.vacated index).toUInt32
    rw [call, tenancy] at held
    split at held
    · rename_i here
      cases held
      rw [UInt32.toNat_inj.mp here]
      obtain ⟨absent, isEnd, -⟩ | vacant := newcomer
      · -- no id was ever given out for a place at the end, so none came back
        have never : register.vacated (register.roster.insert value).1.index = 0 := by
          refine List.countP_eq_zero.mpr fun id back => ?_
          obtain ⟨_, _, other, -⟩ := isTrue.aged id (isTrue.known id back)
          rintro same
          rw [of_decide_eq_true same, absent] at other
          cases other
        rw [never, isEnd]
        rfl
      · exact isTrue.turned _ _ _ vacant
    · exact isTrue.turned index generation occupied held
  · change ∃ generation occupied, _ ∧ _ ≤ register.vacated id.index
    rw [call, tenancy]
    by_cases here : id.index.toNat = (register.roster.insert value).1.index.toNat
    · rw [if_pos here]
      refine ⟨_, true, rfl, ?_⟩
      obtain isNew | old := List.mem_cons.mp member
      · obtain ⟨absent, isEnd, -⟩ | vacant := newcomer
        · rw [isNew, isEnd]
          exact Nat.zero_le _
        · rw [isNew, isTrue.turned _ _ _ vacant]
          exact Nat.mod_le _ _
      · obtain ⟨_, _, -, older⟩ := isTrue.aged id old
        exact Nat.le_trans (Nat.le_add_right _ _) older
    · rw [if_neg here]
      refine isTrue.aged id ((List.mem_cons.mp member).resolve_left fun isNew => here ?_)
      rw [isNew]

theorem IsTrue.remove (isTrue : register.IsTrue) (id : EntityId) :
    (register.call (.remove id)).IsTrue := by
  unfold call
  dsimp only
  split
  · rename_i refused
    have absent : register.roster.get? id = none := by
      unfold Roster.remove at refused
      split at refused
      · assumption
      · cases refused
    have same : (fun other => if other = id then none else register.written other) =
        register.written := by
      funext other
      split
      · rename_i isIt
        rw [isIt, ← isTrue.found, absent]
      · rfl
    rw [same]
    exact isTrue
  · rename_i value after removed
    have tenancy := tenancy?_remove removed
    have wasOut : id ∈ register.given := by
      refine ((isTrue.out id).mp ?_).1
      rw [← isTrue.found, get?_eq_some_iff.mpr (remove_cases removed).1]
      rfl
    have vacated : ∀ index : UInt32, (id :: register.returned).countP (·.index = index) =
        register.vacated index + if id.index = index then 1 else 0 := by
      intro index
      rw [List.countP_cons]
      simp [Register.vacated]
    refine ⟨isTrue.sound.remove removed, fun other => ?_, isTrue.once, fun other member => ?_,
      fun other => ?_, fun index generation occupied held => ?_, fun other member => ?_⟩
    · rw [get?_remove removed, isTrue.found]
    · obtain rfl | member := List.mem_cons.mp member
      · exact wasOut
      · exact isTrue.known other member
    · by_cases isIt : other = id
      · simp [isIt]
      · simp [isIt, isTrue.out]
    · change generation = Nat.toUInt32 (List.countP _ _)
      rw [vacated]
      rw [tenancy] at held
      split at held
      · rename_i here
        cases held
        have was := isSome_get?_iff.mp
          (Option.isSome_of_eq_some (get?_eq_some_iff.mpr (remove_cases removed).1))
        rw [UInt32.toNat_inj.mp here, if_pos rfl, isTrue.turned _ _ _ was]
        exact (UInt32.ofNat_add _ 1).symm
      · rename_i elsewhere
        have apart : id.index ≠ index := fun same => elsewhere (congrArg UInt32.toNat same.symm)
        rw [if_neg apart]
        exact isTrue.turned index generation occupied held
    · change ∃ generation occupied, _ ∧ _ ≤ List.countP _ _
      rw [vacated, tenancy]
      obtain ⟨generation, occupied, held, older⟩ := isTrue.aged other member
      by_cases here : other.index.toNat = id.index.toNat
      · rw [if_pos here, if_pos (UInt32.toNat_inj.mp here).symm]
        refine ⟨_, false, rfl, Nat.succ_le_succ ?_⟩
        exact Nat.le_trans (Nat.le_add_right _ _) older
      · rw [if_neg here]
        exact ⟨generation, occupied, held, Nat.le_trans older (Nat.le_add_right _ _)⟩

/-- A change of values moves no one. -/
theorem IsTrue.of_change (isTrue : register.IsTrue) {roster : Roster α}
    {written : EntityId → Option α} (sound : roster.IsSound)
    (tenancy : ∀ place, roster.tenancy? place = register.roster.tenancy? place)
    (found : ∀ id, roster.get? id = written id)
    (out : ∀ id, (written id).isSome = (register.written id).isSome) :
    ({ register with roster, written } : Register α).IsTrue where
  sound := sound
  found := found
  once := isTrue.once
  known := isTrue.known
  out id := by
    rw [out]
    exact isTrue.out id
  turned index generation occupied held :=
    isTrue.turned index generation occupied ((tenancy _).symm.trans held)
  aged id member := by
    rw [tenancy]
    exact isTrue.aged id member

theorem IsTrue.modify (isTrue : register.IsTrue) (id : EntityId) (change : α → α) :
    (register.call (.modify id change)).IsTrue := by
  refine isTrue.of_change (isTrue.sound.modify id change)
    (register.roster.tenancy?_modify id change) (fun other => ?_) fun other => ?_
  · rw [get?_modify, isTrue.found, isTrue.found]
  · split
    · rename_i isIt
      rw [isIt, Option.isSome_map]
    · rfl

theorem IsTrue.mapEntities (isTrue : register.IsTrue) (change : EntityId → α → α) :
    (register.call (.mapEntities change)).IsTrue := by
  refine isTrue.of_change (isTrue.sound.mapEntities change)
    (register.roster.tenancy?_mapEntities change) (fun id => ?_) fun id => Option.isSome_map
  rw [get?_mapEntities, isTrue.found]

theorem IsTrue.call (isTrue : register.IsTrue) (call : Call α)
    (numbered : (register.call call).IsNumbered) : (register.call call).IsTrue := by
  cases call with
  | insert value => exact isTrue.insert value numbered
  | remove id => exact isTrue.remove id
  | modify id change => exact isTrue.modify id change
  | mapEntities change => exact isTrue.mapEntities change

/-- Places are never given up, and what was vacated stays counted. -/
theorem IsNumbered.of_call {call : Call α} (numbered : (register.call call).IsNumbered) :
    register.IsNumbered := by
  cases call with
  | insert value =>
      refine ⟨Nat.lt_of_le_of_lt ?_ numbered.places, numbered.generations⟩
      change register.roster.slots.size ≤ (register.roster.insert value).2.slots.size
      obtain same | more := register.roster.slots_size_insert value <;> omega
  | remove id =>
      unfold Register.call at numbered
      dsimp only at numbered
      split at numbered
      · exact ⟨numbered.places, numbered.generations⟩
      · rename_i value after removed
        refine ⟨slots_size_remove removed ▸ numbered.places, fun index => ?_⟩
        exact Nat.lt_of_le_of_lt (List.sublist_cons_self ..).countP_le (numbered.generations index)
  | modify id change =>
      refine ⟨?_, numbered.generations⟩
      rw [← slots_size_modify register.roster id change]
      exact numbered.places
  | mapEntities change =>
      refine ⟨?_, numbered.generations⟩
      rw [← slots_size_mapEntities register.roster change]
      exact numbered.places

theorem run_isTrue (calls : List (Call α)) (numbered : (run calls).IsNumbered) :
    (run calls).IsTrue := by
  induction calls using List.reverseRecOn with
  | nil => exact start_isTrue
  | append_singleton earlier call ih =>
      have last : run (earlier ++ [call]) = (run earlier).call call := List.foldl_append
      rw [last] at numbered ⊢
      exact (ih numbered.of_call).call call numbered

/-- Who is there are those who were let in and have not left. -/
theorem IsTrue.perm_ids (isTrue : register.IsTrue)
    (numbered : register.roster.slots.size ≤ 4294967296) :
    register.roster.ids.Perm (register.given.filter (· ∉ register.returned)) := by
  refine (List.perm_ext_iff_of_nodup (isTrue.sound.nodup_ids numbered)
    (isTrue.once.filter _)).mpr fun id => ?_
  rw [isTrue.sound.mem_ids numbered, isTrue.found, isTrue.out, List.mem_filter, decide_eq_true_iff]

theorem IsTrue.mem_entries (isTrue : register.IsTrue)
    (numbered : register.roster.slots.size ≤ 4294967296) (id : EntityId) (value : α) :
    (id, value) ∈ register.roster.entries ↔ register.written id = some value := by
  rw [isTrue.sound.mem_entries numbered, isTrue.found]

/-- Whatever was done to a roster, no id was given out twice. An id finds an entity, counts as
contained and can be removed or changed exactly if it was given out and not taken back, and it finds
what was last written under it. Marks, vacant places and slots agree; the size counts the ids that
are out, and whether one goes by the marks or from place to place, one meets each of them once, in
the order of their places. To change everyone is to change one after the other, in any order. -/
theorem run_never_aliases (calls : List (Call α)) (numbered : (run calls).IsNumbered) :
    let register := run calls
    let roster := register.roster
    register.given.Nodup ∧
    (∀ id, (register.written id).isSome = true ↔
      id ∈ register.given ∧ id ∉ register.returned) ∧
    (∀ id, roster.get? id = register.written id ∧
      roster.contains id = (register.written id).isSome ∧
      (roster.remove id).map (·.1) = register.written id ∧
      ∀ change, (roster.modify id change).get? id = (register.written id).map change) ∧
    (∀ place : Nat, roster.live[place]? = roster.slots[place]?.map (·.occupant.isSome)) ∧
    roster.vacant.Nodup ∧
    (∀ index, index ∈ roster.vacant ↔
      ∃ generation, roster.slots[index.toNat]? = some ⟨generation, none⟩) ∧
    roster.ids.Perm (register.given.filter (· ∉ register.returned)) ∧
    roster.size = roster.ids.length ∧
    roster.isEmpty = roster.ids.isEmpty ∧
    (∀ id value, (id, value) ∈ roster.entries ↔ register.written id = some value) ∧
    roster.ids.Pairwise (fun a b => a.index < b.index) ∧
    roster.occupants = roster.entries ∧
    ∀ change (visits : List EntityId), visits.Perm roster.ids →
      visits.foldl (fun roster id => roster.modify id (change id)) roster =
        roster.mapEntities change := by
  intro register roster
  have isTrue := run_isTrue calls numbered
  have places : roster.slots.size ≤ 4294967296 := Nat.le_of_lt numbered.places
  refine ⟨isTrue.once, isTrue.out, fun id => ⟨isTrue.found id, ?_, ?_, fun change => ?_⟩,
    isTrue.sound.marked, isTrue.sound.once, isTrue.sound.mem_vacant places,
    isTrue.perm_ids places, isTrue.sound.length_ids.symm, isTrue.sound.isEmpty_eq,
    isTrue.mem_entries places, ascending_ids places, isTrue.sound.occupants_eq_entries,
    fun change visits everyone => isTrue.sound.foldl_modify_eq_mapEntities places change everyone⟩
  · rw [contains, isTrue.found]
  · rw [fst_remove, isTrue.found]
  · rw [get?_modify, if_pos rfl, isTrue.found]

/-- The newcomer takes the place of the first one and is told apart from it. -/
theorem run_never_aliases_successor :
    let calls : List (Call Nat) :=
      [.insert 7, .insert 8, .remove ⟨0, 0⟩, .insert 9, .modify ⟨0, 1⟩ (· + 1), .remove ⟨0, 0⟩]
    (run calls).IsNumbered ∧ (run calls).given = [⟨0, 1⟩, ⟨1, 0⟩, ⟨0, 0⟩] ∧
      (run calls).roster.get? ⟨0, 0⟩ = none ∧ (run calls).roster.get? ⟨0, 1⟩ = some 10 := by
  intro calls
  have numbered : (run calls).IsNumbered := by
    refine ⟨by decide, fun index => ?_⟩
    exact Nat.lt_of_le_of_lt List.countP_le_length (by decide)
  obtain ⟨-, -, answers, -⟩ := run_never_aliases calls numbered
  exact ⟨numbered, by decide, (answers ⟨0, 0⟩).1, (answers ⟨0, 1⟩).1⟩

end Register

end Roster

end Overworld
