import Overworld.Capacity
import Overworld.Motion.Keys

set_option autoImplicit false

/-!
The inputs applied on recent ticks, newest first. The ticks are contiguous: a tick that does not
follow the newest one starts a fresh history. The oldest entries give way when the capacity is
reached.
-/

namespace Overworld

/-- The number of a simulation step. -/
abbrev Tick := UInt64

/-- The last tick there is. -/
def Tick.last : Tick := 18446744073709551615

/-- The following tick, where there is one. -/
def Tick.next? (tick : Tick) : Option Tick := if tick = Tick.last then none else some (tick + 1)

/-- The sum, or the last tick where the sum lies beyond it. -/
def Tick.addSaturating (tick count : Tick) : Tick :=
  if tick.toNat + count.toNat < 18446744073709551616 then tick + count else Tick.last

/-- Whether each entry is of the tick after that of the next one. -/
def areConsecutive : List (Tick × Keys) → Bool
  | newer :: older :: rest => older.1.next? == some newer.1 && areConsecutive (older :: rest)
  | _ => true

theorem areConsecutive_take (entries : List (Tick × Keys)) (count : Nat)
    (consecutive : areConsecutive entries = true) : areConsecutive (entries.take count) = true := by
  induction entries generalizing count with
  | nil => rw [List.take_nil]; rfl
  | cons newer rest ih =>
      cases count with
      | zero => rfl
      | succ count =>
          cases rest with
          | nil => rw [List.take_succ_cons, List.take_nil]; rfl
          | cons older rest =>
              simp only [areConsecutive, Bool.and_eq_true] at consecutive
              have shorter := ih count consecutive.2
              cases count with
              | zero => rfl
              | succ count =>
                  simp only [List.take_succ_cons, areConsecutive, consecutive.1,
                    Bool.true_and] at shorter ⊢
                  exact shorter

structure KeyHistory where
  entries : List (Tick × Keys)
  capacity : Capacity
  consecutive : areConsecutive entries = true
  bounded : entries.length ≤ capacity.count
deriving DecidableEq

namespace KeyHistory

/-- An empty history that holds at least one entry. -/
def empty (capacity : Nat) : KeyHistory := ⟨[], .atLeastOne capacity, rfl, Nat.zero_le _⟩

def newest? (history : KeyHistory) : Option Tick := history.entries.head?.map (·.1)

def oldest? (history : KeyHistory) : Option Tick := history.entries.getLast?.map (·.1)

/-- Whether `tick` continues the run of ticks held. -/
def continues (history : KeyHistory) (tick : Tick) : Bool :=
  match history.newest? with
  | none => true
  | some newest => newest.next? == some tick

/-- What stays when `tick` comes: all or nothing. -/
def kept (history : KeyHistory) (tick : Tick) : List (Tick × Keys) :=
  if history.continues tick then history.entries else []

theorem areConsecutive_cons_kept (history : KeyHistory) (tick : Tick) (keys : Keys) :
    areConsecutive ((tick, keys) :: history.kept tick) = true := by
  obtain ⟨entries, capacity, consecutive, bounded⟩ := history
  cases entries with
  | nil => simp [kept, areConsecutive]
  | cons newest rest =>
      unfold kept
      split
      · rename_i continued
        simpa [areConsecutive, consecutive, continues, newest?] using continued
      · rfl

def push (history : KeyHistory) (tick : Tick) (keys : Keys) : KeyHistory where
  entries := ((tick, keys) :: history.kept tick).take history.capacity.count
  capacity := history.capacity
  consecutive := areConsecutive_take _ _ (history.areConsecutive_cons_kept tick keys)
  bounded := List.length_take_le _ _

/-- The entry `ago` ticks before the newest. -/
def get? (history : KeyHistory) (ago : Nat) : Option (Tick × Keys) := history.entries[ago]?

def keysAt? (history : KeyHistory) (tick : Tick) : Option Keys :=
  match history.newest? with
  | none => none
  | some newest =>
    if tick ≤ newest then (history.get? (newest.toNat - tick.toNat)).map (·.2) else none

/-- The entries newer than `tick`, oldest first. -/
def after (history : KeyHistory) (tick : Tick) : List (Tick × Keys) :=
  history.entries.reverse.filter fun entry => tick < entry.1

def clear (history : KeyHistory) : KeyHistory :=
  ⟨[], history.capacity, rfl, Nat.zero_le _⟩

@[simp] theorem newest?_push (history : KeyHistory) (tick : Tick) (keys : Keys) :
    (history.push tick keys).newest? = some tick := by
  obtain ⟨room, full⟩ := Nat.exists_eq_succ_of_ne_zero (Nat.ne_of_gt history.capacity.pos)
  simp [push, newest?, full]

end KeyHistory

end Overworld
