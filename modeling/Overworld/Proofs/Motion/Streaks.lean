import Mathlib.Data.List.Chain
import Mathlib.Data.List.Induction
import Overworld.Proofs.Motion.History

set_option autoImplicit false

/-!
Histories beside the log of what was pushed into them. A history is the end of the log, as far back as
the ticks go up one by one and as there is room. It answers for a tick and for a distance from its
newest tick as a search of its entries would.
-/

namespace Overworld

/-- Ticks that go up one by one. -/
def IsSteady (entries : List (Tick × Keys)) : Prop :=
  entries.IsChain fun older newer => older.1.toNat + 1 = newer.1.toNat

/-- The longest end of a log in which the ticks go up one by one. -/
structure IsStreak (streak log : List (Tick × Keys)) : Prop where
  isSuffix : streak <:+ log
  isSteady : IsSteady streak
  longest : ∀ other, other <:+ log → IsSteady other → other.length ≤ streak.length

variable {streak log : List (Tick × Keys)} {entry : Tick × Keys}

theorem isSteady_append_singleton :
    IsSteady (streak ++ [entry]) ↔
      IsSteady streak ∧ ∀ last ∈ streak.getLast?, last.1.toNat + 1 = entry.1.toNat := by
  simp [IsSteady, List.isChain_append]

theorem getLast?_of_isSuffix (isSuffix : streak <:+ log) (some : streak ≠ []) :
    streak.getLast? = log.getLast? := by
  obtain ⟨front, rfl⟩ := isSuffix
  rw [List.getLast?_append, List.getLast?_eq_some_getLast some, Option.some_or]

namespace IsStreak

theorem nil : IsStreak [] [] where
  isSuffix := List.nil_suffix
  isSteady := .nil
  longest other isSuffix _ := by rw [List.suffix_nil.mp isSuffix]

/-- A log that is not empty ends with a streak of one tick at least. -/
theorem getLast?_eq (isStreak : IsStreak streak log) : streak.getLast? = log.getLast? := by
  by_cases blank : streak = []
  · rcases List.eq_nil_or_concat log with rfl | ⟨front, last, rfl⟩
    · rw [blank]
    · rw [List.concat_eq_append] at isStreak
      have one := isStreak.longest [last] (List.suffix_append front [last]) (.singleton last)
      rw [blank, List.length_singleton, List.length_nil] at one
      omega
  · exact getLast?_of_isSuffix isStreak.isSuffix blank

/-- An entry that follows the last one makes the streak longer. -/
theorem append (isStreak : IsStreak streak log)
    (follows : ∀ last ∈ log.getLast?, last.1.toNat + 1 = entry.1.toNat) :
    IsStreak (streak ++ [entry]) (log ++ [entry]) where
  isSuffix := by
    obtain ⟨front, rfl⟩ := isStreak.isSuffix
    exact ⟨front, (List.append_assoc ..).symm⟩
  isSteady := by
    rw [isSteady_append_singleton, isStreak.getLast?_eq]
    exact ⟨isStreak.isSteady, follows⟩
  longest other isSuffix steady := by
    rcases List.suffix_concat_iff.mp isSuffix with rfl | ⟨front, rfl, before⟩
    · exact Nat.zero_le _
    · have shorter := isStreak.longest front before (isSteady_append_singleton.mp steady).1
      simpa using shorter

/-- An entry that does not follow the last one begins a new streak. -/
theorem restart (log : List (Tick × Keys))
    (gap : ¬ ∀ last ∈ log.getLast?, last.1.toNat + 1 = entry.1.toNat) :
    IsStreak [entry] (log ++ [entry]) where
  isSuffix := List.suffix_append log [entry]
  isSteady := .singleton entry
  longest other isSuffix steady := by
    rcases List.suffix_concat_iff.mp isSuffix with rfl | ⟨front, rfl, before⟩
    · exact Nat.zero_le _
    · have nothing : front = [] := by
        refine Decidable.byContradiction fun some => gap ?_
        rw [← getLast?_of_isSuffix before some]
        exact (isSteady_append_singleton.mp steady).2
      rw [nothing]
      exact Nat.le_refl _

end IsStreak

namespace KeyHistory

variable {history : KeyHistory}

inductive Call
  | push (tick : Tick) (keys : Keys)
  | clear
deriving DecidableEq

def call (history : KeyHistory) : Call → KeyHistory
  | .push tick keys => history.push tick keys
  | .clear => history.clear

def run (capacity : Nat) (calls : List Call) : KeyHistory := calls.foldl call (.empty capacity)

def note (log : List (Tick × Keys)) : Call → List (Tick × Keys)
  | .push tick keys => log ++ [(tick, keys)]
  | .clear => []

/-- What was pushed since the history was last cleared, oldest first. -/
def pushed (calls : List Call) : List (Tick × Keys) := calls.foldl note []

/-- The history is the newest part of the last streak, newest first. -/
def EndsLog (history : KeyHistory) (log : List (Tick × Keys)) : Prop :=
  ∃ streak, IsStreak streak log ∧ history.entries = streak.reverse.take history.capacity.count

theorem endsLog_empty (capacity : Nat) : (empty capacity).EndsLog [] :=
  ⟨[], .nil, List.take_nil.symm⟩

theorem EndsLog.newest?_eq (ends : history.EndsLog log) :
    history.newest? = log.getLast?.map (·.1) := by
  obtain ⟨streak, isStreak, entries⟩ := ends
  have room := Nat.ne_of_gt history.capacity.pos
  rw [newest?, entries, List.head?_take, if_neg room, List.head?_reverse, isStreak.getLast?_eq]

theorem EndsLog.continues_iff (ends : history.EndsLog log) (tick : Tick) :
    history.continues tick = true ↔ ∀ last ∈ log.getLast?, last.1.toNat + 1 = tick.toNat := by
  have newest := ends.newest?_eq
  cases last : log.getLast? with
  | none =>
      rw [last] at newest
      unfold continues
      rw [newest]
      simp
  | some entry =>
      rw [last] at newest
      simpa using KeyHistory.continues_iff newest tick

/-- Either the streak goes on, or it begins anew; what was cut off before would be cut off again. -/
theorem EndsLog.push (ends : history.EndsLog log) (tick : Tick) (keys : Keys) :
    (history.push tick keys).EndsLog (log ++ [(tick, keys)]) := by
  obtain ⟨room, isRoom⟩ := Nat.exists_eq_succ_of_ne_zero (Nat.ne_of_gt history.capacity.pos)
  have continues := ends.continues_iff tick
  obtain ⟨streak, isStreak, entries⟩ := ends
  by_cases follows : ∀ last ∈ log.getLast?, last.1.toNat + 1 = tick.toNat
  · refine ⟨streak ++ [(tick, keys)], isStreak.append follows, ?_⟩
    have kept : history.kept tick = history.entries := if_pos (continues.mpr follows)
    change ((tick, keys) :: history.kept tick).take history.capacity.count =
      (streak ++ [(tick, keys)]).reverse.take history.capacity.count
    rw [kept, entries, isRoom, List.reverse_append, List.reverse_singleton, List.singleton_append,
      List.take_succ_cons, List.take_succ_cons, List.take_take, Nat.min_eq_left (Nat.le_succ room)]
  · refine ⟨[(tick, keys)], .restart log follows, ?_⟩
    have kept : history.kept tick = [] := if_neg fun goesOn => follows (continues.mp goesOn)
    change ((tick, keys) :: history.kept tick).take history.capacity.count =
      [(tick, keys)].reverse.take history.capacity.count
    rw [kept, List.reverse_singleton]

theorem EndsLog.call (ends : history.EndsLog log) (call : Call) :
    (history.call call).EndsLog (note log call) := by
  cases call with
  | push tick keys => exact ends.push tick keys
  | clear => exact ⟨[], .nil, List.take_nil.symm⟩

theorem capacity_call (history : KeyHistory) (call : Call) :
    (history.call call).capacity = history.capacity := by
  cases call <;> rfl

/-- Whatever calls there were, the history is the end of its log, and has the room it had. -/
theorem run_endsLog (capacity : Nat) (calls : List Call) :
    (run capacity calls).EndsLog (pushed calls) ∧
      (run capacity calls).capacity = .atLeastOne capacity := by
  induction calls using List.reverseRecOn with
  | nil => exact ⟨endsLog_empty capacity, rfl⟩
  | append_singleton calls call ih =>
      obtain ⟨ends, room⟩ := ih
      unfold run pushed
      rw [List.foldl_append, List.foldl_append]
      exact ⟨ends.call call, (capacity_call _ call).trans room⟩

/-- Whatever is pushed and cleared, a history is the longest end of its log with ticks that go up one
by one, cut to the newest entries that there is room for; the newest tick is the one pushed last. The
keys of a tick, the entry at a distance from the newest one and the entries after a tick are those
among the entries, each once and in order. -/
theorem run_holds_streak (capacity : Nat) (calls : List Call) :
    let history := run capacity calls
    (∃ streak, IsStreak streak (pushed calls) ∧
      history.entries = streak.reverse.take (max capacity 1)) ∧
    history.newest? = (pushed calls).getLast?.map (·.1) ∧
    (∀ tick keys, history.keysAt? tick = some keys ↔ (tick, keys) ∈ history.entries) ∧
    (∀ ago entry, history.get? ago = some entry ↔
      entry ∈ history.entries ∧
        ∃ newest, history.newest? = some newest ∧ entry.1.toNat + ago = newest.toNat) ∧
    ∀ tick,
      (history.after tick).Pairwise (fun earlier later => earlier.1 < later.1) ∧
      ∀ entry, entry ∈ history.after tick ↔ entry ∈ history.entries ∧ tick < entry.1 := by
  intro history
  obtain ⟨ends, room⟩ := run_endsLog capacity calls
  refine ⟨?_, ends.newest?_eq, fun tick keys => keysAt?_eq_some_iff, fun ago entry =>
    get?_eq_some_iff, fun tick => ⟨history.ascending_after tick, fun entry => mem_after⟩⟩
  obtain ⟨streak, isStreak, entries⟩ := ends
  rw [room] at entries
  exact ⟨streak, isStreak, entries⟩

/-- There is no tick after the last one. -/
example : (run 0 [.push 5 .neutral, .push .last .neutral, .push 0 .neutral]).entries =
    [(0, .neutral)] := rfl

end KeyHistory

end Overworld
