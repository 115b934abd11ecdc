import Mathlib.Data.List.Induction

set_option autoImplicit false

/-!
Lists from which repetitions were taken out. Of a sorted list every item is left once, even where
only adjacent ones are compared.
-/

namespace Overworld

variable {α : Type} [DecidableEq α]

/-- The walk holds what it has kept in reverse, and puts it before what it goes on to keep. -/
theorem eraseReps_loop (current : α) (rest kept : List α) :
    List.eraseRepsBy.loop (· == ·) current rest kept =
      kept.reverse ++ List.eraseRepsBy.loop (· == ·) current rest [] := by
  induction rest generalizing current kept with
  | nil => simp [List.eraseRepsBy.loop]
  | cons next rest ih =>
      rw [List.eraseRepsBy.loop, List.eraseRepsBy.loop]
      cases current == next with
      | true => exact ih current kept
      | false => rw [ih next (current :: kept), ih next [current]]; simp

theorem eraseReps_cons_cons (first second : α) (rest : List α) :
    (first :: second :: rest).eraseReps =
      if first = second then (second :: rest).eraseReps
      else first :: (second :: rest).eraseReps := by
  change List.eraseRepsBy.loop (· == ·) first (second :: rest) [] = _
  rw [List.eraseRepsBy.loop]
  by_cases same : first = second
  · subst same
    rw [beq_self_eq_true, if_pos rfl]
    rfl
  · rw [beq_eq_false_iff_ne.mpr same, if_neg same]
    exact eraseReps_loop second rest [first]

theorem mem_eraseReps {item : α} (items : List α) : item ∈ items.eraseReps ↔ item ∈ items := by
  cases items with
  | nil => exact Iff.rfl
  | cons first rest =>
      induction rest generalizing first with
      | nil => exact Iff.rfl
      | cons second rest ih =>
          rw [eraseReps_cons_cons]
          by_cases same : first = second
          · rw [if_pos same, ih, same]
            simp
          · rw [if_neg same, List.mem_cons, ih, ← List.mem_cons]

/-- In a sorted list equal items stand next to each other, so every item is kept once. -/
theorem pairwise_eraseReps {before : α → α → Prop}
    (antisymm : ∀ a b, before a b → before b a → a = b) {items : List α}
    (sorted : items.Pairwise before) :
    items.eraseReps.Pairwise fun a b => before a b ∧ a ≠ b := by
  cases items with
  | nil => exact List.Pairwise.nil
  | cons first rest =>
      induction rest generalizing first with
      | nil => exact List.pairwise_singleton _ _
      | cons second rest ih =>
          obtain ⟨least, sorted⟩ := List.pairwise_cons.mp sorted
          rw [eraseReps_cons_cons]
          by_cases same : first = second
          · rw [if_pos same]
            exact ih second sorted
          · rw [if_neg same]
            refine List.pairwise_cons.mpr ⟨?_, ih second sorted⟩
            intro item member
            rw [mem_eraseReps] at member
            refine ⟨least item member, ?_⟩
            rintro rfl
            -- An item that came back after the second one would lie on both sides of it.
            rcases List.mem_cons.mp member with isSecond | later
            · exact same isSecond
            · exact same (antisymm _ _ (least second List.mem_cons_self)
                ((List.pairwise_cons.mp sorted).1 _ later))

theorem eraseDups_filter (keep : α → Bool) (items : List α) :
    (items.filter keep).eraseDups = items.eraseDups.filter keep := by
  induction items using List.reverseRecOn with
  | nil => rfl
  | append_singleton earlier item ih =>
      rw [List.filter_append, List.eraseDups_append, ih, List.eraseDups_append, List.filter_append]
      congr 1
      by_cases old : item ∈ earlier <;> cases kept : keep item <;>
        simp [List.removeAll, List.eraseDups_cons, old, kept]

theorem nodup_eraseDups (items : List α) : items.eraseDups.Nodup := by
  induction items using List.reverseRecOn with
  | nil => exact List.nodup_nil
  | append_singleton earlier item ih =>
      rw [List.eraseDups_append]
      by_cases old : item ∈ earlier
      · simpa [List.removeAll, old] using ih
      · have apart : ∀ other ∈ earlier, other ≠ item := fun other member same => old (same ▸ member)
        simpa [List.removeAll, List.eraseDups_cons, List.nodup_append, old] using ⟨ih, apart⟩

/-- There are no more different items than there are to choose from. -/
theorem length_eraseDups_le_of_subset {items kinds : List α} (among : items ⊆ kinds) :
    items.eraseDups.length ≤ kinds.length :=
  (nodup_eraseDups items).length_le_of_subset fun _ member => among (List.mem_eraseDups.mp member)

theorem length_eraseDups_le (items : List α) : items.eraseDups.length ≤ items.length :=
  length_eraseDups_le_of_subset (List.Subset.refl items)

theorem eraseDups_of_nodup {items : List α} (once : items.Nodup) : items.eraseDups = items := by
  induction items with
  | nil => rfl
  | cons item rest ih =>
      obtain ⟨single, distinct⟩ := List.nodup_cons.mp once
      have others : rest.filter (fun other => !other == item) = rest := by
        refine List.filter_eq_self.mpr fun other member => ?_
        simpa using fun same : other = item => single (same ▸ member)
      rw [List.eraseDups_cons, others, ih distinct]

end Overworld
