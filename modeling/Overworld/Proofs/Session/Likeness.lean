import Overworld.Proofs.Session.Passes

set_option autoImplicit false

/-!
Connections that nothing could tell apart but the layout of the table of what was sent last. Whatever
befalls them leaves them so, and what their clients are told at the end of a tick is the same.
-/

namespace Overworld

namespace Observed

variable {first second : Observed}

theorem equiv_forget (same : first.Equiv second) (entities : List EntityId) :
    (first.forget entities).Equiv (second.forget entities) := by
  unfold forget
  induction entities generalizing first second with
  | nil => exact same
  | cons entity rest ih => exact ih (same.erase entity)

theorem equiv_record (same : first.Equiv second) (snapshots : List Snapshot) :
    (first.record snapshots).Equiv (second.record snapshots) := by
  unfold record
  induction snapshots generalizing first second with
  | nil => exact same
  | cons snapshot rest ih => exact ih (same.insert snapshot.entity snapshot)

end Observed

/-- Worlds whose entities are the same and find the same around them, whatever the order in which
their places fell vacant. -/
structure World.Like (first second : World) : Prop where
  gait : first.gait = second.gait
  dt : first.dt = second.dt
  tick : first.tick = second.tick
  entities : ∀ id, first.get? id = second.get? id

namespace World

variable {first second : World}

theorem Like.snapshot? (like : first.Like second) : first.snapshot? = second.snapshot? := by
  funext id
  unfold World.snapshot?
  rw [like.entities, like.tick]

theorem Like.update? (like : first.Like second) {one two : Observed} (same : one.Equiv two) :
    one.update? first = two.update? second := by
  funext id
  unfold Observed.update?
  rw [like.entities, like.tick, same.getElem?_eq]

/-- What the index finds in an area depends on the entities alone. -/
theorem Like.query (like : first.Like second) (kept : first.IsKept) (current : first.IsCurrent)
    (alsoKept : second.IsKept) (alsoCurrent : second.IsCurrent) (area : Area) :
    first.grid.query (.rect area.rect) = second.grid.query (.rect area.rect) := by
  have ascending := first.grid.query_ascending (.rect area.rect)
  have alsoAscending := second.grid.query_ascending (.rect area.rect)
  have perm : (first.grid.query (.rect area.rect)).Perm (second.grid.query (.rect area.rect)) :=
    (List.perm_ext_iff_of_nodup (ascending.imp And.right) (alsoAscending.imp And.right)).mpr
      fun id => by rw [kept.mem_query current, alsoKept.mem_query alsoCurrent, like.entities]
  exact perm.eq_of_pairwise
    (fun _ _ _ _ before behind => EntityId.precedes_antisymm before.1 behind.1)
    ascending alsoAscending

end World

namespace Connection

/-- Alike in everything, and in the table of what was sent last to its entries. -/
def Like (first second : Connection) : Prop :=
  ∃ observed : Observed, second = { first with observed } ∧ first.observed.Equiv observed

variable {first second third : Connection}

theorem Like.refl (connection : Connection) : connection.Like connection :=
  ⟨connection.observed, rfl, .refl _⟩

theorem Like.trans (like : first.Like second) (alike : second.Like third) : first.Like third := by
  obtain ⟨table, rfl, same⟩ := like
  obtain ⟨other, rfl, alsoSame⟩ := alike
  exact ⟨other, rfl, same.trans alsoSame⟩

theorem Like.recordSents (like : first.Like second) (messages : List ServerMessage) :
    (messages.foldl (fun connection _ => connection.recordSent) first).Like
      (messages.foldl (fun connection _ => connection.recordSent) second) := by
  induction messages generalizing first second with
  | nil => exact like
  | cons message rest ih =>
      refine ih ?_
      obtain ⟨table, rfl, same⟩ := like
      exact ⟨table, rfl, same⟩

theorem Like.lose (like : first.Like second) (gone : EntityId) :
    (first.lose gone).Like (second.lose gone) := by
  obtain ⟨table, rfl, same⟩ := like
  unfold Connection.lose
  dsimp only
  split
  · exact ⟨table.erase gone, rfl, same.erase gone⟩
  · exact ⟨table, rfl, same⟩

/-- Two entities may leave in either order. -/
theorem like_lose_lose (connection : Connection) (one two : EntityId) :
    ((connection.lose one).lose two).Like ((connection.lose two).lose one) := by
  by_cases same : one = two
  · subst same
    exact Like.refl _
  have apart : (two != one) = true ∧ (one != two) = true :=
    ⟨bne_iff_ne.mpr fun equal => same equal.symm, bne_iff_ne.mpr same⟩
  have views : ((connection.interest.forget one).forget two) =
      (connection.interest.forget two).forget one := by
    unfold Interest.forget
    simp only [List.filter_filter, Bool.and_comm]
  have tables : ((connection.observed.erase one).erase two).Equiv
      ((connection.observed.erase two).erase one) := by
    refine Std.HashMap.Equiv.of_forall_getElem?_eq fun id => ?_
    simp only [Std.HashMap.getElem?_erase]
    split <;> split <;> rfl
  cases seenOne : connection.interest.isVisible one <;>
    cases seenTwo : connection.interest.isVisible two <;>
    simp only [Connection.lose, seenOne, seenTwo, Interest.isVisible_forget, apart, Bool.and_self,
      Bool.false_and, Bool.false_eq_true, if_true, if_false]
  · exact Like.refl _
  · exact Like.refl _
  · exact Like.refl _
  · rw [views]
    exact ⟨_, rfl, tables⟩

/-- A connection after entities have gone, one after the other. -/
def loseAll (connection : Connection) (departed : List EntityId) : Connection :=
  departed.foldl (fun connection gone => connection.lose gone) connection

theorem Like.loseAll (like : first.Like second) (departed : List EntityId) :
    (first.loseAll departed).Like (second.loseAll departed) := by
  induction departed generalizing first second with
  | nil => exact like
  | cons gone rest ih => exact ih (like.lose gone)

/-- It makes no difference in which order entities leave. -/
theorem Like.loseAll_of_perm (like : first.Like second) {departed others : List EntityId}
    (perm : departed.Perm others) : (first.loseAll departed).Like (second.loseAll others) := by
  induction perm generalizing first second with
  | nil => exact like
  | cons gone _ ih => exact ih (like.lose gone)
  | swap one two rest =>
      have swapped := (like_lose_lose first two one).trans ((like.lose one).lose two)
      exact swapped.loseAll rest
  | trans _ _ toMiddle fromMiddle => exact (toMiddle like).trans (fromMiddle (Like.refl second))

theorem Like.replicate (like : first.Like second) {one two : World} (looks : one.Like two)
    (areas : ∀ area : Area, one.grid.query (.rect area.rect) = two.grid.query (.rect area.rect))
    (map : TileMap) :
    (first.replicate one map).messages = (second.replicate two map).messages ∧
      (first.replicate one map).connection.Like (second.replicate two map).connection := by
  obtain ⟨table, rfl, same⟩ := like
  unfold Connection.replicate
  dsimp only
  rw [looks.entities first.entity]
  cases two.get? first.entity with
  | none => exact ⟨rfl, table, rfl, same⟩
  | some owner =>
      have looked : first.interest.update first.entity owner.motion.position one.grid =
          first.interest.update first.entity owner.motion.position two.grid := by
        unfold Interest.update
        dsimp only
        rw [areas]
      dsimp only
      rw [looked, looks.snapshot?, looks.tick]
      generalize first.interest.update first.entity owner.motion.position two.grid = seen
      obtain ⟨delta, interest⟩ := seen
      dsimp only
      have arrived := Observed.equiv_record (Observed.equiv_forget same delta.left)
        (delta.entered.filterMap two.snapshot?)
      rw [looks.update? arrived]
      exact ⟨rfl, _, rfl, Observed.equiv_record arrived _⟩

theorem Like.informed (like : first.Like second) {one two : World} (looks : one.Like two)
    (areas : ∀ area : Area, one.grid.query (.rect area.rect) = two.grid.query (.rect area.rect))
    (map : TileMap) :
    (Session.informed one map first).Like (Session.informed two map second) := by
  obtain ⟨messages, told⟩ := like.replicate looks areas map
  unfold Session.informed
  rw [messages]
  exact told.recordSents _

end Connection

end Overworld
