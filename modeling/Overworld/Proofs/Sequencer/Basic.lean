import Overworld.Server.Sequencer

set_option autoImplicit false

/-!
What each operation of a sequencer does to the held inputs and to the last tick released. Clock
samples touch neither, so statements about the order of inputs go through these lemmas alone.
-/

namespace Overworld

namespace Sequencer

theorem sample_pending (sequencer : Sequencer) (server : Tick) (lead : Int64) :
    (sequencer.sample server lead).pending = sequencer.pending := by
  unfold sample
  split
  · rfl
  · dsimp only
    split
    · rfl
    · split <;> rfl

theorem sample_lastReleased (sequencer : Sequencer) (server : Tick) (lead : Int64) :
    (sequencer.sample server lead).lastReleased = sequencer.lastReleased := by
  unfold sample
  split
  · rfl
  · dsimp only
    split
    · rfl
    · split <;> rfl

theorem sample_isTaken (sequencer : Sequencer) (server : Tick) (lead : Int64) (tick : Tick) :
    (sequencer.sample server lead).isTaken tick = sequencer.isTaken tick := by
  simp only [isTaken, sample_pending, sample_lastReleased]

theorem observe_pending {sequencer next : Sequencer} {server client : Tick}
    (success : sequencer.observe server client = .ok next) :
    next.pending = sequencer.pending := by
  unfold observe at success
  split at success
  · cases success
  · cases success
    exact sample_pending _ _ _

theorem observe_lastReleased {sequencer next : Sequencer} {server client : Tick}
    (success : sequencer.observe server client = .ok next) :
    next.lastReleased = sequencer.lastReleased := by
  unfold observe at success
  split at success
  · cases success
  · cases success
    exact sample_lastReleased _ _ _

theorem insertPending_perm (entry : Tick × Keys) (held : List (Tick × Keys)) :
    (insertPending entry held).Perm (entry :: held) := by
  induction held with
  | nil => exact List.Perm.refl _
  | cons first rest ih =>
      unfold insertPending
      split
      · exact List.Perm.refl _
      · exact (List.Perm.cons first ih).trans (List.Perm.swap entry first rest)

theorem mem_insertPending {entry other : Tick × Keys} {held : List (Tick × Keys)} :
    other ∈ insertPending entry held ↔ other = entry ∨ other ∈ held := by
  rw [(insertPending_perm entry held).mem_iff, List.mem_cons]

/-- An entry of a tick that is not held keeps the ticks ascending. -/
theorem insertPending_ascending {entry : Tick × Keys} {held : List (Tick × Keys)}
    (ascending : held.Pairwise fun earlier later => earlier.1 < later.1)
    (fresh : ∀ other ∈ held, other.1 ≠ entry.1) :
    (insertPending entry held).Pairwise fun earlier later => earlier.1 < later.1 := by
  induction held with
  | nil => exact List.pairwise_singleton _ _
  | cons first rest ih =>
      obtain ⟨least, sorted⟩ := List.pairwise_cons.mp ascending
      unfold insertPending
      split
      · rename_i before
        refine List.pairwise_cons.mpr ⟨?_, ascending⟩
        intro other member
        rcases List.mem_cons.mp member with rfl | member
        · exact before
        · exact UInt64.lt_trans before (least other member)
      · rename_i after
        refine List.pairwise_cons.mpr
          ⟨?_, ih sorted fun other member => fresh other (List.mem_cons_of_mem _ member)⟩
        intro other member
        rcases mem_insertPending.mp member with rfl | member
        · exact UInt64.lt_of_le_of_ne (UInt64.not_lt.mp after) (fresh first List.mem_cons_self)
        · exact least other member

theorem isTaken_eq_false {sequencer : Sequencer} {tick : Tick} :
    sequencer.isTaken tick = false ↔
      (∀ entry ∈ sequencer.pending, entry.1 ≠ tick) ∧
        ∀ released ∈ sequencer.lastReleased, released < tick := by
  unfold isTaken
  cases sequencer.lastReleased <;> simp

/-- An input is accepted for a tick that is not taken, and is then held; a dropped one leaves
nothing behind. The last tick released stands either way. -/
theorem receive_cases {sequencer next : Sequencer} {server tick : Tick} {keys : Keys}
    {admission : Admission} (success : sequencer.receive server tick keys = .ok (admission, next)) :
    next.lastReleased = sequencer.lastReleased ∧
      ((admission = .accepted ∧ sequencer.isTaken tick = false ∧
          next.pending = insertPending (tick, keys) sequencer.pending) ∨
        (∃ reason, admission = .dropped reason) ∧ next.pending = sequencer.pending) := by
  unfold receive at success
  split at success
  · cases success
  · rename_i lead _
    dsimp only at success
    split at success
    · rename_i accepted
      cases success
      refine ⟨sample_lastReleased _ _ _, Or.inl ⟨accepted, ?_, ?_⟩⟩
      · unfold admission at accepted
        split at accepted
        · cases accepted
        · split at accepted
          · cases accepted
          · split at accepted
            · cases accepted
            · rename_i free
              rw [sample_isTaken] at free
              simpa using free
      · exact congrArg (insertPending (tick, keys)) (sample_pending _ _ _)
    · rename_i reason dropped
      cases success
      exact ⟨sample_lastReleased _ _ _, Or.inr ⟨⟨reason, dropped⟩, sample_pending _ _ _⟩⟩

theorem release_fst (sequencer : Sequencer) (tick : Tick) :
    (sequencer.release tick).1 = sequencer.pending.filter fun entry => entry.1 ≤ tick := rfl

theorem release_pending (sequencer : Sequencer) (tick : Tick) :
    (sequencer.release tick).2.pending = sequencer.pending.filter fun entry => tick < entry.1 := rfl

theorem release_lastReleased (sequencer : Sequencer) (tick : Tick) :
    (sequencer.release tick).2.lastReleased =
      match (sequencer.release tick).1.getLast? with
      | none => sequencer.lastReleased
      | some entry => some entry.1 := rfl

theorem ticks_nodup_of_ascending {held : List (Tick × Keys)}
    (ascending : held.Pairwise fun earlier later => earlier.1 < later.1) :
    (held.map (·.1)).Nodup := by
  refine List.pairwise_map.mpr (ascending.imp ?_)
  intro earlier later before same
  exact UInt64.lt_irrefl _ (same ▸ before)

/-- What is due stands before what is held on, so a release only cuts the ascending list. -/
theorem filter_append_filter_of_ascending {held : List (Tick × Keys)} (tick : Tick)
    (ascending : held.Pairwise fun earlier later => earlier.1 < later.1) :
    (held.filter fun entry => entry.1 ≤ tick) ++ (held.filter fun entry => tick < entry.1) =
      held := by
  induction held with
  | nil => rfl
  | cons first rest ih =>
      obtain ⟨least, sorted⟩ := List.pairwise_cons.mp ascending
      by_cases due : first.1 ≤ tick
      · have after : ¬ tick < first.1 := UInt64.not_lt.mpr due
        simp only [List.filter_cons, due, after, decide_true, decide_false, ↓reduceIte,
          List.cons_append, Bool.false_eq_true, ih sorted]
      · have before : tick < first.1 := UInt64.not_le.mp due
        have none : rest.filter (fun entry => entry.1 ≤ tick) = [] := by
          refine List.filter_eq_nil_iff.mpr ?_
          intro entry member
          simpa using UInt64.lt_trans before (least entry member)
        have all : rest.filter (fun entry => tick < entry.1) = rest := by
          refine List.filter_eq_self.mpr ?_
          intro entry member
          simpa using UInt64.lt_trans before (least entry member)
        simp [before, none, all]

end Sequencer

end Overworld
