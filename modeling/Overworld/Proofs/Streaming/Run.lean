import Overworld.Proofs.Order.Repetitions
import Overworld.Proofs.Terrain.Nearness

set_option autoImplicit false

/-!
Runs of a streamer. Every chunk in range of the last update is held by the client, and a chunk is
sent again only after it was invalidated while the client held it.
-/

namespace Overworld

namespace Streamer

theorem mem_update {streamer : Streamer} {position : Vec3} {chunk : ChunkPosition} :
    chunk ∈ (streamer.update position).1 ↔
      ((chunk ∈ streamer.pending ∧
          chunk.distance (streamer.rules.chunkOf position) ≤ streamer.rules.viewRadius.toNat) ∨
        chunk ∈ streamer.arrivals (streamer.rules.chunkOf position)) ∧
      streamer.streamed.contains chunk = false := by
  simp only [update, mem_eraseReps, List.mem_mergeSort, List.mem_filter, List.mem_append,
    decide_eq_true_eq, Bool.not_eq_true']

theorem contains_streamed_update (streamer : Streamer) (position : Vec3) (chunk : ChunkPosition) :
    (streamer.update position).2.streamed.contains chunk = true ↔
      streamer.streamed.contains chunk = true ∨ chunk ∈ (streamer.update position).1 := by
  simp only [update, Std.HashSet.contains_insertMany_list, Bool.or_eq_true, List.contains_iff_mem]

theorem mem_arrivals_of_none {streamer : Streamer} {current chunk : ChunkPosition}
    (lost : streamer.lastChunk = none) :
    chunk ∈ streamer.arrivals current ↔ chunk ∈ current.neighborhood streamer.rules.viewRadius := by
  simp [arrivals, lost]

theorem mem_arrivals_of_some {streamer : Streamer} {previous current chunk : ChunkPosition}
    (stood : streamer.lastChunk = some previous) :
    chunk ∈ streamer.arrivals current ↔
      previous ≠ current ∧ chunk ∈ current.neighborhood streamer.rules.viewRadius ∧
        streamer.rules.viewRadius.toNat < chunk.distance previous := by
  by_cases same : previous = current <;> simp [arrivals, stood, same]

theorem distance_le_of_mem_update {streamer : Streamer} {position : Vec3} {chunk : ChunkPosition}
    (small : streamer.rules.viewRadius.toNat < 2147483648)
    (room : (streamer.rules.chunkOf position).HasRoom streamer.rules.viewRadius.toNat)
    (sent : chunk ∈ (streamer.update position).1) :
    chunk.distance (streamer.rules.chunkOf position) ≤ streamer.rules.viewRadius.toNat := by
  obtain ⟨⟨-, near⟩ | arrived, -⟩ := mem_update.mp sent
  · exact near
  · apply ChunkPosition.distance_le_of_mem_neighborhood small room
    cases stood : streamer.lastChunk with
    | none => exact (mem_arrivals_of_none stood).mp arrived
    | some previous => exact ((mem_arrivals_of_some stood).mp arrived).2.1

/-- What is sent is sorted strictly: nearest first, and nothing twice. -/
theorem update_ascending {streamer : Streamer} {position : Vec3}
    (small : streamer.rules.viewRadius.toNat < 2147483648)
    (room : (streamer.rules.chunkOf position).HasRoom streamer.rules.viewRadius.toNat) :
    (streamer.update position).1.Pairwise fun a b =>
      ChunkPosition.remoteness (streamer.rules.chunkOf position) a <
        ChunkPosition.remoteness (streamer.rules.chunkOf position) b := by
  have sorted : (streamer.update position).1.Pairwise fun a b =>
      nearer (streamer.rules.chunkOf position) a b = true ∧ a ≠ b :=
    pairwise_eraseReps (ChunkPosition.nearer_antisymm _)
      (List.pairwise_mergeSort (ChunkPosition.nearer_trans _) (ChunkPosition.nearer_total _) _)
  refine sorted.imp_of_mem fun {a b} sentFirst sentThen order => ?_
  have first := distance_le_of_mem_update small room sentFirst
  have next := distance_le_of_mem_update small room sentThen
  rw [← ChunkPosition.sendingKey_eq_remoteness (Nat.lt_of_le_of_lt first small),
    ← ChunkPosition.sendingKey_eq_remoteness (Nat.lt_of_le_of_lt next small)]
  exact lt_of_le_of_ne (ChunkPosition.nearer_iff.mp order.1)
    fun same => order.2 (ChunkPosition.sendingKey_injective _ same)

/-- The chunks around the last place are held, or wait to be sent again. -/
def IsComplete (streamer : Streamer) : Prop :=
  ∀ current, streamer.lastChunk = some current →
    ∀ chunk, chunk.distance current ≤ streamer.rules.viewRadius.toNat →
      streamer.streamed.contains chunk = true ∨ chunk ∈ streamer.pending

/-- After an update of a complete streamer all chunks in range are held. -/
theorem IsComplete.contains_update {streamer : Streamer} (complete : streamer.IsComplete)
    (small : streamer.rules.viewRadius.toNat < 2147483648) (position : Vec3) {chunk : ChunkPosition}
    (near : chunk.distance (streamer.rules.chunkOf position) ≤ streamer.rules.viewRadius.toNat) :
    (streamer.update position).2.streamed.contains chunk = true := by
  rw [contains_streamed_update, mem_update]
  cases held : streamer.streamed.contains chunk with
  | true => exact Or.inl rfl
  | false =>
      refine Or.inr ⟨?_, rfl⟩
      have around := ChunkPosition.mem_neighborhood_of_distance_le small near
      cases stood : streamer.lastChunk with
      | none => exact Or.inr ((mem_arrivals_of_none stood).mpr around)
      | some previous =>
          by_cases seen : chunk.distance previous ≤ streamer.rules.viewRadius.toNat
          · -- It was in range before, so it can only be missing because it changed.
            rcases complete previous stood chunk seen with still | waits
            · rw [held] at still
              cases still
            · exact Or.inl ⟨waits, near⟩
          · refine Or.inr ((mem_arrivals_of_some stood).mpr ⟨?_, around, Nat.lt_of_not_le seen⟩)
            rintro rfl
            exact seen near

/-- It sends what is in range and was not held. -/
theorem IsComplete.mem_update_iff {streamer : Streamer} (complete : streamer.IsComplete)
    {position : Vec3} {chunk : ChunkPosition}
    (small : streamer.rules.viewRadius.toNat < 2147483648)
    (room : (streamer.rules.chunkOf position).HasRoom streamer.rules.viewRadius.toNat) :
    chunk ∈ (streamer.update position).1 ↔
      chunk.distance (streamer.rules.chunkOf position) ≤ streamer.rules.viewRadius.toNat ∧
        streamer.streamed.contains chunk = false := by
  constructor
  · intro sent
    exact ⟨distance_le_of_mem_update small room sent, (mem_update.mp sent).2⟩
  · rintro ⟨near, unheld⟩
    have held := complete.contains_update small position near
    rw [contains_streamed_update, unheld] at held
    exact held.resolve_left Bool.false_ne_true

theorem IsComplete.update {streamer : Streamer} (complete : streamer.IsComplete)
    (small : streamer.rules.viewRadius.toNat < 2147483648) (position : Vec3) :
    (streamer.update position).2.IsComplete := by
  intro current stood chunk near
  cases stood
  exact Or.inl (complete.contains_update small position near)

theorem contains_streamed_invalidate (streamer : Streamer) (chunk other : ChunkPosition) :
    (streamer.invalidate chunk).streamed.contains other =
      (streamer.streamed.contains other && chunk != other) := by
  unfold invalidate
  split
  · rw [Std.HashSet.contains_erase, Bool.and_comm]
    rfl
  · rename_i absent
    by_cases same : chunk = other
    · subst same
      rw [Bool.eq_false_of_not_eq_true absent, Bool.false_and]
    · rw [bne_iff_ne.mpr same, Bool.and_true]

theorem IsComplete.invalidate {streamer : Streamer} (complete : streamer.IsComplete)
    (chunk : ChunkPosition) : (streamer.invalidate chunk).IsComplete := by
  unfold Streamer.invalidate
  by_cases held : streamer.streamed.contains chunk = true
  · rw [if_pos held]
    intro current stood other near
    replace stood : streamer.lastChunk = some current := stood
    simp only [stood, Std.HashSet.contains_erase]
    by_cases same : chunk = other
    · subst same
      have inRange : decide (chunk.distance current ≤ streamer.rules.viewRadius.toNat) = true :=
        decide_eq_true near
      rw [inRange]
      exact Or.inr (List.mem_append_right _ List.mem_cons_self)
    · rw [beq_eq_false_iff_ne.mpr same]
      refine (complete current stood other near).imp id fun waits => ?_
      split
      · exact List.mem_append_left _ waits
      · exact waits
  · rw [if_neg held]
    exact complete

inductive Call
  | update (position : Vec3)
  | reset
  | invalidate (chunk : ChunkPosition)
deriving DecidableEq

def call (streamer : Streamer) : Call → Streamer
  | .update position => (streamer.update position).2
  | .reset => streamer.reset
  | .invalidate chunk => streamer.invalidate chunk

def run (rules : StreamRules) (calls : List Call) : Streamer := calls.foldl call (ofRules rules)

theorem run_append_cons (rules : StreamRules) (calls later : List Call) (next : Call) :
    run rules (calls ++ next :: later) = later.foldl call ((run rules calls).call next) := by
  rw [run, List.foldl_append, List.foldl_cons, run]

theorem rules_call (streamer : Streamer) (next : Call) :
    (streamer.call next).rules = streamer.rules := by
  cases next with
  | update position => rfl
  | reset => rfl
  | invalidate chunk =>
      unfold call invalidate
      dsimp only
      split <;> rfl

theorem rules_run (rules : StreamRules) (calls : List Call) : (run rules calls).rules = rules := by
  suffices kept : ∀ streamer : Streamer, (calls.foldl call streamer).rules = streamer.rules from
    kept (ofRules rules)
  induction calls with
  | nil => exact fun streamer => rfl
  | cons next rest ih => exact fun streamer => (ih _).trans (streamer.rules_call next)

theorem IsComplete.call {streamer : Streamer} (complete : streamer.IsComplete)
    (small : streamer.rules.viewRadius.toNat < 2147483648) (next : Call) :
    (streamer.call next).IsComplete := by
  cases next with
  | update position => exact complete.update small position
  | reset =>
      intro current stood
      cases stood
  | invalidate chunk => exact complete.invalidate chunk

theorem run_isComplete (rules : StreamRules) (small : rules.viewRadius.toNat < 2147483648)
    (calls : List Call) : (run rules calls).IsComplete := by
  suffices kept : ∀ streamer : Streamer, streamer.rules.viewRadius.toNat < 2147483648 →
      streamer.IsComplete → (calls.foldl call streamer).IsComplete from
    kept (ofRules rules) small (fun _ stood => by cases stood)
  induction calls with
  | nil => exact fun _ _ complete => complete
  | cons next rest ih =>
      intro streamer small complete
      exact ih _ (streamer.rules_call next ▸ small) (complete.call small next)

/-- Only an invalidation takes a chunk away from a client that holds it. -/
theorem exists_invalidate_of_lost {chunk : ChunkPosition} (calls : List Call) {streamer : Streamer}
    (held : streamer.streamed.contains chunk = true)
    (lost : (calls.foldl call streamer).streamed.contains chunk = false) :
    ∃ start rest, calls = start ++ .invalidate chunk :: rest ∧
      (start.foldl call streamer).streamed.contains chunk = true := by
  induction calls generalizing streamer with
  | nil =>
      rw [List.foldl_nil, held] at lost
      cases lost
  | cons next rest ih =>
      cases still : (streamer.call next).streamed.contains chunk with
      | true =>
          obtain ⟨start, after, split, kept⟩ := ih still lost
          exact ⟨next :: start, after, congrArg (next :: ·) split, kept⟩
      | false =>
          refine ⟨[], rest, ?_, held⟩
          cases next with
          | update position =>
              have kept := (streamer.contains_streamed_update position chunk).mpr (Or.inl held)
              cases kept.symm.trans still
          | reset => cases held.symm.trans still
          | invalidate changed =>
              have both := streamer.contains_streamed_invalidate changed chunk
              rw [held, Bool.true_and] at both
              have same : changed = chunk := by simpa using both.symm.trans still
              rw [same, List.nil_append]

/-- At every update of a run, for positions with room for the radius around their chunks: all chunks
in range are held afterwards; what is sent are those in range that were not held before, sorted and
nothing twice, and nothing else comes to be held; and between this sending of a chunk and an earlier
one, it was invalidated while the client held it. -/
theorem run_streams_once (rules : StreamRules) (small : rules.viewRadius.toNat < 2147483648)
    (calls : List Call)
    (room : ∀ position, Call.update position ∈ calls →
      (rules.chunkOf position).HasRoom rules.viewRadius.toNat)
    (before after : List Call) (position : Vec3)
    (split : calls = before ++ .update position :: after) :
    (∀ chunk, ChunkPosition.distance chunk (rules.chunkOf position) ≤ rules.viewRadius.toNat →
      ((run rules before).update position).2.streamed.contains chunk = true) ∧
    (∀ chunk, chunk ∈ ((run rules before).update position).1 ↔
      ChunkPosition.distance chunk (rules.chunkOf position) ≤ rules.viewRadius.toNat ∧
        (run rules before).streamed.contains chunk = false) ∧
    (∀ chunk, ((run rules before).update position).2.streamed.contains chunk = true ↔
      (run rules before).streamed.contains chunk = true ∨
        chunk ∈ ((run rules before).update position).1) ∧
    ((run rules before).update position).1.Nodup ∧
    (((run rules before).update position).1.Pairwise fun a b =>
      ChunkPosition.remoteness (rules.chunkOf position) a <
        ChunkPosition.remoteness (rules.chunkOf position) b) ∧
    ∀ earlier between place, before = earlier ++ .update place :: between →
      ∀ chunk ∈ ((run rules before).update position).1,
        chunk ∈ ((run rules earlier).update place).1 →
        ∃ start rest, between = start ++ .invalidate chunk :: rest ∧
          (run rules (earlier ++ .update place :: start)).streamed.contains chunk = true := by
  have rulesNow := rules_run rules before
  have smallNow : (run rules before).rules.viewRadius.toNat < 2147483648 := by
    rw [rulesNow]
    exact small
  have roomNow : ((run rules before).rules.chunkOf position).HasRoom
      (run rules before).rules.viewRadius.toNat := by
    rw [rulesNow]
    exact room position (split ▸ List.mem_append_right _ List.mem_cons_self)
  have ascending := update_ascending smallNow roomNow
  have complete : ∀ chunk, ChunkPosition.distance chunk
      ((run rules before).rules.chunkOf position) ≤ (run rules before).rules.viewRadius.toNat →
      ((run rules before).update position).2.streamed.contains chunk = true :=
    fun chunk => (run_isComplete rules small before).contains_update smallNow position
  have missing : ∀ chunk, chunk ∈ ((run rules before).update position).1 ↔
      ChunkPosition.distance chunk ((run rules before).rules.chunkOf position) ≤
          (run rules before).rules.viewRadius.toNat ∧
        (run rules before).streamed.contains chunk = false :=
    fun chunk => (run_isComplete rules small before).mem_update_iff smallNow roomNow
  rw [rulesNow] at ascending complete missing
  refine ⟨complete, missing, contains_streamed_update _ position, ascending.imp ?_, ascending, ?_⟩
  · rintro a b order rfl
    exact lt_irrefl _ order
  · rintro earlier between place rfl chunk sentNow sentEarlier
    have held := (contains_streamed_update (run rules earlier) place chunk).mpr
      (Or.inr sentEarlier)
    have lost := (mem_update.mp sentNow).2
    rw [run_append_cons] at lost
    obtain ⟨start, rest, isBetween, kept⟩ := exists_invalidate_of_lost between held lost
    refine ⟨start, rest, isBetween, ?_⟩
    rw [run_append_cons]
    exact kept

/-- Chunks of ten units, of which those next to the owner's are kept sent. -/
def tenUnits : StreamRules := ⟨.one, 10, 1⟩

/-- The owner stands at (5, 5), a chunk next to its own changes, and it reappears at (15, 5). -/
def changedOnTheWay : List Call :=
  [.update (.planar ⟨0x40a00000⟩ ⟨0x40a00000⟩), .invalidate ⟨1, 1⟩, .reset,
    .update (.planar ⟨0x41700000⟩ ⟨0x40a00000⟩)]

theorem changed_chunk_streams_again :
    (⟨1, 1⟩ ∈ ((run tenUnits []).update (.planar ⟨0x40a00000⟩ ⟨0x40a00000⟩)).1) ∧
    (⟨1, 1⟩ ∈ ((run tenUnits (changedOnTheWay.take 3)).update
      (.planar ⟨0x41700000⟩ ⟨0x40a00000⟩)).1) ∧
    ∃ start rest, [.invalidate ⟨1, 1⟩, .reset] = start ++ Call.invalidate ⟨1, 1⟩ :: rest ∧
      (run tenUnits (.update (.planar ⟨0x40a00000⟩ ⟨0x40a00000⟩) :: start)).streamed.contains
        ⟨1, 1⟩ = true := by
  have sentFirst : ⟨1, 1⟩ ∈
      ((run tenUnits []).update (.planar ⟨0x40a00000⟩ ⟨0x40a00000⟩)).1 :=
    mem_update.mpr ⟨Or.inr ((mem_arrivals_of_none rfl).mpr (by decide)),
      Std.HashSet.contains_empty⟩
  have sentAgain : ⟨1, 1⟩ ∈ ((run tenUnits (changedOnTheWay.take 3)).update
      (.planar ⟨0x41700000⟩ ⟨0x40a00000⟩)).1 := by
    refine mem_update.mpr ⟨Or.inr ((mem_arrivals_of_none rfl).mpr ?_), ?_⟩
    · rw [rules_run]
      decide
    · refine (contains_streamed_invalidate _ _ _).trans ?_
      rw [bne_self_eq_false, Bool.and_false]
  refine ⟨sentFirst, sentAgain, ?_⟩
  have room : ∀ position, Call.update position ∈ changedOnTheWay →
      (tenUnits.chunkOf position).HasRoom tenUnits.viewRadius.toNat := by
    intro position member
    simp only [changedOnTheWay, List.mem_cons, Call.update.injEq, reduceCtorEq, false_or,
      List.not_mem_nil, or_false] at member
    rcases member with rfl | rfl <;> constructor <;> decide
  obtain ⟨-, -, -, -, -, changed⟩ := run_streams_once tenUnits (by decide) changedOnTheWay room
    (changedOnTheWay.take 3) [] _ rfl
  exact changed [] _ _ rfl ⟨1, 1⟩ sentAgain sentFirst

end Streamer

end Overworld
