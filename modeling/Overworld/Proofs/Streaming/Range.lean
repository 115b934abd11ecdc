import Overworld.Proofs.Streaming.Run
import Overworld.Proofs.Terrain.Squares
import Overworld.Server.Settings

set_option autoImplicit false

/-!
Streamers in exact arithmetic, which have no result where a machine word would wrap. A radius is formed
unless the margin is one chunk too many, and a run has a result exactly where every square that its updates
are about has room on the map. It is then the run of the streamer itself, and the first update sends the
whole square; where that has no room, the first update sends something else.
-/

namespace Overworld

namespace StreamRules

/-- Chunks from a chunk to the edge of the view, as the radius counts them. -/
def reach (viewWidth viewHeight tileSize : Single) (chunkTiles : UInt32) : Nat :=
  let side := (tileSize * .ofNat (max chunkTiles.toNat 1)).greatest .epsilon
  let half := ((viewWidth.greatest viewHeight).greatest .zero) * .half
  (half / side).ceilUInt32

def guardedForView? (viewWidth viewHeight tileSize : Single) (chunkTiles : UInt32) :
    Option StreamRules := do
  let radius ← uint32? (reach viewWidth viewHeight tileSize chunkTiles + margin.toNat)
  return ⟨tileSize, chunkTiles, radius⟩

variable {viewWidth viewHeight tileSize : Single} {chunkTiles : UInt32}

theorem guardedForView?_eq
    (formed : reach viewWidth viewHeight tileSize chunkTiles < 4294967295) :
    guardedForView? viewWidth viewHeight tileSize chunkTiles =
      some (forView viewWidth viewHeight tileSize chunkTiles) := by
  have isOne : margin.toNat = 1 := rfl
  have radius : uint32? (reach viewWidth viewHeight tileSize chunkTiles + margin.toNat) =
      some ((reach viewWidth viewHeight tileSize chunkTiles).toUInt32 + margin) := by
    have value : (reach viewWidth viewHeight tileSize chunkTiles).toUInt32.toNat =
        reach viewWidth viewHeight tileSize chunkTiles :=
      UInt32.toNat_ofNat_of_lt (by change _ < 4294967296; omega)
    rw [uint32?_eq_some_iff, UInt32.toNat_add, isOne, value]
    exact Nat.mod_eq_of_lt (by omega)
  unfold guardedForView?
  rw [radius]
  rfl

theorem guardedForView?_eq_none
    (wraps : ¬ reach viewWidth viewHeight tileSize chunkTiles < 4294967295) :
    guardedForView? viewWidth viewHeight tileSize chunkTiles = none := by
  have isOne : margin.toNat = 1 := rfl
  unfold guardedForView?
  rw [uint32?_eq_none (by omega)]
  rfl

end StreamRules

namespace Streamer

def guardedArrivals? (streamer : Streamer) (current : ChunkPosition) :
    Option (List ChunkPosition) :=
  match streamer.lastChunk with
  | none => current.guardedNeighborhood? streamer.rules.viewRadius
  | some previous =>
    if previous = current then some []
    else do
      let around ← current.guardedNeighborhood? streamer.rules.viewRadius
      return around.filter fun chunk => streamer.rules.viewRadius.toNat < chunk.distance previous

/-- `nearer`, with the square of the straight distance beside the chunk. -/
def nearerBySquare (center : ChunkPosition) (a b : Int64 × ChunkPosition) : Bool :=
  if a.2.distance center ≠ b.2.distance center then a.2.distance center < b.2.distance center
  else if a.1 ≠ b.1 then a.1 < b.1
  else if a.2.y ≠ b.2.y then a.2.y < b.2.y
  else a.2.x ≤ b.2.x

def guardedUpdate? (streamer : Streamer) (position : Vec3) :
    Option (List ChunkPosition × Streamer) := do
  let current ← ChunkPosition.guardedContaining? position streamer.rules.tileSize
    streamer.rules.chunkTiles
  let again := streamer.pending.filter fun chunk =>
    chunk.distance current ≤ streamer.rules.viewRadius.toNat
  let arrivals ← streamer.guardedArrivals? current
  let wanted := (again ++ arrivals).filter fun chunk => !streamer.streamed.contains chunk
  let keyed ← wanted.mapM fun chunk => do
    let square ← chunk.guardedDistanceSquared? current
    return (square, chunk)
  let chunks := ((keyed.mergeSort (nearerBySquare current)).map (·.2)).eraseReps
  return (chunks,
    { streamer with
      lastChunk := some current
      streamed := streamer.streamed.insertMany chunks
      pending := [] })

variable {streamer : Streamer} {position : Vec3} {current : ChunkPosition}

theorem guardedArrivals?_eq (room : current.HasRoom streamer.rules.viewRadius.toNat) :
    streamer.guardedArrivals? current = some (streamer.arrivals current) := by
  unfold guardedArrivals? arrivals
  rw [ChunkPosition.guardedNeighborhood?_eq room]
  cases streamer.lastChunk with
  | none => rfl
  | some previous =>
      dsimp only
      split <;> rfl

/-- Only where the owner stays in its chunk is its neighborhood not looked at. -/
theorem guardedArrivals?_eq_none (crowded : ¬ current.HasRoom streamer.rules.viewRadius.toNat)
    (moved : streamer.lastChunk ≠ some current) : streamer.guardedArrivals? current = none := by
  unfold guardedArrivals?
  rw [ChunkPosition.guardedNeighborhood?_eq_none crowded]
  cases stood : streamer.lastChunk with
  | none => rfl
  | some previous =>
      dsimp only
      rw [if_neg fun same => moved (stood.trans (congrArg some same))]
      rfl

theorem map_mergeSort_nearerBySquare (center : ChunkPosition) (chunks : List ChunkPosition) :
    ((chunks.map fun chunk => (chunk.distanceSquared center, chunk)).mergeSort
      (nearerBySquare center)).map (·.2) = chunks.mergeSort (nearer center) := by
  have sorted := @List.map_mergeSort (Int64 × ChunkPosition) ChunkPosition (nearerBySquare center)
    (nearer center) (·.2) (chunks.map fun chunk => (chunk.distanceSquared center, chunk)) (by
      intro a inFirst b inSecond
      obtain ⟨first, -, rfl⟩ := List.mem_map.mp inFirst
      obtain ⟨second, -, rfl⟩ := List.mem_map.mp inSecond
      rfl)
  rw [sorted, List.map_map]
  simp [Function.comp_def]

theorem mapM_guardedDistanceSquared?_eq {center : ChunkPosition} {chunks : List ChunkPosition}
    (near : ∀ chunk ∈ chunks, chunk.distance center < 2147483648) :
    (chunks.mapM fun chunk => do
      let square ← chunk.guardedDistanceSquared? center
      return (square, chunk)) =
        some (chunks.map fun chunk => (chunk.distanceSquared center, chunk)) := by
  refine mapM_eq_some_map fun chunk member => ?_
  rw [ChunkPosition.guardedDistanceSquared?_eq (near chunk member)]
  rfl

/-- Everything that is wanted lies within the radius, where squares of distances fit. -/
theorem guardedUpdate?_eq
    (room : (streamer.rules.chunkOf position).HasRoom streamer.rules.viewRadius.toNat) :
    streamer.guardedUpdate? position = some (streamer.update position) := by
  have small := room.radius_lt
  have isCurrent : ChunkPosition.guardedContaining? position streamer.rules.tileSize
      streamer.rules.chunkTiles = some (streamer.rules.chunkOf position) :=
    ChunkPosition.guardedContaining?_eq ..
  unfold guardedUpdate?
  rw [isCurrent, Option.bind_eq_bind, Option.bind_some]
  dsimp only
  rw [guardedArrivals?_eq room, Option.bind_eq_bind, Option.bind_some,
    mapM_guardedDistanceSquared?_eq fun chunk member => ?_, Option.bind_eq_bind, Option.bind_some,
    map_mergeSort_nearerBySquare]
  · rfl
  · have sent : chunk ∈ (streamer.update position).1 := mem_update.mpr (by
      simpa only [List.mem_filter, List.mem_append, decide_eq_true_eq, Bool.not_eq_true']
        using member)
    exact Nat.lt_of_le_of_lt (distance_le_of_mem_update small room sent) small

theorem guardedUpdate?_eq_none
    (crowded : ¬ (streamer.rules.chunkOf position).HasRoom streamer.rules.viewRadius.toNat)
    (moved : streamer.lastChunk ≠ some (streamer.rules.chunkOf position)) :
    streamer.guardedUpdate? position = none := by
  have isCurrent : ChunkPosition.guardedContaining? position streamer.rules.tileSize
      streamer.rules.chunkTiles = some (streamer.rules.chunkOf position) :=
    ChunkPosition.guardedContaining?_eq ..
  unfold guardedUpdate?
  rw [isCurrent, Option.bind_eq_bind, Option.bind_some]
  dsimp only
  rw [guardedArrivals?_eq_none crowded moved]
  rfl

theorem nodup_update (streamer : Streamer) (position : Vec3) : (streamer.update position).1.Nodup :=
  (pairwise_eraseReps (ChunkPosition.nearer_antisymm _)
    (List.pairwise_mergeSort (ChunkPosition.nearer_trans _) (ChunkPosition.nearer_total _) _)).imp
      And.right

variable {rules : StreamRules}

theorem mem_update_first {chunk : ChunkPosition} :
    chunk ∈ ((ofRules rules).update position).1 ↔
      chunk ∈ (rules.chunkOf position).neighborhood rules.viewRadius := by
  have unsent : (ofRules rules).streamed.contains chunk = false := Std.HashSet.contains_empty
  rw [mem_update, mem_arrivals_of_none rfl, and_iff_left unsent]
  exact or_iff_right fun both => List.not_mem_nil both.1

/-- The first update sends the whole square exactly where that has room. -/
theorem isSquare_update_first_iff :
    ChunkPosition.IsSquare ((ofRules rules).update position).1 (rules.chunkOf position)
        rules.viewRadius.toNat ↔
      (rules.chunkOf position).HasRoom rules.viewRadius.toNat := by
  have once := nodup_update (ofRules rules) position
  constructor
  · intro square
    by_contra crowded
    rcases Nat.lt_or_ge rules.viewRadius.toNat 2147483648 with small | great
    · obtain ⟨chunk, around, far⟩ := ChunkPosition.exists_far small crowded
      exact Nat.not_le.mpr far (square.near chunk (mem_update_first.mpr around))
    · -- the neighborhood has one chunk at most
      have among : ((ofRules rules).update position).1 ⊆
          (rules.chunkOf position).neighborhood rules.viewRadius := fun _ => mem_update_first.mp
      have few := once.length_le_of_subset among
      have one := Nat.mul_le_mul (ChunkPosition.length_offsets_le_one great)
        (ChunkPosition.length_offsets_le_one great)
      have two : 2 ≤ 2 * rules.viewRadius.toNat + 1 := by omega
      have four := Nat.mul_le_mul two two
      rw [ChunkPosition.length_neighborhood, square.size] at few
      omega
  · intro room
    have small := room.radius_lt
    have same : ((ofRules rules).update position).1.Perm
        ((rules.chunkOf position).neighborhood rules.viewRadius) :=
      (List.perm_ext_iff_of_nodup once (ChunkPosition.nodup_neighborhood _ small)).mpr fun _ =>
        mem_update_first
    refine ⟨once, ?_, fun chunk sent => ?_⟩
    · rw [same.length_eq, ChunkPosition.length_neighborhood, ChunkPosition.length_offsets small]
    · exact ChunkPosition.distance_le_of_mem_neighborhood small room (mem_update_first.mp sent)

def guardedCall? (streamer : Streamer) : Call → Option Streamer
  | .update position => (streamer.guardedUpdate? position).map (·.2)
  | .reset => some streamer.reset
  | .invalidate chunk => some (streamer.invalidate chunk)

/-- A run in exact arithmetic. -/
def guardedRun? (rules : StreamRules) (calls : List Call) : Option Streamer :=
  calls.foldlM guardedCall? (ofRules rules)

/-- Every square that the calls are about has room. -/
def HaveRoom (rules : StreamRules) (calls : List Call) : Prop :=
  ∀ position, .update position ∈ calls →
    (rules.chunkOf position).HasRoom rules.viewRadius.toNat

theorem run_concat (rules : StreamRules) (calls : List Call) (next : Call) :
    run rules (calls ++ [next]) = (run rules calls).call next :=
  run_append_cons rules calls [] next

theorem guardedRun?_concat (rules : StreamRules) (calls : List Call) (next : Call) :
    guardedRun? rules (calls ++ [next]) =
      (guardedRun? rules calls).bind fun streamer => streamer.guardedCall? next := by
  unfold guardedRun?
  rw [List.foldlM_append]
  simp only [List.foldlM_cons, List.foldlM_nil, bind_pure, Option.bind_eq_bind]

/-- The owner stands in a chunk with room around it, as long as all its squares have had room. -/
theorem hasRoom_lastChunk {calls : List Call} (room : HaveRoom rules calls) {current : ChunkPosition}
    (stood : (run rules calls).lastChunk = some current) :
    current.HasRoom rules.viewRadius.toNat := by
  induction calls using List.reverseRecOn with
  | nil => cases stood
  | append_singleton calls next ih =>
      have before : HaveRoom rules calls := fun position member =>
        room position (List.mem_append_left _ member)
      rw [run_concat] at stood
      cases next with
      | update position =>
          have here : (run rules calls).rules.chunkOf position = current := Option.some.inj stood
          rw [rules_run] at here
          exact here ▸ room position (List.mem_append_right _ List.mem_cons_self)
      | reset => cases stood
      | invalidate chunk =>
          have same : ((run rules calls).invalidate chunk).lastChunk =
              (run rules calls).lastChunk := by
            unfold invalidate
            split <;> rfl
          exact ih before (same.symm.trans stood)

theorem guardedRun?_eq {calls : List Call} (room : HaveRoom rules calls) :
    guardedRun? rules calls = some (run rules calls) := by
  induction calls using List.reverseRecOn with
  | nil => rfl
  | append_singleton calls next ih =>
      have before : HaveRoom rules calls := fun position member =>
        room position (List.mem_append_left _ member)
      rw [guardedRun?_concat, run_concat, ih before, Option.bind_some]
      cases next with
      | update position =>
          have here := room position (List.mem_append_right _ List.mem_cons_self)
          rw [← rules_run rules calls] at here
          unfold guardedCall?
          dsimp only
          rw [guardedUpdate?_eq here]
          rfl
      | reset => rfl
      | invalidate chunk => rfl

theorem guardedRun?_eq_none {calls : List Call} (crowded : ¬ HaveRoom rules calls) :
    guardedRun? rules calls = none := by
  induction calls using List.reverseRecOn with
  | nil => exact absurd (fun _ member => absurd member List.not_mem_nil) crowded
  | append_singleton calls next ih =>
      rw [guardedRun?_concat]
      by_cases before : HaveRoom rules calls
      · rw [guardedRun?_eq before, Option.bind_some]
        -- the last call is the first one that is about a square without room
        obtain ⟨position, isLast, here⟩ : ∃ position, next = .update position ∧
            ¬ (rules.chunkOf position).HasRoom rules.viewRadius.toNat := by
          by_contra none
          refine crowded fun position member => ?_
          rcases List.mem_append.mp member with earlier | last
          · exact before position earlier
          · by_contra here
            exact none ⟨position, (List.mem_singleton.mp last).symm, here⟩
        have moved : (run rules calls).lastChunk ≠
            some ((run rules calls).rules.chunkOf position) := by
          rw [rules_run]
          exact fun stood => here (hasRoom_lastChunk before stood)
        rw [← rules_run rules calls] at here
        rw [isLast]
        unfold guardedCall?
        dsimp only
        rw [guardedUpdate?_eq_none here moved]
        rfl
      · rw [ih before]
        rfl

end Streamer

namespace Settings

open Streamer

/-- The radius can be formed: the chunks to the edge of the view leave one for the margin. -/
def HasRadius (settings : Settings) : Prop :=
  StreamRules.reach settings.viewWidth settings.viewHeight settings.tileSize settings.chunkTiles <
    4294967295

def guardedStreamRules? (settings : Settings) : Option StreamRules :=
  StreamRules.guardedForView? settings.viewWidth settings.viewHeight settings.tileSize
    settings.chunkTiles

/-- A run under the rules of the settings, in exact arithmetic from the radius on. -/
def guardedStream? (settings : Settings) (calls : List Call) : Option Streamer := do
  let rules ← settings.guardedStreamRules?
  guardedRun? rules calls

/-- A streamer in exact arithmetic has a result exactly where the radius can be formed and every square
that its updates are about has room on the map; it is then the streamer itself, and the chunks of every
update are the same. No distance and no chunk of an owner is ever out of range. The first update sends the
whole square, each chunk once and none beyond the radius, exactly where that square has room. -/
theorem stream_in_range_iff (settings : Settings) (calls : List Call) :
    (settings.HasRadius ∧ HaveRoom settings.streamRules calls →
      settings.guardedStream? calls = some (run settings.streamRules calls) ∧
      ∀ earlier position later, calls = earlier ++ .update position :: later →
        (run settings.streamRules earlier).guardedUpdate? position =
          some ((run settings.streamRules earlier).update position)) ∧
    (¬ (settings.HasRadius ∧ HaveRoom settings.streamRules calls) →
      settings.guardedStream? calls = none) ∧
    (∀ position, ChunkPosition.guardedContaining? position settings.tileSize settings.chunkTiles =
      some (settings.streamRules.chunkOf position)) ∧
    (∀ chunk other : ChunkPosition,
      chunk.guardedDistance? other = some (chunk.distance other)) ∧
    ∀ position, ChunkPosition.IsSquare ((ofRules settings.streamRules).update position).1
        (settings.streamRules.chunkOf position) settings.streamRules.viewRadius.toNat ↔
      (settings.streamRules.chunkOf position).HasRoom
        settings.streamRules.viewRadius.toNat := by
  have formed : settings.HasRadius →
      settings.guardedStreamRules? = some settings.streamRules := StreamRules.guardedForView?_eq
  refine ⟨?_, ?_, fun position => ChunkPosition.guardedContaining?_eq .., fun chunk other =>
    ChunkPosition.guardedDistance?_eq .., fun position => isSquare_update_first_iff⟩
  · rintro ⟨radius, room⟩
    refine ⟨?_, ?_⟩
    · unfold guardedStream?
      rw [formed radius, Option.bind_eq_bind, Option.bind_some, guardedRun?_eq room]
    · rintro earlier position later rfl
      have here := room position (List.mem_append_right _ List.mem_cons_self)
      rw [← rules_run settings.streamRules earlier] at here
      exact guardedUpdate?_eq here
  · intro wraps
    unfold guardedStream?
    by_cases radius : settings.HasRadius
    · rw [formed radius, Option.bind_eq_bind, Option.bind_some,
        guardedRun?_eq_none fun room => wraps ⟨radius, room⟩]
    · have unformed : settings.guardedStreamRules? = none :=
        StreamRules.guardedForView?_eq_none radius
      rw [unformed]
      rfl

/-- The owner comes in at the origin, crosses a border, and reappears a chunk further on. -/
def crossing : List Call :=
  [.update (.planar .zero .zero), .update (.planar ⟨0x43960000⟩ .zero), .reset,
    .update (.planar ⟨0x44160000⟩ .zero)]

theorem crossing_streams_in_range :
    standard.HasRadius ∧ HaveRoom standard.streamRules crossing ∧
    standard.guardedStream? crossing = some (run standard.streamRules crossing) ∧
    ChunkPosition.IsSquare
      ((ofRules standard.streamRules).update (.planar .zero .zero)).1 ⟨0, 0⟩ 3 := by
  have radius : standard.HasRadius := by
    unfold HasRadius
    decide +kernel
  have roomAt : ∀ position ∈ [Vec3.planar .zero .zero, .planar ⟨0x43960000⟩ .zero,
      .planar ⟨0x44160000⟩ .zero],
      (standard.streamRules.chunkOf position).HasRoom standard.streamRules.viewRadius.toNat := by
    intro position member
    simp only [List.mem_cons, List.not_mem_nil, or_false] at member
    rcases member with rfl | rfl | rfl <;> constructor <;> decide +kernel
  have room : HaveRoom standard.streamRules crossing := fun position member =>
    roomAt position (by simpa [crossing] using member)
  obtain ⟨inRange, -, -, -, square⟩ := stream_in_range_iff standard crossing
  have origin := (square (.planar .zero .zero)).mpr (roomAt _ List.mem_cons_self)
  have chunk : standard.streamRules.chunkOf (.planar .zero .zero) = ⟨0, 0⟩ := by decide +kernel
  have three : standard.streamRules.viewRadius.toNat = 3 := by decide +kernel
  rw [chunk, three] at origin
  exact ⟨radius, room, (inRange ⟨radius, room⟩).1, origin⟩

/-- An owner so far out that its chunk is in the last column. -/
def farOut : Vec3 := .planar ⟨0x7149f2ca⟩ .zero

/-- A view that is wide for its tiles. -/
def wideView : Settings :=
  { standard with viewWidth := ⟨0x7f61b1e6⟩, tileSize := ⟨0x0da24260⟩ }

/-- Under standard settings, an owner in the last column that can be reached by a position is sent
chunks of the first column. The radius of the wide view wraps to nothing. -/
theorem far_out_wraps :
    standard.fault? = none ∧ farOut.isFinite = true ∧
    standard.guardedStream? [.update farOut] = none ∧
    (⟨-2147483648, 0⟩ ∈ ((ofRules standard.streamRules).update farOut).1 ∧
      standard.streamRules.viewRadius.toNat <
        ChunkPosition.distance ⟨-2147483648, 0⟩ (standard.streamRules.chunkOf farOut)) ∧
    wideView.fault? = none ∧ wideView.guardedStreamRules? = none ∧
    wideView.streamRules.viewRadius = 0 := by
  refine ⟨by decide +kernel, by decide +kernel, ?_, ⟨?_, by decide +kernel⟩, by decide +kernel,
    by decide +kernel, by decide +kernel⟩
  · exact Option.isNone_iff_eq_none.mp (by decide +kernel)
  · rw [mem_update_first]
    decide +kernel

end Settings

end Overworld
