import Overworld.Proofs.Sequencer.Basic

set_option autoImplicit false

/-!
Runs of a sequencer with a ledger beside it: what was accepted and what was handed over, in order.
What was handed over, followed by what is held, is at every moment the list of accepted inputs
sorted by strictly ascending ticks. The law of release is read off that one equation.
-/

namespace Overworld

namespace Sequencer

inductive Call
  | receive (server tick : Tick) (keys : Keys)
  | observe (server client : Tick)
  | release (tick : Tick)
  | takeAdjustment
deriving DecidableEq

structure Ledger where
  sequencer : Sequencer
  /-- Inputs that were answered as accepted, in the order of their arrival. -/
  accepted : List (Tick × Keys)
  /-- Everything that releases handed over, one release after the other. -/
  released : List (Tick × Keys)

namespace Ledger

def start (rules : SequencerRules) : Ledger := ⟨.ofRules rules, [], []⟩

/-- A message beyond the desynchronisation limit leaves everything as it is. -/
def receive (ledger : Ledger) (server tick : Tick) (keys : Keys) : Ledger :=
  match ledger.sequencer.receive server tick keys with
  | .error _ => ledger
  | .ok (.accepted, sequencer) =>
    { ledger with sequencer, accepted := ledger.accepted ++ [(tick, keys)] }
  | .ok (.dropped _, sequencer) => { ledger with sequencer }

def observe (ledger : Ledger) (server client : Tick) : Ledger :=
  match ledger.sequencer.observe server client with
  | .error _ => ledger
  | .ok sequencer => { ledger with sequencer }

def release (ledger : Ledger) (tick : Tick) : Ledger :=
  { ledger with
    sequencer := (ledger.sequencer.release tick).2
    released := ledger.released ++ (ledger.sequencer.release tick).1 }

def call (ledger : Ledger) : Call → Ledger
  | .receive server tick keys => ledger.receive server tick keys
  | .observe server client => ledger.observe server client
  | .release tick => ledger.release tick
  | .takeAdjustment => { ledger with sequencer := ledger.sequencer.takeAdjustment.2 }

def run (rules : SequencerRules) (calls : List Call) : Ledger := calls.foldl call (start rules)

/-- What went out, then what is held. -/
def entries (ledger : Ledger) : List (Tick × Keys) := ledger.released ++ ledger.sequencer.pending

structure Balanced (ledger : Ledger) : Prop where
  settled : ledger.entries.Perm ledger.accepted
  ascending : ledger.entries.Pairwise fun earlier later => earlier.1 < later.1
  last : ledger.sequencer.lastReleased = ledger.released.getLast?.map (·.1)

theorem start_balanced (rules : SequencerRules) : (start rules).Balanced :=
  ⟨List.Perm.refl _, List.Pairwise.nil, rfl⟩

/-- A tick that is free lies above all that went out and is none of those held. -/
theorem Balanced.fresh {ledger : Ledger} (balanced : ledger.Balanced) {tick : Tick}
    (free : ledger.sequencer.isTaken tick = false) :
    (∀ entry ∈ ledger.released, entry.1 < tick) ∧
      ∀ entry ∈ ledger.sequencer.pending, entry.1 ≠ tick := by
  obtain ⟨unheld, above⟩ := isTaken_eq_false.mp free
  refine ⟨?_, unheld⟩
  intro entry member
  have sorted := (List.pairwise_append.mp balanced.ascending).1
  cases found : ledger.released.getLast? with
  | none =>
      rw [List.getLast?_eq_none_iff.mp found] at member
      cases member
  | some final =>
      have bound : final.1 < tick := above final.1 (by simp [balanced.last, found])
      obtain ⟨front, split⟩ := List.getLast?_eq_some_iff.mp found
      rw [split] at member sorted
      rcases List.mem_append.mp member with early | newest
      · have order := (List.pairwise_append.mp sorted).2.2 entry early final (by simp)
        exact UInt64.lt_trans order bound
      · rw [List.mem_singleton.mp newest]
        exact bound

/-- A call that moves no input keeps the balance. -/
theorem Balanced.of_unmoved {ledger : Ledger} (balanced : ledger.Balanced) {sequencer : Sequencer}
    (pending : sequencer.pending = ledger.sequencer.pending)
    (last : sequencer.lastReleased = ledger.sequencer.lastReleased) :
    ({ ledger with sequencer } : Ledger).Balanced := by
  have same : ({ ledger with sequencer } : Ledger).entries = ledger.entries :=
    congrArg (ledger.released ++ ·) pending
  exact ⟨same ▸ balanced.settled, same ▸ balanced.ascending, last.trans balanced.last⟩

theorem Balanced.accept {ledger : Ledger} (balanced : ledger.Balanced) {tick : Tick} {keys : Keys}
    {sequencer : Sequencer} (free : ledger.sequencer.isTaken tick = false)
    (pending : sequencer.pending = insertPending (tick, keys) ledger.sequencer.pending)
    (last : sequencer.lastReleased = ledger.sequencer.lastReleased) :
    ({ ledger with sequencer, accepted := ledger.accepted ++ [(tick, keys)] } : Ledger).Balanced := by
  obtain ⟨above, unheld⟩ := balanced.fresh free
  obtain ⟨out, held, apart⟩ := List.pairwise_append.mp balanced.ascending
  refine ⟨?_, ?_, last.trans balanced.last⟩
  · change (ledger.released ++ sequencer.pending).Perm _
    rw [pending]
    calc
      ledger.released ++ insertPending (tick, keys) ledger.sequencer.pending
      _ |>.Perm (ledger.released ++ (tick, keys) :: ledger.sequencer.pending) :=
        List.Perm.append_left _ (insertPending_perm _ _)
      _ |>.Perm ((tick, keys) :: ledger.entries) := List.perm_middle
      _ |>.Perm ((tick, keys) :: ledger.accepted) := List.Perm.cons _ balanced.settled
      _ |>.Perm (ledger.accepted ++ [(tick, keys)]) := (List.perm_append_singleton _ _).symm
  · change (ledger.released ++ sequencer.pending).Pairwise _
    rw [pending]
    refine List.pairwise_append.mpr ⟨out, insertPending_ascending held unheld, ?_⟩
    intro earlier before later member
    rcases mem_insertPending.mp member with rfl | member
    · exact above earlier before
    · exact apart earlier before later member

theorem Balanced.receive {ledger : Ledger} (balanced : ledger.Balanced) (server tick : Tick)
    (keys : Keys) : (ledger.receive server tick keys).Balanced := by
  unfold Ledger.receive
  split
  · exact balanced
  · rename_i success
    obtain ⟨last, ⟨-, free, pending⟩ | ⟨⟨_, impossible⟩, -⟩⟩ := receive_cases success
    · exact balanced.accept free pending last
    · cases impossible
  · rename_i success
    obtain ⟨last, ⟨impossible, -⟩ | ⟨-, pending⟩⟩ := receive_cases success
    · cases impossible
    · exact balanced.of_unmoved pending last

theorem Balanced.observe {ledger : Ledger} (balanced : ledger.Balanced) (server client : Tick) :
    (ledger.observe server client).Balanced := by
  unfold Ledger.observe
  split
  · exact balanced
  · rename_i success
    exact balanced.of_unmoved (observe_pending success) (observe_lastReleased success)

/-- A release moves entries from one side to the other and changes none. -/
theorem Balanced.entries_release {ledger : Ledger} (balanced : ledger.Balanced) (tick : Tick) :
    (ledger.release tick).entries = ledger.entries := by
  have held := (List.pairwise_append.mp balanced.ascending).2.1
  unfold entries Ledger.release
  rw [release_fst, release_pending, List.append_assoc, filter_append_filter_of_ascending tick held]

theorem Balanced.release {ledger : Ledger} (balanced : ledger.Balanced) (tick : Tick) :
    (ledger.release tick).Balanced := by
  have same := balanced.entries_release tick
  refine ⟨same ▸ balanced.settled, same ▸ balanced.ascending, ?_⟩
  unfold Ledger.release
  rw [release_lastReleased, List.getLast?_append]
  cases (ledger.sequencer.release tick).1.getLast? with
  | none => exact balanced.last
  | some entry => rfl

theorem Balanced.call {ledger : Ledger} (balanced : ledger.Balanced) (call : Call) :
    (ledger.call call).Balanced := by
  cases call with
  | receive server tick keys => exact balanced.receive server tick keys
  | observe server client => exact balanced.observe server client
  | release tick => exact balanced.release tick
  | takeAdjustment => exact balanced.of_unmoved rfl rfl

theorem run_balanced (rules : SequencerRules) (calls : List Call) : (run rules calls).Balanced := by
  suffices kept : ∀ ledger : Ledger, ledger.Balanced → (calls.foldl Ledger.call ledger).Balanced from
    kept _ (start_balanced rules)
  induction calls with
  | nil => exact fun _ balanced => balanced
  | cons call calls ih => exact fun _ balanced => ih _ (balanced.call call)

theorem Balanced.accepted_ticks_nodup {ledger : Ledger} (balanced : ledger.Balanced) :
    (ledger.accepted.map (·.1)).Nodup :=
  (balanced.settled.map (·.1)).nodup_iff.mp (ticks_nodup_of_ascending balanced.ascending)

/-- What left for a tick is what was first accepted for it. -/
theorem Balanced.find?_accepted {ledger : Ledger} (balanced : ledger.Balanced) {entry : Tick × Keys}
    (member : entry ∈ ledger.released) :
    ledger.accepted.find? (·.1 = entry.1) = some entry := by
  have known : entry ∈ ledger.accepted :=
    balanced.settled.mem_iff.mp (List.mem_append_left _ member)
  obtain ⟨before, after, split⟩ := List.append_of_mem known
  refine List.find?_eq_some_iff_append.mpr ⟨by simp, before, after, split, ?_⟩
  intro earlier early
  have distinct := balanced.accepted_ticks_nodup
  rw [split, List.map_append, List.nodup_append] at distinct
  simpa using distinct.2.2 earlier.1 (List.mem_map_of_mem early) entry.1 (by simp)

theorem Balanced.held_or_released {ledger : Ledger} (balanced : ledger.Balanced)
    {entry : Tick × Keys} (member : entry ∈ ledger.accepted) :
    entry ∈ ledger.sequencer.pending ∧ entry ∉ ledger.released ∨
      entry ∉ ledger.sequencer.pending ∧ ledger.released.count entry = 1 := by
  obtain ⟨sorted, -, apart⟩ := List.pairwise_append.mp balanced.ascending
  have never : entry ∈ ledger.released → entry ∉ ledger.sequencer.pending := fun out held =>
    UInt64.lt_irrefl _ (apart entry out entry held)
  rcases List.mem_append.mp (balanced.settled.mem_iff.mpr member) with out | held
  · refine Or.inr ⟨never out, ?_⟩
    have distinct : ledger.released.Nodup :=
      List.Pairwise.of_map (·.1) (fun _ _ apart same => apart (congrArg Prod.fst same))
        (ticks_nodup_of_ascending sorted)
    have atMost := List.nodup_iff_count.mp distinct entry
    have atLeast := List.count_pos_iff.mpr out
    omega
  · exact Or.inl ⟨held, fun out => never out held⟩

theorem release_leaves_later (ledger : Ledger) (tick : Tick) {entry : Tick × Keys}
    (member : entry ∈ (ledger.release tick).sequencer.pending) : tick < entry.1 := by
  unfold Ledger.release at member
  rw [release_pending] at member
  simpa using (List.mem_filter.mp member).2

/-- Whatever run of calls: inputs leave in strictly ascending order of their ticks; each is the one
that was first accepted for its tick; each accepted one is either held or has left once; and nothing
due is held behind a release. -/
theorem run_releases_in_order (rules : SequencerRules) (calls : List Call) :
    (run rules calls).released.Pairwise (fun earlier later => earlier.1 < later.1) ∧
    (∀ entry ∈ (run rules calls).released,
      (run rules calls).accepted.find? (·.1 = entry.1) = some entry) ∧
    (∀ entry ∈ (run rules calls).accepted,
      entry ∈ (run rules calls).sequencer.pending ∧ entry ∉ (run rules calls).released ∨
      entry ∉ (run rules calls).sequencer.pending ∧ (run rules calls).released.count entry = 1) ∧
    ∀ tick, ∀ entry ∈ (run rules (calls ++ [.release tick])).sequencer.pending, tick < entry.1 := by
  have balanced := run_balanced rules calls
  refine ⟨(List.pairwise_append.mp balanced.ascending).1, fun _ => balanced.find?_accepted,
    fun _ => balanced.held_or_released, ?_⟩
  intro tick entry member
  have unfolded : run rules (calls ++ [.release tick]) = (run rules calls).release tick := by
    simp only [run, List.foldl_append, List.foldl_cons, List.foldl_nil, call]
  rw [unfolded] at member
  exact release_leaves_later _ tick member

end Ledger

end Sequencer

end Overworld
