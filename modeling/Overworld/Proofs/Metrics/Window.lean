import Overworld.Proofs.Metrics.Shares

set_option autoImplicit false

/-!
Metrics of a whole run. Whatever else is counted in between, the window holds the latest tick times,
and from the tenth one on the statistics describe it.
-/

namespace Overworld

/-- Counters that tick times alone are recorded in. -/
def Counter.isOfTicks : Counter → Bool
  | tickTime | tickTimeP95 | tickTimeP99 | tickTimeMax | tickCount => true
  | _ => false

namespace Metrics

/-- Three statistics of a window of tick times: two members that their share of the window lies at or
below, and the greatest one. -/
structure Describe (p95 p99 most : UInt64) (window : List UInt64) : Prop where
  max_mem : most ∈ window
  le_max : ∀ time ∈ window, time ≤ most
  mem95 : p95 ∈ window
  mem99 : p99 ∈ window
  order : p95 ≤ p99
  covers95 : 95 * window.length ≤ 100 * window.countP (· ≤ p95)
  covers99 : 99 * window.length ≤ 100 * window.countP (· ≤ p99)

theorem sampleAt_describe {window : List UInt64} (some : 0 < window.length)
    (short : window.length ≤ windowLength) :
    Describe (sampleAt window (placeOfShare share95 window.length))
      (sampleAt window (placeOfShare share99 window.length))
      (sampleAt window (window.length - 1)) window := by
  have inside95 := placeOfShare_lt share95 some
  have inside99 := placeOfShare_lt share99 some
  have counted95 := succ_le_countP inside95
  have counted99 := succ_le_countP inside99
  obtain ⟨enough95, enough99⟩ := placeOfShare_covers some short
  have fewer : window.length < 16777216 := by
    unfold windowLength at short
    omega
  have order := isShare_share95.placeOfShare_mono isShare_share99 (by decide) fewer
  constructor
  · exact sampleAt_mem (by omega)
  · intro time member
    exact le_sampleAt_last member
  · exact sampleAt_mem inside95
  · exact sampleAt_mem inside99
  · exact sampleAt_mono order inside99
  · omega
  · omega

/-- The order of the samples does not matter. -/
theorem Describe.of_perm {p95 p99 most : UInt64} {window other : List UInt64}
    (described : Describe p95 p99 most window) (permuted : window.Perm other) :
    Describe p95 p99 most other where
  max_mem := permuted.mem_iff.mp described.max_mem
  le_max time member := described.le_max time (permuted.mem_iff.mpr member)
  mem95 := permuted.mem_iff.mp described.mem95
  mem99 := permuted.mem_iff.mp described.mem99
  order := described.order
  covers95 := by
    rw [← permuted.length_eq, ← permuted.countP_eq]
    exact described.covers95
  covers99 := by
    rw [← permuted.length_eq, ← permuted.countP_eq]
    exact described.covers99

/-- What is entered into metrics: the time of a tick, or what stands in any other counter. -/
inductive Entry
  | tickTime (microseconds : UInt64)
  | store (counter : Counter) (value : UInt64) (elsewhere : counter.isOfTicks = false)

def Entry.time? : Entry → Option UInt64
  | .tickTime microseconds => some microseconds
  | .store .. => none

def enter (metrics : Metrics) : Entry → Metrics
  | .tickTime microseconds => metrics.recordTickTime microseconds
  | .store counter value _ => metrics.set counter value

def run (entries : List Entry) : Metrics := entries.foldl enter zero

/-- The tick times of the rolling window, oldest first. -/
def recent (times : List UInt64) : List UInt64 := times.drop (times.length - windowLength)

theorem length_recent (times : List UInt64) :
    (recent times).length = min times.length windowLength := by
  rw [recent, List.length_drop]
  omega

theorem take_recent (times : List UInt64) (latest : UInt64) :
    (latest :: (recent times).reverse).take windowLength =
      (recent (times ++ [latest])).reverse := by
  have newest : ∀ samples, (recent samples).reverse = samples.reverse.take windowLength :=
    fun _ => List.take_reverse.symm
  rw [newest, newest, List.reverse_append, windowLength]
  simp [List.take_take]

/-- What is there to tell after some tick times: nothing before the tenth. -/
def Tell (p95 p99 most : UInt64) (times : List UInt64) : Prop :=
  if times.length < fewestSamples then p95 = 0 ∧ p99 = 0 ∧ most = 0
  else Describe p95 p99 most (recent times)

/-- Metrics that have recorded some tick times. -/
structure Records (metrics : Metrics) (times : List UInt64) : Prop where
  count : metrics.get .tickCount = .ofNat times.length
  latest : metrics.get .tickTime = times.getLast?.getD 0
  window : metrics.window = (recent times).reverse
  statistics : Tell (metrics.get .tickTimeP95) (metrics.get .tickTimeP99)
    (metrics.get .tickTimeMax) times

variable {metrics : Metrics} {times : List UInt64}

theorem zero_records : zero.Records [] where
  count := by simp
  latest := by simp
  window := rfl
  statistics := by simp [Tell, fewestSamples]

theorem Records.set (records : metrics.Records times) {counter : Counter}
    (elsewhere : counter.isOfTicks = false) (value : UInt64) :
    (metrics.set counter value).Records times := by
  have kept : ∀ other : Counter, other.isOfTicks = true →
      (metrics.set counter value).get other = metrics.get other := by
    intro other ofTicks
    have apart : counter ≠ other := by
      rintro rfl
      rw [elsewhere] at ofTicks
      contradiction
    rw [get_set, if_neg apart]
  constructor
  · rw [kept .tickCount rfl, records.count]
  · rw [kept .tickTime rfl, records.latest]
  · exact records.window
  · rw [kept .tickTimeP95 rfl, kept .tickTimeP99 rfl, kept .tickTimeMax rfl]
    exact records.statistics

theorem get_summarize (metrics : Metrics) (counter : Counter) :
    metrics.summarize.get counter =
      let window := metrics.window
      match counter with
      | .tickTimeP95 => sampleAt window (placeOfShare share95 window.length)
      | .tickTimeP99 => sampleAt window (placeOfShare share99 window.length)
      | .tickTimeMax => sampleAt window (window.length - 1)
      | _ => metrics.get counter := by
  cases counter <;> simp [summarize, get_set, sampleAt]

/-- A tick time is counted and taken into the window before the statistics are looked at. -/
theorem recordTickTime_eq (metrics : Metrics) (microseconds : UInt64) :
    ∃ counted : Metrics, counted.window = (microseconds :: metrics.window).take windowLength ∧
      (∀ counter, counted.get counter =
        match counter with
        | .tickTime => microseconds
        | .tickCount => metrics.get .tickCount + 1
        | _ => metrics.get counter) ∧
      metrics.recordTickTime microseconds =
        if fewestSamples ≤ counted.window.length then counted.summarize else counted := by
  refine ⟨_, rfl, ?_, rfl⟩
  intro counter
  change ((metrics.set .tickTime microseconds).tally .tickCount).get counter = _
  cases counter <;> simp [tally, get_add, get_set]

theorem Records.recordTickTime (records : metrics.Records times) (microseconds : UInt64) :
    (metrics.recordTickTime microseconds).Records (times ++ [microseconds]) := by
  obtain ⟨counted, window, stand, equation⟩ := recordTickTime_eq metrics microseconds
  rw [records.window, take_recent] at window
  have length : counted.window.length = min (times.length + 1) windowLength := by
    rw [window, List.length_reverse, length_recent, List.length_append, List.length_singleton]
  have next : (times ++ [microseconds]).length = times.length + 1 := by simp
  have count : metrics.get .tickCount + 1 = .ofNat (times ++ [microseconds]).length := by
    rw [next, UInt64.ofNat_add, records.count]
    rfl
  have last : microseconds = (times ++ [microseconds]).getLast?.getD 0 := by simp
  have bounds : 0 < fewestSamples ∧ fewestSamples < windowLength := by decide
  rw [equation]
  by_cases enough : fewestSamples ≤ counted.window.length
  · rw [if_pos enough]
    constructor
    · rw [get_summarize, stand]
      exact count
    · rw [get_summarize, stand]
      exact last
    · exact window
    · have some : 0 < counted.window.length := by omega
      have described := sampleAt_describe some (by omega)
      rw [get_summarize, get_summarize, get_summarize, Tell, if_neg (by omega)]
      apply described.of_perm
      rw [window]
      exact List.reverse_perm _
  · rw [if_neg enough]
    constructor
    · rw [stand]
      exact count
    · rw [stand]
      exact last
    · exact window
    · have before := records.statistics
      rw [Tell, if_pos (by omega)] at before
      rw [stand, stand, stand, Tell, if_pos (by omega)]
      exact before

/-- Whatever else is entered, the metrics record the tick times of a run. -/
theorem run_records (entries : List Entry) : (run entries).Records (entries.filterMap Entry.time?) := by
  have keeps : ∀ (metrics : Metrics) (times : List UInt64), metrics.Records times →
      (entries.foldl enter metrics).Records (times ++ entries.filterMap Entry.time?) := by
    induction entries with
    | nil =>
        intro metrics times records
        simpa using records
    | cons entry rest ih =>
        intro metrics times records
        cases entry with
        | tickTime microseconds =>
            have later := ih _ _ (records.recordTickTime microseconds)
            rwa [List.append_assoc] at later
        | store counter value elsewhere => exact ih _ _ (records.set elsewhere value)
  exact keeps zero [] zero_records

/-- The statistics of the tick times describe the rolling window, with anything else counted among
them: the window is the last thousand of them. Before the tenth there are none, and from there on the
greatest of the window stands, with two of its members in order below it that no less than their share
of the window lies at or below. -/
theorem run_describes_window (entries : List Entry) :
    let times := entries.filterMap Entry.time?
    let window := times.drop (times.length - 1000)
    let metrics := run entries
    let p95 := metrics.get .tickTimeP95
    let p99 := metrics.get .tickTimeP99
    let most := metrics.get .tickTimeMax
    metrics.get .tickCount = .ofNat times.length ∧ metrics.get .tickTime = times.getLast?.getD 0 ∧
    (times.length < 10 → p95 = 0 ∧ p99 = 0 ∧ most = 0) ∧
    (10 ≤ times.length →
      (most ∈ window ∧ ∀ time ∈ window, time ≤ most) ∧
      (p95 ∈ window ∧ p99 ∈ window ∧ p95 ≤ p99 ∧ p99 ≤ most) ∧
      95 * window.length ≤ 100 * window.countP (· ≤ p95) ∧
      99 * window.length ≤ 100 * window.countP (· ≤ p99)) := by
  intro times window metrics p95 p99 most
  have records := run_records entries
  have statistics : if times.length < 10 then p95 = 0 ∧ p99 = 0 ∧ most = 0
      else Describe p95 p99 most window := records.statistics
  refine ⟨records.count, records.latest, ?_, ?_⟩
  · intro few
    rwa [if_pos few] at statistics
  · intro enough
    rw [if_neg (Nat.not_lt.mpr enough)] at statistics
    exact ⟨⟨statistics.max_mem, statistics.le_max⟩,
      ⟨statistics.mem95, statistics.mem99, statistics.order,
        statistics.le_max p99 statistics.mem99⟩,
      statistics.covers95, statistics.covers99⟩

end Metrics

end Overworld
