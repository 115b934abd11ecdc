import Overworld.Server.Settings

set_option autoImplicit false

/-!
Settings that were loaded, against the check of settings. Every variable is accepted only with a value
that the check accepts for its field, so the fields of loaded settings are right one by one, and only
what the check asks of two fields together can be wrong.
-/

namespace Overworld

namespace Settings

/-- What the check asks of one field at a time. -/
structure FieldsFit (settings : Settings) : Prop where
  port : settings.port ≠ 0
  tickRate : isTickRate settings.tickRate = true
  measures : ∀ measure ∈ settings.measures, isPositive measure.2 = true
  viewAnchor : settings.viewAnchor.isFinite = true
  chunkTiles : isChunkTiles settings.chunkTiles = true
  inputMinLead : 0 ≤ settings.inputMinLead
  maxConnections : settings.maxConnections ≠ 0

variable {settings : Settings}

/-- With every field right, the two bounds of the window and the timeout against a tick are left to
check. -/
theorem FieldsFit.fault?_eq (fit : settings.FieldsFit) :
    settings.fault? =
      if settings.inputMaxLead < settings.inputMinLead then
        some (.leadWindow settings.inputMinLead settings.inputMaxLead)
      else if settings.timeoutMs < settings.tickMs then
        some (.timeout settings.timeoutMs settings.tickMs)
      else none := by
  have least : ¬ settings.inputMinLead < 0 := Int64.not_lt.mpr fit.inputMinLead
  unfold fault?
  rw [List.find?_eq_none.mpr fun measure member => by simp [fit.measures measure member]]
  simp [fit.port, fit.tickRate, fit.viewAnchor, fit.chunkTiles, fit.maxConnections, least]

/-- Settings without a fault have every field right, a window that is not empty, and a timeout of a tick
or more. -/
theorem fault?_eq_none_iff :
    settings.fault? = none ↔ settings.FieldsFit ∧ settings.inputMinLead ≤ settings.inputMaxLead ∧
      settings.tickMs ≤ settings.timeoutMs := by
  constructor
  · intro valid
    unfold fault? at valid
    repeat' split at valid
    all_goals cases valid
    rename_i port tickRate _ measures viewAnchor chunkTiles window maxConnections timeout
    obtain ⟨least, ordered⟩ := not_or.mp window
    simp only [Bool.not_eq_true, Bool.not_eq_false'] at tickRate viewAnchor chunkTiles
    refine ⟨⟨port, tickRate, fun measure member => ?_, viewAnchor, chunkTiles, Int64.not_lt.mp least,
      maxConnections⟩, Int64.not_lt.mp ordered, Nat.not_lt.mp timeout⟩
    simpa using List.find?_eq_none.mp measures measure member
  · rintro ⟨fit, ordered, enough⟩
    rw [fit.fault?_eq, if_neg (Int64.not_lt.mpr ordered), if_neg (Nat.not_lt.mpr enough)]

section

variable {α : Type} {lookup : String → Option String} {name : String}
  {read : List Char → Option α} {accept : α → Bool}

theorem setting?_eq_some_iff {value : α} :
    setting? lookup name read accept = some value ↔
      ∃ raw, lookup name = some raw ∧ read (trimBlank raw.toList) = some value ∧
        accept value = true := by
  unfold setting?
  cases lookup name with
  | none => simp
  | some raw => simp [Option.filter_eq_some_iff]

/-- What a field takes is accepted if its standard value is. -/
theorem accept_getD_setting? {otherwise : α} (standard : accept otherwise = true) :
    accept ((setting? lookup name read accept).getD otherwise) = true := by
  cases given : setting? lookup name read accept with
  | none => exact standard
  | some value =>
      obtain ⟨_, -, -, accepted⟩ := setting?_eq_some_iff.mp given
      exact accepted

end

/-- A variable: how it is read, which values it may have, and the field that it sets. -/
structure Variable where
  {Value : Type}
  name : String
  read : List Char → Option Value
  accepts : Value → Bool
  field : Settings → Value

namespace Variable

/-- The variable is there, its text without outer blanks reads as this value, and it may have it. -/
def Gives (source : Variable) (lookup : String → Option String) (value : source.Value) : Prop :=
  ∃ raw, lookup source.name = some raw ∧ source.read (trimBlank raw.toList) = some value ∧
    source.accepts value = true

/-- The field has the value that the variable gives, and its standard value where it gives none. -/
structure Decides (source : Variable) (lookup : String → Option String) : Prop where
  given : ∀ value, source.Gives lookup value → source.field (ofLookup lookup) = value
  otherwise : (∀ value, ¬ source.Gives lookup value) →
    source.field (ofLookup lookup) = source.field standard

/-- What the variable gives is all that the field is made of. -/
def IsSource (source : Variable) : Prop :=
  ∀ lookup, source.field (ofLookup lookup) =
    (setting? lookup source.name source.read source.accepts).getD (source.field standard)

theorem IsSource.decides {source : Variable} (isSource : source.IsSource)
    (lookup : String → Option String) : source.Decides lookup where
  given value gives := by
    rw [isSource, setting?_eq_some_iff.mpr gives]
    rfl
  otherwise none := by
    have absent : setting? lookup source.name source.read source.accepts = .none :=
      Option.eq_none_iff_forall_ne_some.mpr fun value given =>
        none value (setting?_eq_some_iff.mp given)
    rw [isSource, absent]
    rfl

/-- No other variable has a say. -/
theorem IsSource.field_congr {source : Variable} (isSource : source.IsSource)
    {lookup other : String → Option String} (same : other source.name = lookup source.name) :
    source.field (ofLookup other) = source.field (ofLookup lookup) := by
  rw [isSource, isSource]
  unfold setting?
  rw [same]

end Variable

/-- All variables. -/
def sources : List Variable :=
  [⟨"BIND_ADDRESS", IpAddress.ofText?, fun _ => true, bindAddress⟩,
    ⟨"PORT", word16?, (0 < ·), port⟩,
    ⟨"TICK_RATE", word32?, isTickRate, tickRate⟩,
    ⟨"GRID_CELL_SIZE", Reading.single?, isPositive, gridCellSize⟩,
    ⟨"AOI_WIDTH", Reading.single?, isPositive, viewWidth⟩,
    ⟨"AOI_HEIGHT", Reading.single?, isPositive, viewHeight⟩,
    ⟨"AOI_ANCHOR", anchor?, fun _ => true, viewAnchor⟩,
    ⟨"TILE_SIZE", Reading.single?, isPositive, tileSize⟩,
    ⟨"CHUNK_TILES", word32?, isChunkTiles, chunkTiles⟩,
    ⟨"INPUT_MIN_LEAD", lead?, (0 ≤ ·), inputMinLead⟩,
    ⟨"INPUT_MAX_LEAD", lead?, (0 ≤ ·), inputMaxLead⟩,
    ⟨"CONNECTION_TIMEOUT_MS", count?, (0 < ·), timeoutMs⟩,
    ⟨"MAX_CONNECTIONS", count?, (0 < ·), maxConnections⟩,
    ⟨"METRICS_PORT", word16?, (0 < ·), metricsPort⟩,
    ⟨"NPC_COUNT", count?, fun _ => true, npcCount⟩]

theorem isSource_of_mem {source : Variable} (member : source ∈ sources) : source.IsSource := by
  intro lookup
  simp only [sources, List.mem_cons, List.not_mem_nil, or_false] at member
  rcases member with rfl | rfl | rfl | rfl | rfl | rfl | rfl | rfl | rfl | rfl | rfl | rfl | rfl |
    rfl | rfl <;> rfl

/-- The seed of the world apart, the table leaves no field out. -/
theorem eq_of_sources {a b : Settings}
    (same : ∀ source ∈ sources, source.field a = source.field b)
    (seed : a.worldSeed = b.worldSeed) : a = b := by
  simp only [sources, List.forall_mem_cons] at same
  obtain ⟨⟩ := a
  obtain ⟨⟩ := b
  simp_all

theorem isFinite_of_corner? {text : List Char} {anchor : Anchor}
    (isCorner : Anchor.corner? text = some anchor) : anchor.isFinite = true := by
  unfold Anchor.corner? at isCorner
  split at isCorner
  · cases isCorner
  · simp only [Option.bind_eq_bind, Option.bind_eq_some_iff] at isCorner
    obtain ⟨x, -, y, -, chosen⟩ := isCorner
    split at chosen
    · rename_i finite
      cases chosen
      exact finite
    · cases chosen

/-- An anchor is never read with a coordinate that is no number. -/
theorem isFinite_of_anchor? {text : List Char} {anchor : Anchor} (isRead : anchor? text = some anchor) :
    anchor.isFinite = true := by
  unfold anchor? Anchor.ofText at isRead
  dsimp only at isRead
  split at isRead
  · cases isRead
    rfl
  · split at isRead
    · rename_i isCorner
      cases isRead
      exact isFinite_of_corner? isCorner
    · cases isRead

theorem isFinite_viewAnchor_ofLookup (lookup : String → Option String) :
    (ofLookup lookup).viewAnchor.isFinite = true := by
  have value : (ofLookup lookup).viewAnchor =
      (setting? lookup "AOI_ANCHOR" anchor? fun _ => true).getD .centered := rfl
  rw [value]
  cases given : setting? lookup "AOI_ANCHOR" anchor? fun _ => true with
  | none => rfl
  | some anchor =>
      obtain ⟨_, -, isRead, -⟩ := setting?_eq_some_iff.mp given
      exact isFinite_of_anchor? isRead

theorem fieldsFit_ofLookup (lookup : String → Option String) : (ofLookup lookup).FieldsFit where
  port := by
    have positive := @accept_getD_setting? _ lookup "PORT" word16? (0 < ·) standard.port (by decide)
    exact (UInt16.ne_of_lt (of_decide_eq_true positive)).symm
  tickRate := accept_getD_setting? (by decide)
  measures := by
    simp only [measures, List.forall_mem_cons]
    exact ⟨accept_getD_setting? (by decide), accept_getD_setting? (by decide),
      accept_getD_setting? (by decide), accept_getD_setting? (by decide), fun _ => nofun⟩
  viewAnchor := isFinite_viewAnchor_ofLookup lookup
  chunkTiles := accept_getD_setting? (by decide)
  inputMinLead := by
    have nonnegative := @accept_getD_setting? _ lookup "INPUT_MIN_LEAD" lead? (0 ≤ ·)
      standard.inputMinLead (by decide)
    exact of_decide_eq_true nonnegative
  maxConnections := by
    have positive := @accept_getD_setting? _ lookup "MAX_CONNECTIONS" count? (0 < ·)
      standard.maxConnections (by decide)
    exact Nat.ne_of_gt (of_decide_eq_true positive)

theorem inputMaxLead_ofLookup_nonneg (lookup : String → Option String) :
    0 ≤ (ofLookup lookup).inputMaxLead := by
  have nonnegative := @accept_getD_setting? _ lookup "INPUT_MAX_LEAD" lead? (0 ≤ ·)
    standard.inputMaxLead (by decide)
  exact of_decide_eq_true nonnegative

/-- Whatever the variables hold, settings loaded from them are without a fault, or their window of leads
is empty between two bounds that are each right, or their timeout is shorter than a tick: never is a
single field at fault. Each field has the value that its own variable gives, or its standard value where
that gives none, and no other variable has a say in it; only the seed of the world has none. -/
theorem ofLookup_faults_across_fields (lookup : String → Option String) :
    ((ofLookup lookup).fault? = none ∨
      (∃ least greatest, (ofLookup lookup).fault? = some (.leadWindow least greatest) ∧
        0 ≤ least ∧ 0 ≤ greatest ∧ greatest < least) ∨
      ∃ timeoutMs tickMs, (ofLookup lookup).fault? = some (.timeout timeoutMs tickMs) ∧
        timeoutMs < tickMs) ∧
    (∀ source ∈ sources, source.Decides lookup ∧
      ∀ other, other source.name = lookup source.name →
        source.field (ofLookup other) = source.field (ofLookup lookup)) ∧
    ∀ settings : Settings, settings.worldSeed = standard.worldSeed →
      (∀ source ∈ sources, source.field settings = source.field (ofLookup lookup)) →
      settings = ofLookup lookup := by
  refine ⟨?_, fun source member => ?_, fun settings seed same => eq_of_sources same seed⟩
  · have fit := fieldsFit_ofLookup lookup
    rw [fit.fault?_eq]
    by_cases empty : (ofLookup lookup).inputMaxLead < (ofLookup lookup).inputMinLead
    · rw [if_pos empty]
      exact Or.inr (Or.inl ⟨_, _, rfl, fit.inputMinLead, inputMaxLead_ofLookup_nonneg lookup, empty⟩)
    · rw [if_neg empty]
      by_cases short : (ofLookup lookup).timeoutMs < (ofLookup lookup).tickMs
      · rw [if_pos short]
        exact Or.inr (Or.inr ⟨_, _, rfl, short⟩)
      · exact Or.inl (if_neg short)
  · have isSource := isSource_of_mem member
    exact ⟨isSource.decides lookup, fun other => isSource.field_congr⟩

/-- Tiles of eight units, a view without end, and inputs that have to be nine ticks ahead. -/
def crossedVariables (name : String) : Option String :=
  if name = "TILE_SIZE" then some " 8 "
  else if name = "AOI_WIDTH" then some "inf"
  else if name = "INPUT_MIN_LEAD" then some "9"
  else none

/-- The blanks are no harm, a view without end is not accepted, and nine is more than the greatest lead
that stays as it was. -/
theorem crossed_variables_load :
    (ofLookup crossedVariables).tileSize = ⟨0x41000000⟩ ∧
    (ofLookup crossedVariables).viewWidth = standard.viewWidth ∧
    (ofLookup crossedVariables).fault? = some (.leadWindow 9 3) := by
  obtain ⟨-, fields, -⟩ := ofLookup_faults_across_fields crossedVariables
  have tileSize := (fields ⟨"TILE_SIZE", Reading.single?, isPositive, tileSize⟩
    (by simp [sources])).1.given ⟨0x41000000⟩ ⟨" 8 ", rfl, by decide +kernel, by decide +kernel⟩
  have viewWidth := (fields ⟨"AOI_WIDTH", Reading.single?, isPositive, viewWidth⟩
    (by simp [sources])).1.otherwise (by
      rintro value ⟨raw, isRaw, isRead, accepted⟩
      cases isRaw
      have infinite : Reading.single? (trimBlank "inf".toList) = some .infinity := by decide +kernel
      cases infinite.symm.trans isRead
      cases accepted)
  have fault : (ofLookup crossedVariables).fault? = some (.leadWindow 9 3) := by decide +kernel
  exact ⟨tileSize, viewWidth, fault⟩

end Settings

end Overworld
