import Overworld.Address
import Overworld.Server.Interest
import Overworld.Server.Sequencer
import Overworld.Server.Streamer

set_option autoImplicit false

/-!
The settings of a server: their standard values, their reading from named variables, and the check
that they fit together. A variable that is malformed or out of range leaves its setting as it is by
default, whatever the other variables hold.
-/

namespace Overworld

structure Settings where
  bindAddress : IpAddress
  port : UInt16
  /-- Ticks per second. -/
  tickRate : UInt32
  /-- Side of a cell of the spatial index. -/
  gridCellSize : Single
  viewWidth : Single
  viewHeight : Single
  viewAnchor : Anchor
  tileSize : Single
  /-- Tiles to a side of a chunk. -/
  chunkTiles : UInt32
  inputMinLead : Int64
  inputMaxLead : Int64
  /-- Milliseconds of silence after which a connection is dropped. -/
  timeoutMs : Nat
  maxConnections : Nat
  metricsPort : UInt16
  /-- Entities on patrol from the start. -/
  npcCount : Nat
  worldSeed : UInt64
deriving DecidableEq

inductive SettingsError
  | zeroPort
  | tickRate (rate : UInt32)
  | notPositive (name : String) (value : Single)
  | anchorNotFinite (anchor : Anchor)
  | chunkTiles (tiles : UInt32)
  | leadWindow (least greatest : Int64)
  | zeroConnections
  | timeout (timeoutMs tickMs : Nat)
deriving DecidableEq

def SettingsError.message : SettingsError → String
  | .zeroPort => "Port cannot be 0"
  | .tickRate rate => "Tick rate must be 1-240, got " ++ toString rate.toNat
  | .notPositive name value =>
    name ++ " must be a positive finite number, got " ++ value.text .plain
  | .anchorNotFinite anchor => "Fixed AOI anchor must be finite, got " ++ anchor.text
  | .chunkTiles tiles => "chunk_tiles must be 1-256, got " ++ toString tiles.toNat
  | .leadWindow least greatest =>
    "Input lead window [" ++ toString least.toInt ++ ", " ++ toString greatest.toInt ++
      "] is empty or starts below 0"
  | .zeroConnections => "max_connections must be at least 1"
  | .timeout timeoutMs tickMs =>
    "Connection timeout must be at least one tick (" ++ toString tickMs ++ "ms), got " ++
      toString timeoutMs ++ "ms"

namespace Settings

def standard : Settings where
  bindAddress := .v4 #v[0, 0, 0, 0]
  port := 4433
  tickRate := 30
  gridCellSize := CellSize.standard.width
  viewWidth := InterestRules.standard.width
  viewHeight := InterestRules.standard.height
  viewAnchor := .centered
  tileSize := StreamRules.standard.tileSize
  chunkTiles := StreamRules.standard.chunkTiles
  inputMinLead := SequencerRules.standard.minLead
  inputMaxLead := SequencerRules.standard.maxLead
  timeoutMs := 10000
  maxConnections := 256
  metricsPort := 9090
  npcCount := 32
  worldSeed := 0x71172ea1

def isPositive (value : Single) : Bool := value.isFinite && Single.zero < value

def isTickRate (rate : UInt32) : Bool := 1 ≤ rate && rate ≤ 240

def isChunkTiles (tiles : UInt32) : Bool := 1 ≤ tiles && tiles ≤ 256

/-- What a variable sets: its value without outer blanks, if it can be read and is acceptable. -/
def setting? {α : Type} (lookup : String → Option String) (name : String)
    (read : List Char → Option α) (accept : α → Bool) : Option α :=
  match lookup name with
  | none => none
  | some raw => (read (trimBlank raw.toList)).filter accept

def word16? (text : List Char) : Option UInt16 := (Reading.natural? 65535 text).map Nat.toUInt16

def word32? (text : List Char) : Option UInt32 :=
  (Reading.natural? 4294967295 text).map Nat.toUInt32

def count? (text : List Char) : Option Nat := Reading.natural? 18446744073709551615 text

def lead? (text : List Char) : Option Int64 :=
  (Reading.integer? (-9223372036854775808) 9223372036854775807 text).map Int64.ofInt

def anchor? (text : List Char) : Option Anchor := (Anchor.ofText (String.ofList text)).toOption

/-- The settings that a source of variables gives. The seed of the world is none of them. -/
def ofLookup (lookup : String → Option String) : Settings :=
  let positive (name : String) (otherwise : Single) : Single :=
    (setting? lookup name Reading.single? isPositive).getD otherwise
  let port (name : String) (otherwise : UInt16) : UInt16 :=
    (setting? lookup name word16? (0 < ·)).getD otherwise
  let lead (name : String) (otherwise : Int64) : Int64 :=
    (setting? lookup name lead? (0 ≤ ·)).getD otherwise
  { bindAddress := (setting? lookup "BIND_ADDRESS" IpAddress.ofText? fun _ => true).getD
      standard.bindAddress
    port := port "PORT" standard.port
    tickRate := (setting? lookup "TICK_RATE" word32? isTickRate).getD standard.tickRate
    gridCellSize := positive "GRID_CELL_SIZE" standard.gridCellSize
    viewWidth := positive "AOI_WIDTH" standard.viewWidth
    viewHeight := positive "AOI_HEIGHT" standard.viewHeight
    viewAnchor := (setting? lookup "AOI_ANCHOR" anchor? fun _ => true).getD standard.viewAnchor
    tileSize := positive "TILE_SIZE" standard.tileSize
    chunkTiles := (setting? lookup "CHUNK_TILES" word32? isChunkTiles).getD standard.chunkTiles
    inputMinLead := lead "INPUT_MIN_LEAD" standard.inputMinLead
    inputMaxLead := lead "INPUT_MAX_LEAD" standard.inputMaxLead
    timeoutMs := (setting? lookup "CONNECTION_TIMEOUT_MS" count? (0 < ·)).getD standard.timeoutMs
    maxConnections := (setting? lookup "MAX_CONNECTIONS" count? (0 < ·)).getD
      standard.maxConnections
    metricsPort := port "METRICS_PORT" standard.metricsPort
    npcCount := (setting? lookup "NPC_COUNT" count? fun _ => true).getD standard.npcCount
    worldSeed := standard.worldSeed }

/-- Ticks per second, at least one. -/
def ticksPerSecond (settings : Settings) : Nat := max settings.tickRate.toNat 1

/-- Seconds in a tick. -/
def dt (settings : Settings) : Single := .one / .ofNat settings.ticksPerSecond

/-- Whole microseconds in a tick. -/
def tickUs (settings : Settings) : Nat := 1000000 / settings.ticksPerSecond

/-- Whole milliseconds in a tick. -/
def tickMs (settings : Settings) : Nat := settings.tickUs / 1000

def timeoutUs (settings : Settings) : Nat := settings.timeoutMs * 1000

/-- An empty index with the cells of the settings. -/
def grid (settings : Settings) : Grid := .ofSize ⟨settings.gridCellSize, settings.gridCellSize⟩

def sequencerRules (settings : Settings) : SequencerRules :=
  { SequencerRules.standard with
    minLead := settings.inputMinLead
    maxLead := settings.inputMaxLead }

def interestRules (settings : Settings) : InterestRules :=
  ⟨settings.viewWidth, settings.viewHeight, settings.viewAnchor⟩

def streamRules (settings : Settings) : StreamRules :=
  .forView settings.viewWidth settings.viewHeight settings.tileSize settings.chunkTiles

/-- The settings that have to be positive, by name. -/
def measures (settings : Settings) : List (String × Single) :=
  [("grid_cell_size", settings.gridCellSize), ("aoi_width", settings.viewWidth),
    ("aoi_height", settings.viewHeight), ("tile_size", settings.tileSize)]

/-- The first thing wrong with the settings. -/
def fault? (settings : Settings) : Option SettingsError :=
  if settings.port = 0 then some .zeroPort
  else if !isTickRate settings.tickRate then some (.tickRate settings.tickRate)
  else match settings.measures.find? fun (_, value) => !isPositive value with
  | some (name, value) => some (.notPositive name value)
  | none =>
    if !settings.viewAnchor.isFinite then some (.anchorNotFinite settings.viewAnchor)
    else if !isChunkTiles settings.chunkTiles then some (.chunkTiles settings.chunkTiles)
    else if settings.inputMinLead < 0 ∨ settings.inputMaxLead < settings.inputMinLead then
      some (.leadWindow settings.inputMinLead settings.inputMaxLead)
    else if settings.maxConnections = 0 then some .zeroConnections
    else if settings.timeoutMs < settings.tickMs then
      some (.timeout settings.timeoutMs settings.tickMs)
    else none

end Settings

end Overworld
