import Overworld.Client.Clock
import Overworld.Client.Predictor
import Overworld.Client.Replicas

set_option autoImplicit false

/-!
A client of the game. It takes the server's messages, steps its own entity once per local tick, and
leaves what it has to say in an outbox: its keys when they changed or are in doubt, and else a sign
of life.
-/

namespace Overworld

structure PlayerRules where
  clock : ClockRules
  gait : Gait
  dt : Single
  /-- Ticks of keys kept for replay. -/
  historyLength : Nat
deriving DecidableEq

def PlayerRules.standard : PlayerRules :=
  ⟨.standard, .standard, standardStep, Predictor.standardHistory⟩

inductive PlayerState
  /-- The server has not answered yet. -/
  | connecting
  | playing
  | kicked (reason : String)
  /-- The clock is of no more use; the client has asked to leave. -/
  | faulted (error : ClockError)
  | disconnected
deriving DecidableEq

inductive PlayerError
  | clock (error : ClockError)
  | chunk (position : ChunkPosition) (error : PaletteError)
  | kicked (reason : String)
deriving DecidableEq

def PlayerError.message : PlayerError → String
  | .clock error => error.message
  | .chunk position error =>
    "Corrupt chunk ChunkPosition \x7b x: " ++ toString position.x.toInt ++ ", y: " ++
      toString position.y.toInt ++ " \x7d: " ++ error.message
  | .kicked reason => "Kicked by server: " ++ reason

structure Player where
  state : PlayerState
  clock : Clock
  predictor : Predictor
  replicas : Replicas
  chunks : Std.HashMap ChunkPosition (List (List TileId))
  /-- The client's own entity. -/
  entity : Option EntityId
  /-- The keys held from the next tick on. -/
  keys : Keys
  /-- The keys that the server was told last. -/
  lastSent : Keys
  /-- The tick for which it was told. -/
  lastRequest : Option Tick
  /-- The server is to be told again. -/
  resend : Bool
  outbox : Array ClientMessage

namespace Player

def ofRules (rules : PlayerRules) : Player where
  state := .connecting
  clock := .ofRules rules.clock
  predictor := .create rules.gait rules.dt rules.historyLength
  replicas := .empty
  chunks := ∅
  entity := none
  keys := .neutral
  lastSent := .neutral
  lastRequest := none
  resend := false
  outbox := #[]

def setKeys (player : Player) (keys : Keys) : Player := { player with keys }

def say (player : Player) (message : ClientMessage) : Player :=
  { player with outbox := player.outbox.push message }

/-- Takes everything there is to say. -/
def drainOutbox (player : Player) : List ClientMessage × Player :=
  (player.outbox.toList, { player with outbox := #[] })

/-- Joins the game; a second welcome is ignored. -/
def welcome (player : Player) (tick : Tick) (entity : EntityId) (spawn : Vec3) : Player :=
  if player.state = .connecting then
    { player with
      state := .playing
      clock := player.clock.synchronize tick
      predictor := player.predictor.reset (.atRest spawn)
      entity := some entity }
  else player

/-- A word on the own entity is a correction; one on another updates its replica. -/
def update (player : Player) (snapshot : Snapshot) : Player :=
  if player.entity = some snapshot.entity then
    let correction : Correction := ⟨snapshot.tick, snapshot.motion, snapshot.keys⟩
    { player with predictor := (player.predictor.queueCorrection correction).2 }
  else { player with replicas := (player.replicas.update? snapshot).getD player.replicas }

def enter (player : Player) (snapshot : Snapshot) : Player :=
  if player.entity = some snapshot.entity then player
  else { player with replicas := player.replicas.enter snapshot }

/-- Shifts the clock, and has the keys told again. A shift that is refused makes the client leave. -/
def adjust (player : Player) (delta : Int64) : Option PlayerError × Player :=
  match player.clock.adjust delta with
  | .ok clock => (none, { player with clock, resend := true })
  | .error error =>
    (some (.clock error), { player with state := .faulted error }.say .disconnect)

/-- Takes one message of the server; says what was wrong with it. -/
def handle (player : Player) : ServerMessage → Option PlayerError × Player
  | .connectionResponse tick entity spawn => (none, player.welcome tick entity spawn)
  | .entityUpdate snapshot => (none, player.update snapshot)
  | .entityEntered snapshot => (none, player.enter snapshot)
  | .entityLeft _ entity => (none, { player with replicas := player.replicas.leave entity })
  | .chunkData chunk =>
    match chunk.decompress with
    | .error error => (some (.chunk chunk.position error), player)
    | .ok layers => (none, { player with chunks := player.chunks.insert chunk.position layers })
  | .tickAdjustment delta => player.adjust delta
  | .kicked reason => (some (.kicked reason), { player with state := .kicked reason })

/-- The server held other keys than those it was told. -/
def isContradicted (player : Player) : Option Outcome → Bool
  | some (.replayed tick _ _ false) => player.lastRequest.all (· ≤ tick)
  | _ => false

/-- Says the keys of a tick, if they changed or are in doubt; else gives a sign of life. -/
def report (player : Player) (tick : Tick) : Player :=
  if player.resend ∨ player.keys ≠ player.lastSent then
    { player.say (.input tick player.keys) with
      lastSent := player.keys
      lastRequest := some tick
      resend := false }
  else player.say (.heartbeat tick)

/-- One local step: corrects, predicts, and reports. -/
def step (player : Player) : Option Outcome × Player :=
  if player.state = .playing then
    let (outcome, predictor) := player.predictor.reconcile
    let clock := player.clock.advance
    let stepped :=
      { player with
        clock
        predictor := predictor.predict clock.tick player.keys
        resend := player.resend || player.isContradicted outcome }
    (outcome, stepped.report clock.tick)
  else (none, player)

/-- Leaves, if the client is in the game or about to join. -/
def leave (player : Player) : Player :=
  if player.state = .connecting ∨ player.state = .playing then
    { player with state := .disconnected }.say .disconnect
  else player

end Player

end Overworld
