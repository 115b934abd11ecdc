import Overworld.Client.Player
import Overworld.Loopback
import Overworld.Server.Loop
import Overworld.Server.Report
import Overworld.Terrain.Generated
import Overworld.Wire.Frame
import Overworld.Proofs.Sequencer.Ledger
import Overworld.Proofs.Sequencer.Calm
import Overworld.Proofs.Prediction.Lag
import Overworld.Proofs.LockStep.Run
import Overworld.Proofs.Session.Exactness
import Overworld.Proofs.Session.Conversation
import Overworld.Proofs.Streaming.Run
import Overworld.Proofs.Delivery.Rounds
import Overworld.Proofs.Wire.Messages
import Overworld.Proofs.Grid.Search
import Overworld.Proofs.Session.Punctuality
import Overworld.Proofs.Client.Shift
import Overworld.Proofs.Session.Impartiality
import Overworld.Proofs.Client.Farewell
import Overworld.Proofs.Sequencer.Spacing
import Overworld.Proofs.Bookkeeping.Run
import Overworld.Proofs.Streaming.Copies
import Overworld.Proofs.World.Register
import Overworld.Proofs.World.Finiteness
import Overworld.Proofs.World.Patrol
import Overworld.Proofs.Metrics.Window
import Overworld.Proofs.Terrain.Partition
import Overworld.Proofs.Streaming.Coverage
import Overworld.Proofs.Session.Freshness
import Overworld.Proofs.Session.Frames
import Overworld.Proofs.Terrain.Minimality
import Overworld.Proofs.Prediction.Replay
import Overworld.Proofs.Prediction.Precedence
import Overworld.Proofs.Wire.Framing
import Overworld.Proofs.Settings.Fields
import Overworld.Proofs.Sequencer.Range
import Overworld.Proofs.Streaming.Range
import Overworld.Proofs.Motion.Streaks
import Overworld.Proofs.Session.Backlog
