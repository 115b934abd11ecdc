import Overworld.Proofs.Session.Conversation
import Overworld.Proofs.Session.Steps
import Overworld.Proofs.Settings.Fields
import Overworld.Proofs.Streaming.Feed
import Overworld.Proofs.Terrain.Generated
import Overworld.Proofs.Wire.Sizes

set_option autoImplicit false

/-!
What a session over a generated map has for its clients goes into frames. Nothing checks this. Chunks
of up to 256 tiles to a side fill little more than half a frame because their layers have so few kinds
of tiles, and a reason to leave is short because its numbers are.
-/

namespace Overworld

/-- A chunk of a generated map, whatever the seed: two layers of at most four kinds of tiles, so two
bits for each tile. -/
theorem GeneratedMap.length_putChunk_le {map : GeneratedMap} (small : map.chunkTiles ≤ 256)
    (position : ChunkPosition) :
    (Wire.putChunk (.ofMap map.toTileMap position)).length ≤ 32842 := by
  have each : ∀ layer ∈ (ChunkData.ofMap map.toTileMap position).layers,
      (Wire.putLayer layer).length ≤ 16413 := by
    intro layer member
    obtain ⟨tiles, isLayer, rfl⟩ := List.mem_map.mp member
    have short := (isStorable_toTileMap small).tiles position tiles isLayer
    have few : tiles.eraseDups.length ≤ 2 ^ 2 := length_kinds_le isLayer
    have words : packedWords maxLayerTiles 2 = 2048 := by decide
    have long := Wire.length_putLayer_compress_le short few
    rw [words] at long
    exact long
  have layers : (ChunkData.ofMap map.toTileMap position).layers.length = 2 := rfl
  have long := Wire.length_putChunk_le each
  rw [layers] at long
  exact long

namespace ServerMessage

theorem fitsFrame_chunkData {map : GeneratedMap} (small : map.chunkTiles ≤ 256)
    (position : ChunkPosition) : (chunkData (.ofMap map.toTileMap position)).FitsFrame := by
  refine fitsFrame_of (fun chunk same => ?_) fun _ none => nomatch none
  cases same
  exact (GeneratedMap.length_putChunk_le small position).trans (by decide)

theorem fitsFrame_of_isFrom {map : GeneratedMap} (small : map.chunkTiles ≤ 256)
    {message : ServerMessage} (isFrom : message.IsFrom map.toTileMap) : message.FitsFrame := by
  cases message with
  | chunkData chunk =>
      obtain ⟨position, rfl⟩ := isFrom
      exact fitsFrame_chunkData small position
  | kicked reason => cases isFrom
  | _ => exact fitsFrame_of (fun _ none => nomatch none) fun _ none => nomatch none

end ServerMessage

theorem Settings.chunkTiles_le {settings : Settings} (valid : settings.fault? = none) :
    settings.chunkTiles ≤ 256 := by
  have accepted := (fault?_eq_none_iff.mp valid).1.chunkTiles
  unfold isChunkTiles at accepted
  rw [Bool.and_eq_true, decide_eq_true_eq, decide_eq_true_eq] at accepted
  exact accepted.2

namespace Session

theorem IsNotice.fitsFrame {message : ServerMessage}
    (notice : IsNotice ConnectionFault.IsMeasured message) : message.FitsFrame := by
  cases notice with
  | kicked fault measured => exact ServerMessage.fitsFrame_kicked measured
  | _ => exact ServerMessage.fitsFrame_of (fun _ none => nomatch none) fun _ none => nomatch none

/-- All that is queued goes into frames, and the map is what it was. -/
structure QueuesFrames (session : Session) (map : TileMap) : Prop where
  map_eq : session.map = map
  fits : ∀ client content, ⟨client, .message content⟩ ∈ session.outbound.toList →
    content.FitsFrame

variable {session next : Session} {map : GeneratedMap}

theorem QueuesFrames.append {map : TileMap} (queues : session.QueuesFrames map)
    {batch : List Outbound} (kept : next.map = session.map)
    (queued : next.outbound.toList = session.outbound.toList ++ batch)
    (fits : ∀ client content, ⟨client, .message content⟩ ∈ batch → content.FitsFrame) :
    next.QueuesFrames map where
  map_eq := kept.trans queues.map_eq
  fits client content member := by
    rw [queued] at member
    rcases List.mem_append.mp member with before | now
    · exact queues.fits client content before
    · exact fits client content now

theorem QueuesFrames.step {map : TileMap} (queues : session.QueuesFrames map)
    (step : Step ConnectionFault.IsMeasured session next) : next.QueuesFrames map := by
  cases step with
  | tell client message notice =>
      refine queues.append rfl (outbound_send ..) fun other content member => ?_
      cases List.mem_singleton.mp member
      exact notice.fitsFrame
  | close client =>
      refine queues.append rfl (outbound_close ..) fun other content member => ?_
      cases List.mem_singleton.mp member
  | drain => exact ⟨queues.map_eq, fun _ _ member => nomatch member⟩
  | _ => exact ⟨queues.map_eq, queues.fits⟩

theorem QueuesFrames.replicateFor (queues : session.QueuesFrames map.toTileMap)
    (small : map.chunkTiles ≤ 256) (client : ClientId) :
    (session.replicateFor client).QueuesFrames map.toTileMap := by
  cases found : session.connection? client with
  | none =>
      unfold Session.replicateFor
      rw [found]
      exact queues
  | some connection =>
      refine queues.append (session.follows_replicateFor client).map (frame_replicateFor found).2
        fun other content member => ?_
      obtain ⟨message, sent, same⟩ := List.mem_map.mp member
      cases same
      rw [queues.map_eq] at sent
      exact ServerMessage.fitsFrame_of_isFrom small
        (connection.isFrom_of_mem_replicate session.world map.toTileMap _ sent)

theorem QueuesFrames.replicate (queues : session.QueuesFrames map.toTileMap)
    (small : map.chunkTiles ≤ 256) (visiting : Visiting) :
    (session.replicate visiting).QueuesFrames map.toTileMap := by
  unfold Session.replicate
  generalize visiting.order .replicate session.clients = clients
  induction clients generalizing session with
  | nil => exact queues
  | cons client rest ih => exact ih (queues.replicateFor small client)

/-- The numbers in the action are such as a machine has: a time in milliseconds, and what a fault
tells. -/
def Action.IsMeasured : Action → Prop
  | .tick _ now => Wire.IsCountable (now / 1000)
  | .giveUp _ _ fault => fault.IsMeasured
  | _ => True

theorem Action.IsMeasured.allows {settings : Settings} {action : Action}
    (measured : action.IsMeasured) (countable : Wire.IsCountable settings.maxConnections) :
    action.Allows ConnectionFault.IsMeasured settings := by
  cases action with
  | tick visiting now =>
      exact ⟨fun _ => trivial, fun idle early => Nat.lt_of_le_of_lt early measured, countable⟩
  | giveUp visiting client fault => exact measured
  | _ => exact trivial

namespace Chronicle

/-- What is queued at the end of a run goes into frames. -/
theorem run_queuesFrames {settings : Settings} (countable : Wire.IsCountable settings.maxConnections)
    {map : GeneratedMap} (small : map.chunkTiles ≤ 256) {actions : List Action}
    (measured : ∀ action ∈ actions, action.IsMeasured) :
    (run settings map.toTileMap actions).session.QueuesFrames map.toTileMap :=
  run_keeps settings map.toTileMap actions
    (fun action member => (measured action member).allows countable)
    (fun session => session.QueuesFrames map.toTileMap) ⟨rfl, fun _ _ member => nomatch member⟩
    (fun queues step => queues.step step) (fun visiting queues => queues.replicate small visiting)

/-- What was taken was queued at the end of a shorter run. -/
theorem fitsFrame_of_taken {settings : Settings}
    (countable : Wire.IsCountable settings.maxConnections) {map : GeneratedMap}
    (small : map.chunkTiles ≤ 256) {actions : List Action}
    (measured : ∀ action ∈ actions, action.IsMeasured) {client : ClientId} {content : ServerMessage}
    (taken : ⟨client, .message content⟩ ∈ (run settings map.toTileMap actions).taken) :
    content.FitsFrame := by
  induction actions using List.reverseRecOn with
  | nil => cases taken
  | append_singleton earlier action ih =>
      have sooner : ∀ action ∈ earlier, action.IsMeasured :=
        fun action member => measured action (List.mem_append_left _ member)
      rw [run, List.foldl_append] at taken
      cases action with
      | drain =>
          rcases List.mem_append.mp taken with before | now
          · exact ih sooner before
          · exact (run_queuesFrames countable small sooner).fits client content now
      | _ => exact ih sooner taken

/-- Everything that a session with valid settings over a generated map has for its clients goes into
a frame, whatever is done to it: no message is ever refused for its length. Times and limits are the
numbers of a machine. In particular every chunk goes into a frame, wherever it lies and whatever the
seed, with up to 256 tiles to a side. -/
theorem run_fits_frames (settings : Settings) (valid : settings.fault? = none)
    (countable : Wire.IsCountable settings.maxConnections) (seed : UInt64) (actions : List Action)
    (measured : ∀ action ∈ actions, action.IsMeasured) :
    (∀ client content, .message content ∈
        (run settings (GeneratedMap.ofSeed seed settings.chunkTiles).toTileMap actions).sentTo
          client →
      content.encode.length ≤ Frame.maxPayload ∧
      Frame.write content.encode =
        .ok (Wire.littleEndian 4 content.encode.length ++ content.encode)) ∧
    ∀ tiles : UInt32, tiles ≤ 256 → ∀ position,
      (ServerMessage.chunkData
        (.ofMap (GeneratedMap.ofSeed seed tiles).toTileMap position)).encode.length ≤
          Frame.maxPayload := by
  refine ⟨fun client content sent => ?_, fun tiles small position => ?_⟩
  · have small := GeneratedMap.chunkTiles_ofSeed_le seed (by decide) (Settings.chunkTiles_le valid)
    have fits : content.FitsFrame := by
      rcases List.mem_append.mp (mem_of_mem_dispatchesTo sent) with taken | queued
      · exact fitsFrame_of_taken countable small measured taken
      · exact (run_queuesFrames countable small measured).fits client content queued
    exact ⟨fits, Frame.write_of_le fits⟩
  · exact ServerMessage.fitsFrame_chunkData
      (GeneratedMap.chunkTiles_ofSeed_le seed (by decide) small) position

/-- What the first client of standard settings is welcomed with. -/
theorem first_client_fits_frames :
    Settings.standard.fault? = none ∧ (∀ action ∈ firstClient, action.IsMeasured) ∧
    ∃ tick entity spawn, .message (.connectionResponse tick entity spawn) ∈
        (run .standard (GeneratedMap.ofSeed 7 16).toTileMap firstClient).sentTo ⟨0⟩ ∧
      Frame.write (ServerMessage.connectionResponse tick entity spawn).encode =
        .ok (Wire.littleEndian 4 32 ++
          (ServerMessage.connectionResponse tick entity spawn).encode) := by
  have valid : Settings.standard.fault? = none := by decide +kernel
  have countable : Wire.IsCountable Settings.standard.maxConnections := by
    change 256 < 18446744073709551616
    decide
  have measured : ∀ action ∈ firstClient, action.IsMeasured := by
    intro action member
    simp only [firstClient, List.mem_cons, List.not_mem_nil, or_false] at member
    rcases member with rfl | rfl
    · exact trivial
    · exact Nat.two_pow_pos 64
  have isIn : (run .standard (GeneratedMap.ofSeed 7 16).toTileMap firstClient).session.isConnected
      ⟨0⟩ = true := isConnected_first .standard _ (by decide) _ _ _ _
  have first : (start .standard (GeneratedMap.ofSeed 7 16).toTileMap).session.Converses [] 0 :=
    ofSettings_converses ..
  have converses : (run .standard (GeneratedMap.ofSeed 7 16).toTileMap firstClient).session.Converses
      (run .standard (GeneratedMap.ofSeed 7 16).toTileMap firstClient).taken _ :=
    first.run firstClient
  obtain ⟨visits, stay, split, -, isOpen, -⟩ := converses.visits ⟨0⟩
  rw [isIn] at isOpen
  obtain ⟨tick, entity, spawn, news, -, rfl⟩ := isOpen
  have sent : .message (.connectionResponse tick entity spawn) ∈
      (run .standard (GeneratedMap.ofSeed 7 16).toTileMap firstClient).sentTo ⟨0⟩ := by
    rw [sentTo, split]
    exact List.mem_append_right _ List.mem_cons_self
  have fits := (run_fits_frames .standard valid countable 7 firstClient measured).1 ⟨0⟩ _ sent
  have long : (ServerMessage.connectionResponse tick entity spawn).encode.length = 32 := by
    simp [ServerMessage.encode]
  exact ⟨valid, measured, tick, entity, spawn, sent, long ▸ fits.2⟩

end Chronicle

end Session

end Overworld
