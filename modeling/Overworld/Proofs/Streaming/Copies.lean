import Overworld.Proofs.Client.Play
import Overworld.Proofs.Session.Exactness
import Overworld.Proofs.Streaming.Feed
import Overworld.Proofs.Terrain.RoundTrip

set_option autoImplicit false

/-!
The map as the clients have it. What comes out of the wire is what the server sent, every chunk can be
decompressed, and the copies that a client keeps are the chunks of the map.
-/

namespace Overworld

namespace ServerMessage

variable {map : TileMap}

/-- The messages as they are read at the other end of the wire. -/
def carry (messages : List ServerMessage) : Except DecodeError (List ServerMessage) :=
  messages.mapM fun message => decode message.encode

theorem isCountable_of_isFrom (storable : map.IsStorable) {message : ServerMessage}
    (isFrom : message.IsFrom map) : message.IsCountable := by
  cases message with
  | chunkData chunk =>
      obtain ⟨position, rfl⟩ := isFrom
      exact ChunkData.isCountable_ofMap storable position
  | kicked reason => cases isFrom
  | _ => exact trivial

theorem carry_of_isFrom (storable : map.IsStorable) {messages : List ServerMessage}
    (isFrom : ∀ message ∈ messages, message.IsFrom map) : carry messages = .ok messages := by
  refine mapM_eq_ok_iff.mpr (List.forall₂_same.mpr fun message member => ?_)
  exact takes_read.map_fst_eq_ok.mpr
    ⟨isCountable_of_isFrom storable (isFrom message member), List.prefix_refl _⟩

end ServerMessage

namespace Player

variable {player : Player} {map : TileMap}

theorem chunks_report (player : Player) (tick : Tick) :
    (player.report tick).chunks = player.chunks := by
  unfold report
  split <;> rfl

theorem chunks_step (player : Player) : player.step.2.chunks = player.chunks := by
  unfold step
  split
  · exact chunks_report _ _
  · rfl

/-- Only a chunk changes the copies of the map. -/
theorem chunks_call (player : Player) {next : Call}
    (other : ∀ chunk, next ≠ .hear (.chunkData chunk)) :
    (player.call next).chunks = player.chunks := by
  cases next with
  | step => exact player.chunks_step
  | setKeys keys => rfl
  | hear message =>
      cases message with
      | chunkData chunk => exact absurd rfl (other chunk)
      | connectionResponse tick entity spawn =>
          change (player.welcome tick entity spawn).chunks = player.chunks
          unfold welcome
          split <;> rfl
      | entityUpdate snapshot =>
          change (player.update snapshot).chunks = player.chunks
          unfold update
          split <;> rfl
      | entityEntered snapshot =>
          change (player.enter snapshot).chunks = player.chunks
          unfold enter
          split <;> rfl
      | entityLeft tick entity => rfl
      | tickAdjustment delta =>
          change (player.adjust delta).2.chunks = player.chunks
          unfold adjust
          split <;> rfl
      | kicked reason => rfl

theorem handle_chunk (storable : map.IsStorable) (player : Player) (position : ChunkPosition) :
    player.handle (.chunkData (.ofMap map position)) =
      (none, { player with chunks := player.chunks.insert position (map.layersAt position) }) := by
  unfold handle
  dsimp only
  rw [ChunkData.decompress_ofMap storable position]
  rfl

/-- A copy that the client has stays, and one that it is sent is there from then on. -/
theorem getElem?_chunks_foldl (storable : map.IsStorable) {calls : List Call}
    (isFrom : ∀ message ∈ Call.heard calls, message.IsFrom map) {position : ChunkPosition}
    (has : player.chunks[position]? = some (map.layersAt position) ∨
      .chunkData (.ofMap map position) ∈ Call.heard calls) :
    (calls.foldl call player).chunks[position]? = some (map.layersAt position) := by
  induction calls generalizing player with
  | nil => exact has.resolve_right List.not_mem_nil
  | cons next rest ih =>
      by_cases isChunk : ∃ chunk, next = .hear (.chunkData chunk)
      · obtain ⟨chunk, rfl⟩ := isChunk
        have here : Call.heard (.hear (.chunkData chunk) :: rest) =
            .chunkData chunk :: Call.heard rest := rfl
        rw [here, List.forall_mem_cons] at isFrom
        rw [here, List.mem_cons] at has
        obtain ⟨sent, rfl⟩ := isFrom.1
        have called : player.call (.hear (.chunkData (.ofMap map sent))) =
            { player with chunks := player.chunks.insert sent (map.layersAt sent) } :=
          congrArg Prod.snd (handle_chunk storable player sent)
        rw [List.foldl_cons, called]
        refine ih isFrom.2 ?_
        rw [Std.HashMap.getElem?_insert]
        by_cases same : sent = position
        · subst same
          rw [if_pos (beq_self_eq_true sent)]
          exact Or.inl rfl
        · rw [if_neg (by simpa using same)]
          refine has.imp_right fun heard => heard.resolve_left fun isThis => same ?_
          have chunks := ServerMessage.chunkData.inj isThis
          exact (congrArg ChunkData.position chunks).symm
      · have other : ∀ chunk, next ≠ .hear (.chunkData chunk) := fun chunk same =>
          isChunk ⟨chunk, same⟩
        have heard : ∀ message ∈ Call.heard rest, message ∈ Call.heard (next :: rest) := by
          intro message member
          cases next with
          | hear _ => exact List.mem_cons_of_mem _ member
          | _ => exact member
        rw [List.foldl_cons]
        refine ih (fun message member => isFrom message (heard message member)) ?_
        rw [player.chunks_call other]
        refine has.imp_right fun member => ?_
        cases next with
        | hear message =>
            refine (List.mem_cons.mp member).resolve_left ?_
            rintro rfl
            exact other _ rfl
        | _ => exact member

end Player

namespace Session

namespace Chronicle

/-- The messages of a connected client can all be read at the other end of the wire. A client that
hears them, with steps and changes of keys anywhere between, decompresses every chunk among them, and
has a true copy of each chunk that its streamer counts as sent. After a tick these are all chunks
within the radius around its entity's. The radius is less than 2^31 chunks, as it is wherever there is
room for it around a single chunk. -/
theorem run_copies_map (settings : Settings) (map : TileMap) (storable : map.IsStorable)
    (actions : List Action) (client : ClientId) (connection : Connection)
    (connected : (run settings map actions).session.connection? client = some connection) :
    ∃ arrived, ServerMessage.carry ((run settings map actions).feedOf client) = .ok arrived ∧
      (∀ rules calls, Player.Call.heard calls = arrived →
        (∀ before chunk after, calls = before ++ .hear (.chunkData chunk) :: after →
          ((before.foldl Player.call (.ofRules rules)).handle (.chunkData chunk)).1 = none) ∧
        ∀ position, connection.streamer.streamed.contains position = true →
          (calls.foldl Player.call (.ofRules rules)).chunks[position]? =
            some (map.layersAt position)) ∧
      (settings.streamRules.viewRadius.toNat < 2147483648 →
        ∀ earlier visiting now, actions = earlier ++ [.tick visiting now] →
        ∀ owner, (run settings map actions).session.world.get? connection.entity = some owner →
        ∀ position : ChunkPosition,
          position.distance (settings.streamRules.chunkOf owner.motion.position) ≤
            settings.streamRules.viewRadius.toNat →
          connection.streamer.streamed.contains position = true) := by
  have stocked := (run_keepsStocked settings map actions).stocked client connection connected
  refine ⟨_, ServerMessage.carry_of_isFrom storable stocked.isFrom, ?_, ?_⟩
  · intro rules calls isHeard
    have isFrom : ∀ message ∈ Player.Call.heard calls, message.IsFrom map := by
      rw [isHeard]
      exact stocked.isFrom
    refine ⟨?_, fun position held => ?_⟩
    · rintro before chunk after rfl
      have heard : .chunkData chunk ∈
          Player.Call.heard (before ++ .hear (.chunkData chunk) :: after) :=
        List.mem_filterMap.mpr
          ⟨.hear (.chunkData chunk), List.mem_append_right _ List.mem_cons_self, rfl⟩
      obtain ⟨position, rfl⟩ := isFrom _ heard
      rw [Player.handle_chunk storable]
    · refine Player.getElem?_chunks_foldl storable isFrom (Or.inr ?_)
      rw [isHeard]
      exact stocked.sent position held
  · rintro small earlier visiting now rfl owner lives position near
    rw [run_append] at connected lives
    exact (run_keepsStocked settings map earlier).contains_of_near visiting now connected lives small
      near

/-- A map with two layers: three kinds of tile in a row, and one tile that tells the column. -/
def columns : TileMap :=
  ⟨16, fun position => [[1, 3, 1, 4], [.ofNat position.x.toInt.toNat]]⟩

theorem isStorable_columns : columns.IsStorable where
  layers position := by
    change 2 < 18446744073709551616
    decide
  tiles position layer member := by
    change layer ∈ [[_, _, _, _], [_]] at member
    simp only [List.mem_cons, List.not_mem_nil, or_false] at member
    rcases member with rfl | rfl <;> simp [maxLayerTiles]

/-- The first client of standard settings has the chunk that its entity stands in. -/
theorem first_client_has_its_chunk :
    columns.IsStorable ∧
    ∃ connection owner arrived,
      (run .standard columns firstClient).session.connection? ⟨0⟩ = some connection ∧
      (run .standard columns firstClient).session.world.get? connection.entity = some owner ∧
      ServerMessage.carry ((run .standard columns firstClient).feedOf ⟨0⟩) = .ok arrived ∧
      ((arrived.map Player.Call.hear).foldl Player.call (.ofRules .standard)).chunks[
          Settings.standard.streamRules.chunkOf owner.motion.position]? =
        some (columns.layersAt (Settings.standard.streamRules.chunkOf owner.motion.position)) := by
  have isIn : (run .standard columns firstClient).session.isConnected ⟨0⟩ = true :=
    isConnected_first .standard _ (by decide) _ _ _ _
  rw [isConnected_eq] at isIn
  obtain ⟨connection, connected⟩ := Option.isSome_iff_exists.mp isIn
  have numbered := places_run_le .standard columns firstClient
  have census := run_keepsCensus .standard columns firstClient (Nat.le_trans numbered (by decide))
  have alive := census.controlled ⟨0⟩ connection.entity (congrArg _ connected)
  obtain ⟨owner, lives, -⟩ := Option.map_eq_some_iff.mp alive
  obtain ⟨arrived, carried, copies, around⟩ := run_copies_map .standard columns isStorable_columns
    firstClient ⟨0⟩ connection connected
  have heard : Player.Call.heard (arrived.map .hear) = arrived := by simp [Player.Call.heard]
  have here : ChunkPosition.distance (Settings.standard.streamRules.chunkOf owner.motion.position)
      (Settings.standard.streamRules.chunkOf owner.motion.position) = 0 := by
    simp [ChunkPosition.distance]
  have held := around (by decide +kernel)
    [.submit ⟨⟨0⟩, .connected (.v4 #v[127, 0, 0, 1] 4000), 0⟩] .ascending 0 rfl owner lives _
    (here.trans_le (Nat.zero_le _))
  exact ⟨isStorable_columns, connection, owner, arrived, connected, lives, carried,
    (copies .standard _ heard).2 _ held⟩

end Chronicle

end Session

end Overworld
