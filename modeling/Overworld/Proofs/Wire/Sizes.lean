import Mathlib.Data.String.Basic
import Mathlib.Data.Nat.Digits.Defs
import Overworld.Proofs.Terrain.RoundTrip
import Overworld.Server.Connection
import Overworld.Wire.Frame

set_option autoImplicit false

/-!
How long messages are on the wire. All kinds but two have one length. A chunk is as long as its
layers, and these are long where many kinds of tiles make their indices wide; a reason to leave is as
long as the numbers in it.
-/

namespace Overworld

theorem Frame.write_of_le {payload : Bytes} (short : payload.length ≤ maxPayload) :
    write payload = .ok (Wire.littleEndian 4 payload.length ++ payload) := by
  unfold write
  rw [if_neg (Nat.not_lt.mpr short)]

namespace Wire

@[simp] theorem length_putByte (value : UInt8) : (putByte value).length = 1 := rfl

@[simp] theorem length_putWord16 (value : UInt16) : (putWord16 value).length = 2 :=
  length_littleEndian 2 _

@[simp] theorem length_putWord32 (value : UInt32) : (putWord32 value).length = 4 :=
  length_littleEndian 4 _

@[simp] theorem length_putWord64 (value : UInt64) : (putWord64 value).length = 8 :=
  length_littleEndian 8 _

@[simp] theorem length_putVec3 (value : Vec3) : (putVec3 value).length = 12 := by
  simp [putVec3, putSingle]

@[simp] theorem length_putEntityId (id : EntityId) : (putEntityId id).length = 8 := by
  simp [putEntityId]

@[simp] theorem length_putSnapshot (snapshot : Snapshot) : (putSnapshot snapshot).length = 45 := by
  simp [putSnapshot, putKeys, putSingle]

@[simp] theorem length_putChunkPosition (position : ChunkPosition) :
    (putChunkPosition position).length = 8 := by
  simp [putChunkPosition]

/-- A sequence is as long as its count and its items. -/
theorem length_putSequence_le {α : Type} {put : α → Bytes} {items : List α} {width : Nat}
    (each : ∀ item ∈ items, (put item).length ≤ width) :
    (putSequence put items).length ≤ 8 + items.length * width := by
  have all : (items.flatMap put).length ≤ items.length * width := by
    induction items with
    | nil => exact Nat.zero_le _
    | cons item rest ih =>
        rw [List.forall_mem_cons] at each
        rw [List.flatMap_cons, List.length_append, List.length_cons, Nat.succ_mul, Nat.add_comm]
        exact Nat.add_le_add (ih each.2) each.1
  rw [putSequence, List.length_append, length_littleEndian]
  exact Nat.add_le_add_left all 8

theorem length_putText (text : String) : (putText text).length = 8 + text.utf8ByteSize := by
  rw [putText, List.length_append, length_littleEndian]
  rfl

theorem length_putLayer_le (layer : PaletteLayer) :
    (putLayer layer).length ≤ 21 + 2 * layer.palette.size + 8 * layer.packed.size := by
  have kinds : (putSequence putWord16 layer.palette.toList).length ≤ 8 + layer.palette.size * 2 :=
    length_putSequence_le fun tile _ => (length_putWord16 tile).le
  have words : (putSequence putWord64 layer.packed.toList).length ≤ 8 + layer.packed.size * 8 :=
    length_putSequence_le fun word _ => (length_putWord64 word).le
  rw [putLayer, List.length_append, List.length_append, List.length_append, length_putByte,
    length_putWord32]
  omega

/-- Few kinds of tiles make narrow indices. -/
theorem length_putLayer_compress_le {tiles : List TileId} (short : tiles.length ≤ maxLayerTiles)
    {width : Nat} (few : tiles.eraseDups.length ≤ 2 ^ width) :
    (putLayer (.compress tiles)).length ≤
      21 + 2 * 2 ^ width + 8 * packedWords maxLayerTiles width := by
  have words : (PaletteLayer.compress tiles).packed.size ≤ packedWords maxLayerTiles width := by
    rw [PaletteLayer.size_packed_compress short]
    have bits : tiles.length * indexBits tiles.eraseDups.length ≤ maxLayerTiles * width :=
      Nat.mul_le_mul short (indexBits_le few)
    exact Nat.div_le_div_right (Nat.add_le_add_right bits 63)
  have kinds : (PaletteLayer.compress tiles).palette.size ≤ 2 ^ width := few
  exact (length_putLayer_le _).trans
    (Nat.add_le_add (Nat.add_le_add_left (Nat.mul_le_mul_left 2 kinds) 21)
      (Nat.mul_le_mul_left 8 words))

theorem length_putChunk_le {chunk : ChunkData} {width : Nat}
    (each : ∀ layer ∈ chunk.layers, (putLayer layer).length ≤ width) :
    (putChunk chunk).length ≤ 16 + chunk.layers.length * width := by
  have layers := length_putSequence_le each
  rw [putChunk, List.length_append, length_putChunkPosition]
  omega

end Wire

theorem utf8Len_le (text : List Char) : String.utf8Len text ≤ 4 * text.length := by
  induction text with
  | nil => exact Nat.le_refl 0
  | cons letter rest ih =>
      rw [String.utf8Len_cons, List.length_cons]
      have one := letter.utf8Size_le_four
      omega

theorem utf8ByteSize_le (text : String) : text.utf8ByteSize ≤ 4 * text.length := by
  have letters := utf8Len_le text.toList
  rwa [← String.utf8ByteSize_ofList, String.ofList_toList] at letters

theorem length_toString_le {number : Nat} (small : Wire.IsCountable number) :
    (toString number).length ≤ 20 :=
  Nat.repr_length number 20 (by decide) (Nat.lt_trans small (by decide))

theorem Wire.isCountable_toNat (word : UInt64) : Wire.IsCountable word.toNat := word.toNat_lt_size

theorem length_toString_int64_le (value : Int64) : (toString value.toInt).length ≤ 21 := by
  have low := value.le_toInt
  have high := value.toInt_lt
  generalize value.toInt = number at low high
  cases number with
  | ofNat count =>
      have small : Wire.IsCountable count := Nat.lt_trans (Int.ofNat_lt.mp high) (by decide)
      exact (length_toString_le small).trans (by decide)
  | negSucc count =>
      have small : Wire.IsCountable (count + 1) := by
        unfold Wire.IsCountable
        omega
      change ("-" ++ toString (count + 1)).length ≤ 21
      rw [String.length_append, Nat.add_comm]
      exact Nat.add_le_add_right (length_toString_le small) 1

namespace ConnectionFault

/-- The number in the fault is one of a machine. -/
def IsMeasured : ConnectionFault → Prop
  | .desync _ => True
  | .timeout number | .serverFull number | .backlog number => Wire.IsCountable number

theorem length_message_le (fault : ConnectionFault) (measured : fault.IsMeasured) :
    fault.message.length ≤ 152 := by
  unfold message
  cases fault with
  | desync fault =>
      have client := length_toString_le (Wire.isCountable_toNat fault.client)
      have difference := length_toString_int64_le fault.difference
      have server := length_toString_le (Wire.isCountable_toNat fault.server)
      have limit := length_toString_le (Wire.isCountable_toNat fault.limit)
      have words : "Clock desynchronised: ".length + "Client tick ".length + " is ".length +
          " ticks from server tick ".length + " (limit ".length + ")".length = 71 := rfl
      unfold Desync.message
      simp only [String.length_append]
      omega
  | timeout number =>
      have digits := length_toString_le measured
      have words : "Timed out after ".length + "ms of silence".length = 29 := rfl
      simp only [String.length_append]
      omega
  | serverFull number =>
      have digits := length_toString_le measured
      have words : "Server full (".length + " connections)".length = 26 := rfl
      simp only [String.length_append]
      omega
  | backlog number =>
      have digits := length_toString_le measured
      have words : "Fell ".length + " messages behind on outbound traffic".length = 41 := rfl
      simp only [String.length_append]
      omega

end ConnectionFault

namespace ServerMessage

/-- The message goes into one frame. -/
def FitsFrame (message : ServerMessage) : Prop := message.encode.length ≤ Frame.maxPayload

/-- Only chunks and reasons can be too long. -/
theorem fitsFrame_of {message : ServerMessage}
    (chunks : ∀ chunk, message = .chunkData chunk → (Wire.putChunk chunk).length ≤ 65532)
    (reasons : ∀ reason, message = .kicked reason → reason.utf8ByteSize ≤ 65524) :
    message.FitsFrame := by
  unfold FitsFrame Frame.maxPayload encode
  cases message with
  | chunkData chunk =>
      have short := chunks chunk rfl
      simp only [List.length_append, Wire.length_putWord32]
      omega
  | kicked reason =>
      have short := reasons reason rfl
      simp only [List.length_append, Wire.length_putWord32, Wire.length_putText]
      omega
  | _ => simp

theorem fitsFrame_kicked {fault : ConnectionFault} (measured : fault.IsMeasured) :
    (kicked fault.message).FitsFrame := by
  refine fitsFrame_of (fun _ none => nomatch none) fun reason same => ?_
  cases same
  have bytes := utf8ByteSize_le fault.message
  have letters := fault.length_message_le measured
  omega

end ServerMessage

end Overworld
