import Overworld.Proofs.Wire.Elements

set_option autoImplicit false

/-!
The wire form of messages, both ways: a message is read back from its form and whatever follows, an
input that reads as a message begins with the form of that message, and no form is cut short.
-/

namespace Overworld

namespace Wire

theorem takes_single : Takes single putSingle fun _ => True := by
  rintro input ⟨bits⟩ rest
  simp only [single, putSingle, bind_eq_ok, pure_eq_ok, Prod.exists, takes_word32 _ _ _]
  simp

theorem takes_vec3 : Takes vec3 putVec3 fun _ => True := by
  rintro input ⟨x, y, z⟩ rest
  simp only [vec3, putVec3, bind_eq_ok, pure_eq_ok, Prod.exists, takes_single _ _ _]
  simp

theorem takes_entityId : Takes entityId putEntityId fun _ => True := by
  rintro input ⟨index, generation⟩ rest
  simp only [entityId, putEntityId, bind_eq_ok, pure_eq_ok, Prod.exists, takes_word32 _ _ _]
  simp

theorem takes_keys : Takes keys putKeys fun _ => True := by
  rintro input ⟨bits⟩ rest
  simp only [keys, putKeys, bind_eq_ok, pure_eq_ok, Prod.exists, takes_byte _ _ _]
  simp

theorem takes_snapshot : Takes snapshot putSnapshot fun _ => True := by
  rintro input ⟨tick, entity, position, velocity, held, halfExtent⟩ rest
  simp only [snapshot, putSnapshot, bind_eq_ok, pure_eq_ok, Prod.exists, takes_word64 _ _ _,
    takes_entityId _ _ _, takes_vec3 _ _ _, takes_keys _ _ _, takes_single _ _ _]
  simp

theorem takes_chunkPosition : Takes chunkPosition putChunkPosition fun _ => True := by
  rintro input ⟨x, y⟩ rest
  have same : ∀ (word : UInt32) (value : Int32), word.toInt32 = value ↔ word = value.toUInt32 := by
    intro word value
    constructor
    · rintro rfl
      rfl
    · rintro rfl
      rfl
  simp only [chunkPosition, putChunkPosition, bind_eq_ok, pure_eq_ok, Prod.exists,
    takes_word32 _ _ _, Prod.mk.injEq, ChunkPosition.mk.injEq, same]
  simp

end Wire

/-- Both sequences of the layer can be counted. -/
def PaletteLayer.IsCountable (layer : PaletteLayer) : Prop :=
  Wire.IsCountable layer.palette.toList.length ∧ Wire.IsCountable layer.packed.toList.length

/-- The layers can be counted, and what is in them. -/
def ChunkData.IsCountable (chunk : ChunkData) : Prop :=
  Wire.IsCountable chunk.layers.length ∧ ∀ layer ∈ chunk.layers, layer.IsCountable

/-- Every sequence in the message is shorter than a 64-bit word can tell, as all are that fit into a
memory. -/
def ServerMessage.IsCountable : ServerMessage → Prop
  | .chunkData chunk => chunk.IsCountable
  | .kicked reason => Wire.IsCountable reason.toUTF8.data.toList.length
  | _ => True

namespace Wire

theorem takes_layer : Takes layer putLayer PaletteLayer.IsCountable := by
  rintro input ⟨⟨palette⟩, bits, length, ⟨packed⟩⟩ rest
  simp only [layer, putLayer, PaletteLayer.IsCountable, bind_eq_ok, pure_eq_ok, Prod.exists,
    takes_sequence takes_word16 _ _ _, takes_byte _ _ _, takes_word32 _ _ _,
    takes_sequence takes_word64 _ _ _]
  simp [and_assoc, and_left_comm]

theorem takes_chunk : Takes chunk putChunk ChunkData.IsCountable := by
  rintro input ⟨position, layers⟩ rest
  simp only [chunk, putChunk, ChunkData.IsCountable, bind_eq_ok, pure_eq_ok, Prod.exists,
    takes_chunkPosition _ _ _, takes_sequence takes_layer _ _ _]
  simp [and_assoc, and_comm]

end Wire

open Wire

/-- What reads as a message begins with its form. -/
theorem ClientMessage.form_of_read {input rest : Bytes} {message : ClientMessage}
    (isRead : read input = .ok (message, rest)) : input = message.encode ++ rest := by
  unfold read at isRead
  obtain ⟨⟨tag, fields⟩, tagged, isRest⟩ := bind_eq_ok.mp isRead
  obtain ⟨-, rfl⟩ := (takes_word32 input tag fields).mp tagged
  dsimp only at isRest
  split at isRest
  · simp only [bind_eq_ok, pure_eq_ok, Prod.exists, takes_word64 _ _ _, takes_keys _ _ _,
      Prod.mk.injEq] at isRest
    obtain ⟨tick, _, ⟨-, rfl⟩, keys, _, ⟨-, rfl⟩, rfl, rfl⟩ := isRest
    simp [encode]
  · simp only [bind_eq_ok, pure_eq_ok, Prod.exists, takes_word64 _ _ _, Prod.mk.injEq] at isRest
    obtain ⟨tick, _, ⟨-, rfl⟩, rfl, rfl⟩ := isRest
    simp [encode]
  · cases isRest
    simp [encode]
  · cases isRest

/-- A form reads as its message. -/
theorem ClientMessage.read_form (message : ClientMessage) (rest : Bytes) :
    read (message.encode ++ rest) = .ok (message, rest) := by
  unfold read
  cases message with
  | input tick keys =>
      rw [encode, List.append_assoc, List.append_assoc, takes_word32.bind_put trivial]
      show (word64 (putWord64 tick ++ (putKeys keys ++ rest)) >>= fun taken =>
        Wire.keys taken.2 >>= fun last => pure (input taken.1 last.1, last.2)) = _
      rw [takes_word64.bind_put trivial, takes_keys.bind_put trivial]
      rfl
  | heartbeat tick =>
      rw [encode, List.append_assoc, takes_word32.bind_put trivial]
      show (word64 (putWord64 tick ++ rest) >>= fun taken => pure (heartbeat taken.1, taken.2)) = _
      rw [takes_word64.bind_put trivial]
      rfl
  | disconnect =>
      rw [encode, takes_word32.bind_put trivial]
      rfl

theorem ClientMessage.takes_read : Takes read encode fun _ => True := by
  intro input message rest
  constructor
  · intro isRead
    exact ⟨trivial, form_of_read isRead⟩
  · rintro ⟨-, rfl⟩
    exact message.read_form rest

/-- What reads as a message begins with its form. -/
theorem ServerMessage.form_of_read {input rest : Bytes} {message : ServerMessage}
    (isRead : read input = .ok (message, rest)) :
    message.IsCountable ∧ input = message.encode ++ rest := by
  unfold read at isRead
  obtain ⟨⟨tag, fields⟩, tagged, isRest⟩ := bind_eq_ok.mp isRead
  obtain ⟨-, rfl⟩ := (takes_word32 input tag fields).mp tagged
  dsimp only at isRest
  split at isRest
  · simp only [bind_eq_ok, pure_eq_ok, Prod.exists, takes_word64 _ _ _, takes_entityId _ _ _,
      takes_vec3 _ _ _, Prod.mk.injEq] at isRest
    obtain ⟨tick, _, ⟨-, rfl⟩, entity, _, ⟨-, rfl⟩, spawn, _, ⟨-, rfl⟩, rfl, rfl⟩ := isRest
    simp [encode, IsCountable]
  · simp only [bind_eq_ok, pure_eq_ok, Prod.exists, takes_snapshot _ _ _, Prod.mk.injEq] at isRest
    obtain ⟨snapshot, _, ⟨-, rfl⟩, rfl, rfl⟩ := isRest
    simp [encode, IsCountable]
  · simp only [bind_eq_ok, pure_eq_ok, Prod.exists, takes_snapshot _ _ _, Prod.mk.injEq] at isRest
    obtain ⟨snapshot, _, ⟨-, rfl⟩, rfl, rfl⟩ := isRest
    simp [encode, IsCountable]
  · simp only [bind_eq_ok, pure_eq_ok, Prod.exists, takes_word64 _ _ _, takes_entityId _ _ _,
      Prod.mk.injEq] at isRest
    obtain ⟨tick, _, ⟨-, rfl⟩, entity, _, ⟨-, rfl⟩, rfl, rfl⟩ := isRest
    simp [encode, IsCountable]
  · simp only [bind_eq_ok, pure_eq_ok, Prod.exists, takes_chunk _ _ _, Prod.mk.injEq] at isRest
    obtain ⟨chunk, _, ⟨countable, rfl⟩, rfl, rfl⟩ := isRest
    exact ⟨countable, by simp [encode]⟩
  · simp only [bind_eq_ok, pure_eq_ok, Prod.exists, takes_word64 _ _ _, Prod.mk.injEq] at isRest
    obtain ⟨delta, _, ⟨-, rfl⟩, rfl, rfl⟩ := isRest
    simp [encode, IsCountable]
  · simp only [bind_eq_ok, pure_eq_ok, Prod.exists, takes_text _ _ _, Prod.mk.injEq] at isRest
    obtain ⟨reason, _, ⟨countable, rfl⟩, rfl, rfl⟩ := isRest
    exact ⟨countable, by simp [encode]⟩
  · cases isRest

/-- A form reads as its message. -/
theorem ServerMessage.read_form (message : ServerMessage) (rest : Bytes)
    (countable : message.IsCountable) : read (message.encode ++ rest) = .ok (message, rest) := by
  unfold read
  cases message with
  | connectionResponse tick entity spawn =>
      rw [encode, List.append_assoc, List.append_assoc, List.append_assoc,
        takes_word32.bind_put trivial]
      show (word64 (putWord64 tick ++ (putEntityId entity ++ (putVec3 spawn ++ rest))) >>=
        fun taken => entityId taken.2 >>= fun owned => vec3 owned.2 >>= fun last =>
          pure (connectionResponse taken.1 owned.1 last.1, last.2)) = _
      rw [takes_word64.bind_put trivial, takes_entityId.bind_put trivial,
        takes_vec3.bind_put trivial]
      rfl
  | entityUpdate snapshot =>
      rw [encode, List.append_assoc, takes_word32.bind_put trivial]
      show (Wire.snapshot (putSnapshot snapshot ++ rest) >>= fun taken =>
        pure (entityUpdate taken.1, taken.2)) = _
      rw [takes_snapshot.bind_put trivial]
      rfl
  | entityEntered snapshot =>
      rw [encode, List.append_assoc, takes_word32.bind_put trivial]
      show (Wire.snapshot (putSnapshot snapshot ++ rest) >>= fun taken =>
        pure (entityEntered taken.1, taken.2)) = _
      rw [takes_snapshot.bind_put trivial]
      rfl
  | entityLeft tick entity =>
      rw [encode, List.append_assoc, List.append_assoc, takes_word32.bind_put trivial]
      show (word64 (putWord64 tick ++ (putEntityId entity ++ rest)) >>= fun taken =>
        entityId taken.2 >>= fun last => pure (entityLeft taken.1 last.1, last.2)) = _
      rw [takes_word64.bind_put trivial, takes_entityId.bind_put trivial]
      rfl
  | chunkData chunk =>
      rw [encode, List.append_assoc, takes_word32.bind_put trivial]
      show (Wire.chunk (putChunk chunk ++ rest) >>= fun taken =>
        pure (chunkData taken.1, taken.2)) = _
      rw [takes_chunk.bind_put countable]
      rfl
  | tickAdjustment delta =>
      rw [encode, List.append_assoc, takes_word32.bind_put trivial]
      show (word64 (putWord64 delta.toUInt64 ++ rest) >>= fun taken =>
        pure (tickAdjustment taken.1.toInt64, taken.2)) = _
      rw [takes_word64.bind_put trivial]
      rfl
  | kicked reason =>
      rw [encode, List.append_assoc, takes_word32.bind_put trivial]
      show (text (putText reason ++ rest) >>= fun taken => pure (kicked taken.1, taken.2)) = _
      rw [takes_text.bind_put countable]
      rfl

theorem ServerMessage.takes_read : Takes read encode IsCountable := by
  intro input message rest
  constructor
  · exact form_of_read
  · rintro ⟨countable, rfl⟩
    exact message.read_form rest countable

namespace Wire

/-- A message is read back from its form, whatever follows; an input that reads as a message begins
with the form of that message; and what is cut off before the end of a form is refused. Of the
server's messages this holds for those whose sequences can be counted, and no others are read. -/
theorem forms_are_exact :
    (∀ (message : ClientMessage) rest,
      ClientMessage.decode (message.encode ++ rest) = .ok message) ∧
    (∀ (message : ClientMessage) input,
      ClientMessage.decode input = .ok message → message.encode <+: input) ∧
    (∀ (message : ClientMessage) part, part <+: message.encode → part ≠ message.encode →
      ∃ error, ClientMessage.decode part = .error error) ∧
    (∀ (message : ServerMessage) rest, message.IsCountable →
      ServerMessage.decode (message.encode ++ rest) = .ok message) ∧
    (∀ (message : ServerMessage) input,
      ServerMessage.decode input = .ok message → message.IsCountable ∧ message.encode <+: input) ∧
    (∀ (message : ServerMessage) part, message.IsCountable → part <+: message.encode →
      part ≠ message.encode → ∃ error, ServerMessage.decode part = .error error) := by
  have client := ClientMessage.takes_read
  have server := ServerMessage.takes_read
  refine ⟨?_, ?_, ?_, ?_, ?_, ?_⟩
  · intro message rest
    exact client.map_fst_eq_ok.mpr ⟨trivial, List.prefix_append _ _⟩
  · intro message input isRead
    exact (client.map_fst_eq_ok.mp isRead).2
  · intro message part isPart cut
    exact client.map_fst_of_part trivial isPart cut
  · intro message rest countable
    exact server.map_fst_eq_ok.mpr ⟨countable, List.prefix_append _ _⟩
  · intro message input isRead
    exact server.map_fst_eq_ok.mp isRead
  · intro message part countable isPart cut
    exact server.map_fst_of_part countable isPart cut

/-- A chunk of two layers, one of them of a single kind of tile, in front of other bytes. -/
theorem chunk_form_is_exact :
    let message := ServerMessage.chunkData ⟨⟨-1, 2⟩,
      [⟨#[7], 0, 256, #[]⟩, ⟨#[3, 65535], 1, 64, #[18446744073709551615]⟩]⟩
    message.IsCountable ∧ ServerMessage.decode (message.encode ++ [4, 0, 0]) = .ok message := by
  intro message
  have countable : message.IsCountable := by
    simp [message, ServerMessage.IsCountable, ChunkData.IsCountable, PaletteLayer.IsCountable,
      IsCountable]
  exact ⟨countable, forms_are_exact.2.2.2.1 message [4, 0, 0] countable⟩

end Wire

end Overworld
