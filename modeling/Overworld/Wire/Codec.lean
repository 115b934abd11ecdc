import Overworld.Wire.Bytes
import Overworld.Wire.Message

set_option autoImplicit false

/-!
The wire form of messages. A message is the number of its kind and then its fields in order; a
structure is its fields in order. Bytes beyond a message are left alone.
-/

namespace Overworld

namespace Wire

def putSingle (value : Single) : Bytes := putWord32 value.bits

def single : Reader Single := fun input => do
  let (bits, rest) ← word32 input
  return (⟨bits⟩, rest)

def putVec3 (value : Vec3) : Bytes := putSingle value.x ++ putSingle value.y ++ putSingle value.z

def vec3 : Reader Vec3 := fun input => do
  let (x, rest) ← single input
  let (y, rest) ← single rest
  let (z, rest) ← single rest
  return (⟨x, y, z⟩, rest)

def putEntityId (id : EntityId) : Bytes := putWord32 id.index ++ putWord32 id.generation

def entityId : Reader EntityId := fun input => do
  let (index, rest) ← word32 input
  let (generation, rest) ← word32 rest
  return (⟨index, generation⟩, rest)

def putKeys (keys : Keys) : Bytes := putByte keys.bits

def keys : Reader Keys := fun input => do
  let (bits, rest) ← byte input
  return (⟨bits⟩, rest)

def putSnapshot (snapshot : Snapshot) : Bytes :=
  putWord64 snapshot.tick ++ putEntityId snapshot.entity ++ putVec3 snapshot.position ++
    putVec3 snapshot.velocity ++ putKeys snapshot.keys ++ putSingle snapshot.halfExtent

def snapshot : Reader Snapshot := fun input => do
  let (tick, rest) ← word64 input
  let (entity, rest) ← entityId rest
  let (position, rest) ← vec3 rest
  let (velocity, rest) ← vec3 rest
  let (keys, rest) ← keys rest
  let (halfExtent, rest) ← single rest
  return (⟨tick, entity, position, velocity, keys, halfExtent⟩, rest)

def putChunkPosition (position : ChunkPosition) : Bytes :=
  putWord32 position.x.toUInt32 ++ putWord32 position.y.toUInt32

def chunkPosition : Reader ChunkPosition := fun input => do
  let (x, rest) ← word32 input
  let (y, rest) ← word32 rest
  return (⟨x.toInt32, y.toInt32⟩, rest)

def putLayer (layer : PaletteLayer) : Bytes :=
  putSequence putWord16 layer.palette.toList ++ putByte layer.bits ++ putWord32 layer.length ++
    putSequence putWord64 layer.packed.toList

def layer : Reader PaletteLayer := fun input => do
  let (palette, rest) ← sequence word16 input
  let (bits, rest) ← byte rest
  let (length, rest) ← word32 rest
  let (packed, rest) ← sequence word64 rest
  return (⟨palette.toArray, bits, length, packed.toArray⟩, rest)

def putChunk (chunk : ChunkData) : Bytes :=
  putChunkPosition chunk.position ++ putSequence putLayer chunk.layers

def chunk : Reader ChunkData := fun input => do
  let (position, rest) ← chunkPosition input
  let (layers, rest) ← sequence layer rest
  return (⟨position, layers⟩, rest)

end Wire

open Wire

namespace ClientMessage

def encode : ClientMessage → Bytes
  | .input tick keys => putWord32 0 ++ putWord64 tick ++ putKeys keys
  | .heartbeat tick => putWord32 1 ++ putWord64 tick
  | .disconnect => putWord32 2

/-- Reads a message from the front of the input. -/
def read : Reader ClientMessage := fun input => do
  let (tag, rest) ← word32 input
  match tag with
  | 0 =>
    let (tick, rest) ← word64 rest
    let (keys, rest) ← keys rest
    return (.input tick keys, rest)
  | 1 =>
    let (tick, rest) ← word64 rest
    return (.heartbeat tick, rest)
  | 2 => return (.disconnect, rest)
  | _ => .error (.unknownVariant tag.toNat 3)

def decode (input : Bytes) : Except DecodeError ClientMessage := (read input).map (·.1)

end ClientMessage

namespace ServerMessage

def encode : ServerMessage → Bytes
  | .connectionResponse tick entity spawn =>
    putWord32 0 ++ putWord64 tick ++ putEntityId entity ++ putVec3 spawn
  | .entityUpdate snapshot => putWord32 1 ++ putSnapshot snapshot
  | .entityEntered snapshot => putWord32 2 ++ putSnapshot snapshot
  | .entityLeft tick entity => putWord32 3 ++ putWord64 tick ++ putEntityId entity
  | .chunkData chunk => putWord32 4 ++ putChunk chunk
  | .tickAdjustment delta => putWord32 5 ++ putWord64 delta.toUInt64
  | .kicked reason => putWord32 6 ++ putText reason

/-- Reads a message from the front of the input. -/
def read : Reader ServerMessage := fun input => do
  let (tag, rest) ← word32 input
  match tag with
  | 0 =>
    let (tick, rest) ← word64 rest
    let (entity, rest) ← entityId rest
    let (spawn, rest) ← vec3 rest
    return (.connectionResponse tick entity spawn, rest)
  | 1 =>
    let (snapshot, rest) ← snapshot rest
    return (.entityUpdate snapshot, rest)
  | 2 =>
    let (snapshot, rest) ← snapshot rest
    return (.entityEntered snapshot, rest)
  | 3 =>
    let (tick, rest) ← word64 rest
    let (entity, rest) ← entityId rest
    return (.entityLeft tick entity, rest)
  | 4 =>
    let (chunk, rest) ← chunk rest
    return (.chunkData chunk, rest)
  | 5 =>
    let (delta, rest) ← word64 rest
    return (.tickAdjustment delta.toInt64, rest)
  | 6 =>
    let (reason, rest) ← text rest
    return (.kicked reason, rest)
  | _ => .error (.unknownVariant tag.toNat 7)

def decode (input : Bytes) : Except DecodeError ServerMessage := (read input).map (·.1)

end ServerMessage

end Overworld
