set_option autoImplicit false

/-!
A layer of tiles as a palette of its distinct tiles and one palette index per tile. The indices have
a common width, the least that fits the palette, and are packed from the low end of 64-bit words.
-/

namespace Overworld

/-- The kind of a tile. -/
abbrev TileId := UInt16

/-- The most tiles a layer may hold: a chunk of 256 tiles to a side. -/
def maxLayerTiles : Nat := 65536

structure PaletteLayer where
  palette : Array TileId
  bits : UInt8
  length : UInt32
  packed : Array UInt64
deriving DecidableEq, Inhabited

inductive PaletteError
  | badBitWidth (bits : UInt8) (entries : Nat)
  | truncated (words needed : Nat)
  | indexOutOfRange (index : UInt64) (entries : Nat)
  | tooLong (length : UInt32) (limit : Nat)
deriving DecidableEq

def PaletteError.message : PaletteError → String
  | .badBitWidth bits entries =>
    "Bit width " ++ toString bits.toNat ++ " is too wide for palette of " ++ toString entries ++
      " entries"
  | .truncated words needed =>
    "Packed data holds " ++ toString words ++ " words, " ++ toString needed ++ " needed"
  | .indexOutOfRange index entries =>
    "Palette index " ++ toString index.toNat ++ " out of range (" ++ toString entries ++ " entries)"
  | .tooLong length limit =>
    "Layer claims " ++ toString length.toNat ++ " tiles, at most " ++ toString limit ++ " allowed"

/-- The least index width for a palette; a palette of one needs none. -/
def indexBits (entries : Nat) : Nat := if entries ≤ 1 then 0 else (entries - 1).log2 + 1

/-- Words that `count` indices of `bits` bits fill. -/
def packedWords (count bits : Nat) : Nat := (count * bits + 63) / 64

/-- Packs indices behind the low `filled` bits already held in `word`. -/
def packIndices (bits : Nat) (word filled : Nat) : List Nat → List UInt64
  | [] => if filled = 0 then [] else [word.toUInt64]
  | index :: rest =>
    let word := word + index <<< filled
    let filled := filled + bits
    if 64 ≤ filled then word.toUInt64 :: packIndices bits (word >>> 64) (filled - 64) rest
    else packIndices bits word filled rest

/-- The words as one string of bits, the first word lowest. -/
def bitString (words : List UInt64) : Nat :=
  words.foldr (fun word rest => word.toNat + rest <<< 64) 0

namespace PaletteLayer

/-- The palette holds the tiles in the order they first appear. -/
def compress (tiles : List TileId) : PaletteLayer :=
  let palette := tiles.eraseDups
  let bits := indexBits palette.length
  { palette := palette.toArray
    bits := bits.toUInt8
    length := tiles.length.toUInt32
    packed := if bits = 0 then #[]
      else (packIndices bits 0 0 (tiles.map fun tile => palette.idxOf tile)).toArray }

/-- The index stored for tile `position`, unless it reaches beyond the words. -/
def index? (layer : PaletteLayer) (position : Nat) : Option UInt64 :=
  let bits := layer.bits.toNat
  if bits = 0 then some 0
  else
    let word := position * bits / 64
    let offset := position * bits % 64
    let mask : UInt64 := 1 <<< layer.bits.toUInt64 - 1
    match layer.packed[word]? with
    | none => none
    | some low =>
      let low := low >>> offset.toUInt64
      if 64 < offset + bits then
        (layer.packed[word + 1]?).map fun high => (low ||| high <<< (64 - offset).toUInt64) &&& mask
      else some (low &&& mask)

def tile (layer : PaletteLayer) (position : Nat) : Except PaletteError TileId :=
  match layer.index? position with
  | none => .error (.truncated layer.packed.size (packedWords layer.length.toNat layer.bits.toNat))
  | some index =>
    match layer.palette[index.toNat]? with
    | none => .error (.indexOutOfRange index layer.palette.size)
    | some tile => .ok tile

def decompress (layer : PaletteLayer) : Except PaletteError (List TileId) :=
  let length := layer.length.toNat
  let bits := layer.bits.toNat
  let needed := packedWords length bits
  if maxLayerTiles < length then .error (.tooLong layer.length maxLayerTiles)
  else if 16 < bits ∨ (bits = 0 ∧ 1 < layer.palette.size) then
    .error (.badBitWidth layer.bits layer.palette.size)
  else if layer.packed.size < needed then .error (.truncated layer.packed.size needed)
  else (List.range length).mapM layer.tile

end PaletteLayer

end Overworld
