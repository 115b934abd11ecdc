import Overworld.Proofs.Terrain.Verdicts

set_option autoImplicit false

/-!
Compression is exact and cannot be improved on: of all layers that come out as the same tiles, the
compressed one has the narrowest indices, the smallest palette and the fewest words.
-/

namespace Overworld

theorem packedWords_mono {count narrow wide : Nat} (order : narrow ≤ wide) :
    packedWords count narrow ≤ packedWords count wide := by
  have more := Nat.mul_le_mul_left count order
  unfold packedWords
  omega

namespace PaletteLayer

variable {layer : PaletteLayer} {tiles : List TileId}

theorem length_le_of_decompress (isRead : layer.decompress = .ok tiles) :
    tiles.length ≤ maxLayerTiles := by
  obtain ⟨readable, size, -⟩ := decompress_eq_ok_iff.mp isRead
  rw [size]
  exact readable.short

theorem number_lt (layer : PaletteLayer) (position : Nat) :
    layer.number position < 2 ^ layer.bits.toNat :=
  Nat.mod_lt _ (Nat.two_pow_pos _)

/-- A tile is one of the entries that an index of the layer's width can name. -/
theorem subset_take_of_decompress (isRead : layer.decompress = .ok tiles) :
    tiles ⊆ layer.palette.toList.take (2 ^ layer.bits.toNat) := by
  obtain ⟨-, size, each⟩ := decompress_eq_ok_iff.mp isRead
  intro tile member
  obtain ⟨position, found⟩ := List.getElem?_of_mem member
  have inside := (List.getElem?_eq_some_iff.mp found).1
  apply List.mem_of_getElem? (i := layer.number position)
  rw [List.getElem?_take_of_lt (layer.number_lt position), Array.getElem?_toList,
    ← each position (by omega), found]

theorem kinds_le_of_decompress (isRead : layer.decompress = .ok tiles) :
    tiles.eraseDups.length ≤ 2 ^ layer.bits.toNat ∧
      tiles.eraseDups.length ≤ layer.palette.size := by
  have few := length_eraseDups_le_of_subset (subset_take_of_decompress isRead)
  rw [List.length_take] at few
  exact Nat.le_min.mp few

/-- A layer is compressed without loss as long as it may be so large at all. Any other layer with the
same tiles has at least as wide indices, as many entries in its palette and as many words. -/
theorem compress_is_least_form (tiles : List TileId) :
    ((compress tiles).decompress = .ok tiles ↔ tiles.length ≤ maxLayerTiles) ∧
    ∀ layer : PaletteLayer, layer.decompress = .ok tiles →
      (compress tiles).bits ≤ layer.bits ∧
      (compress tiles).palette.size ≤ layer.palette.size ∧
      (compress tiles).packed.size ≤ layer.packed.size := by
  refine ⟨⟨length_le_of_decompress, decompress_compress⟩, ?_⟩
  intro layer isRead
  have short := length_le_of_decompress isRead
  obtain ⟨readable, size, -⟩ := decompress_eq_ok_iff.mp isRead
  obtain ⟨nameable, listed⟩ := kinds_le_of_decompress isRead
  have narrow : indexBits tiles.eraseDups.length ≤ layer.bits.toNat := indexBits_le nameable
  refine ⟨?_, ?_, ?_⟩
  · rw [UInt8.le_iff_toNat_le, toNat_bits_compress short]
    exact narrow
  · exact listed
  · calc
      (compress tiles).packed.size
        = packedWords tiles.length (indexBits tiles.eraseDups.length) := size_packed_compress short
      _ ≤ packedWords layer.length.toNat layer.bits.toNat := by
        rw [size]
        exact packedWords_mono narrow
      _ ≤ layer.packed.size := readable.stored

/-- A layer that lists a tile twice, in wider indices than it needs and with a word to spare. -/
def lavish : PaletteLayer := ⟨#[9, 4, 9], 3, 4, #[1034, 0]⟩

theorem lavish_is_no_smaller :
    lavish.decompress = .ok [9, 4, 9, 9] ∧
    (compress [9, 4, 9, 9]).bits ≤ lavish.bits ∧
    (compress [9, 4, 9, 9]).palette.size ≤ lavish.palette.size ∧
    (compress [9, 4, 9, 9]).packed.size ≤ lavish.packed.size := by
  have isRead : lavish.decompress = .ok [9, 4, 9, 9] := rfl
  exact ⟨isRead, (compress_is_least_form [9, 4, 9, 9]).2 lavish isRead⟩

end PaletteLayer

end Overworld
