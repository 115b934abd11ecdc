import Mathlib.Data.List.Forall2
import Overworld.Proofs.Order.Repetitions
import Overworld.Proofs.Terrain.Packing
import Overworld.Proofs.Wire.Messages

set_option autoImplicit false

/-!
Layers and chunks are what they were once they are compressed, sent over the wire and decompressed.
-/

namespace Overworld

/-- All items have results, and these are the results together. -/
theorem mapM_eq_ok_iff {ε α β : Type} {f : α → Except ε β} {items : List α} {results : List β} :
    items.mapM f = .ok results ↔
      List.Forall₂ (fun item result => f item = .ok result) items results := by
  induction items generalizing results with
  | nil => cases results <;> simp [pure, Except.pure]
  | cons item rest ih =>
      simp only [List.mapM_cons, Wire.bind_eq_ok, Wire.pure_eq_ok, ih, List.forall₂_cons_left_iff]
      constructor
      · rintro ⟨result, one, later, all, rfl⟩
        exact ⟨result, later, one, all, rfl⟩
      · rintro ⟨result, later, one, all, rfl⟩
        exact ⟨result, one, later, all, rfl⟩

theorem bind_eq_error {ε α β : Type} {first : Except ε α} {next : α → Except ε β} {error : ε} :
    (first >>= next) = .error error ↔
      first = .error error ∨ ∃ value, first = .ok value ∧ next value = .error error := by
  cases first with
  | error _ => simp [bind, Except.bind]
  | ok value => simp [bind, Except.bind]

/-- The first item without a result decides the error. -/
theorem mapM_eq_error_iff {ε α β : Type} {f : α → Except ε β} {items : List α} {error : ε} :
    items.mapM f = .error error ↔
      ∃ before item after, items = before ++ item :: after ∧
        (∀ earlier ∈ before, ∃ result, f earlier = .ok result) ∧ f item = .error error := by
  induction items with
  | nil => simp [pure, Except.pure]
  | cons first rest ih =>
      simp only [List.mapM_cons, bind_eq_error, ih, pure, Except.pure, reduceCtorEq, and_false,
        exists_const, or_false]
      constructor
      · rintro (failed | ⟨result, one, before, item, after, rfl, fine, failed⟩)
        · exact ⟨[], first, rest, rfl, by simp, failed⟩
        · refine ⟨first :: before, item, after, rfl, ?_, failed⟩
          exact List.forall_mem_cons.mpr ⟨⟨result, one⟩, fine⟩
      · rintro ⟨before, item, after, split, fine, failed⟩
        cases before with
        | nil =>
            cases split
            exact Or.inl failed
        | cons earlier before =>
            cases split
            obtain ⟨⟨result, one⟩, fine⟩ := List.forall_mem_cons.mp fine
            exact Or.inr ⟨result, one, before, item, after, rfl, fine, failed⟩

theorem lt_two_pow_indexBits {index entries : Nat} (inside : index < entries) :
    index < 2 ^ indexBits entries := by
  unfold indexBits
  split
  · omega
  · exact Nat.lt_of_le_of_lt (Nat.le_sub_one_of_lt inside) Nat.lt_log2_self

theorem indexBits_le {entries width : Nat} (few : entries ≤ 2 ^ width) : indexBits entries ≤ width := by
  unfold indexBits
  split
  · exact Nat.zero_le _
  · have several : entries - 1 ≠ 0 := by omega
    have narrow : (entries - 1).log2 < width := (Nat.log2_lt several).mpr (by omega)
    exact narrow

theorem entries_le_one_of_indexBits {entries : Nat} (none : indexBits entries = 0) : entries ≤ 1 := by
  unfold indexBits at none
  split at none
  · assumption
  · cases none

namespace PaletteLayer

variable {tiles : List TileId}

theorem length_palette_le (short : tiles.length ≤ maxLayerTiles) :
    tiles.eraseDups.length ≤ 2 ^ 16 :=
  Nat.le_trans (length_eraseDups_le tiles) short

theorem toNat_bits_compress (short : tiles.length ≤ maxLayerTiles) :
    (compress tiles).bits.toNat = indexBits tiles.eraseDups.length :=
  UInt8.toNat_ofNat_of_lt
    (Nat.lt_of_le_of_lt (indexBits_le (length_palette_le short)) (by decide))

theorem toNat_length_compress (short : tiles.length ≤ maxLayerTiles) :
    (compress tiles).length.toNat = tiles.length :=
  UInt32.toNat_ofNat_of_lt (Nat.lt_of_le_of_lt short (by decide))

theorem size_packed_compress (short : tiles.length ≤ maxLayerTiles) :
    (compress tiles).packed.size = packedWords tiles.length (indexBits tiles.eraseDups.length) := by
  have narrow := indexBits_le (length_palette_le short)
  unfold compress packedWords
  dsimp only
  split
  · rename_i none
    rw [none, Nat.mul_zero]
    rfl
  · rw [List.size_toArray, length_packIndices (by omega) (by decide), List.length_map, Nat.zero_add]

/-- Each tile is stored as its place in the palette. -/
theorem index?_compress (short : tiles.length ≤ maxLayerTiles) {position : Nat} {tile : TileId}
    (found : tiles[position]? = some tile) :
    ∃ index, (compress tiles).index? position = some index ∧
      index.toNat = tiles.eraseDups.idxOf tile := by
  obtain ⟨inside, rfl⟩ := List.getElem?_eq_some_iff.mp found
  have narrow := indexBits_le (length_palette_le short)
  have width := toNat_bits_compress short
  have small : ∀ index ∈ tiles.map fun tile => tiles.eraseDups.idxOf tile,
      index < 2 ^ indexBits tiles.eraseDups.length := by
    intro index member
    obtain ⟨tile, isTile, rfl⟩ := List.mem_map.mp member
    exact lt_two_pow_indexBits (List.idxOf_lt_length_iff.mpr (List.mem_eraseDups.mpr isTile))
  have enough : (position + 1) * (compress tiles).bits.toNat ≤ 64 * (compress tiles).packed.size := by
    rw [width, size_packed_compress short]
    have all : (position + 1) * indexBits tiles.eraseDups.length ≤
        tiles.length * indexBits tiles.eraseDups.length := Nat.mul_le_mul_right _ inside
    unfold packedWords
    omega
  obtain ⟨index, isIndex, value⟩ := index?_eq_some (by rw [width]; exact narrow) enough
  refine ⟨index, isIndex, ?_⟩
  have stored : (tiles.map fun tile => tiles.eraseDups.idxOf tile)[position]? =
      some (tiles.eraseDups.idxOf tiles[position]) := by
    rw [List.getElem?_map, found]
    rfl
  rw [value, width]
  by_cases none : indexBits tiles.eraseDups.length = 0
  · have zero := small _ (List.mem_of_getElem? stored)
    rw [none, Nat.pow_zero, Nat.lt_one_iff] at zero
    rw [none, zero, Nat.pow_zero, Nat.mod_one]
  · have packed : (compress tiles).packed.toList = packIndices (indexBits tiles.eraseDups.length) 0 0
        (tiles.map fun tile => tiles.eraseDups.idxOf tile) := by
      unfold compress
      dsimp only
      rw [if_neg none]
    rw [packed, bitString_packIndices (by omega) (by decide) (by decide) small, Nat.zero_add,
      Nat.shiftLeft_zero, indexString_shiftRight small stored]

theorem tile_compress (short : tiles.length ≤ maxLayerTiles) {position : Nat} {tile : TileId}
    (found : tiles[position]? = some tile) : (compress tiles).tile position = .ok tile := by
  obtain ⟨index, isIndex, place⟩ := index?_compress short found
  have entry : (compress tiles).palette[index.toNat]? = some tile := by
    rw [place]
    exact List.getElem?_toArray.trans
      (List.getElem?_idxOf (List.mem_eraseDups.mpr (List.mem_of_getElem? found)))
  unfold PaletteLayer.tile
  rw [isIndex]
  dsimp only
  rw [entry]

/-- A layer comes out as it went in. -/
theorem decompress_compress (short : tiles.length ≤ maxLayerTiles) :
    (compress tiles).decompress = .ok tiles := by
  have narrow := indexBits_le (length_palette_le short)
  unfold decompress
  dsimp only
  rw [toNat_bits_compress short, toNat_length_compress short, size_packed_compress short,
    if_neg (Nat.not_lt.mpr short), if_neg, if_neg (Nat.lt_irrefl _), mapM_eq_ok_iff,
    List.forall₂_iff_get]
  · refine ⟨List.length_range, fun position _ inside => ?_⟩
    rw [List.get_eq_getElem, List.getElem_range]
    exact tile_compress short (List.getElem?_eq_getElem inside)
  · rintro (wide | ⟨none, several⟩)
    · omega
    · exact Nat.not_lt.mpr (entries_le_one_of_indexBits none) several

theorem isCountable_compress (short : tiles.length ≤ maxLayerTiles) :
    (compress tiles).IsCountable := by
  have narrow := indexBits_le (length_palette_le short)
  have palette := length_palette_le short
  have words := size_packed_compress short
  have all := Nat.mul_le_mul short narrow
  unfold packedWords maxLayerTiles at *
  refine ⟨?_, ?_⟩
  · change tiles.eraseDups.length < 18446744073709551616
    omega
  · change (compress tiles).packed.size < 18446744073709551616
    omega

end PaletteLayer

/-- The layers of each chunk can be counted, and none has more tiles than a layer may hold. -/
structure TileMap.IsStorable (map : TileMap) : Prop where
  layers : ∀ position, Wire.IsCountable (map.layersAt position).length
  tiles : ∀ position, ∀ layer ∈ map.layersAt position, layer.length ≤ maxLayerTiles

namespace ChunkData

variable {map : TileMap}

theorem decompress_ofMap (storable : map.IsStorable) (position : ChunkPosition) :
    (ofMap map position).decompress = .ok (map.layersAt position) := by
  refine mapM_eq_ok_iff.mpr (List.forall₂_map_left_iff.mpr (List.forall₂_same.mpr ?_))
  exact fun layer member => PaletteLayer.decompress_compress (storable.tiles position layer member)

theorem isCountable_ofMap (storable : map.IsStorable) (position : ChunkPosition) :
    (ofMap map position).IsCountable := by
  refine ⟨?_, fun layer member => ?_⟩
  · change Wire.IsCountable (((map.layersAt position).map PaletteLayer.compress).length)
    rw [List.length_map]
    exact storable.layers position
  · obtain ⟨tiles, isLayer, rfl⟩ := List.mem_map.mp member
    exact PaletteLayer.isCountable_compress (storable.tiles position tiles isLayer)

end ChunkData

end Overworld
