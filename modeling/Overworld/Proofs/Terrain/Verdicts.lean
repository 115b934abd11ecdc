import Overworld.Proofs.Terrain.RoundTrip

set_option autoImplicit false

/-!
What a layer from outside is answered with, whatever it claims. The words are one string of bits, and a
tile is the palette entry at the number in its place of the string. A layer is refused for the first
fault it has, and no word is read that is not there.
-/

namespace Overworld

theorem packedWords_le_iff {count bits words : Nat} :
    packedWords count bits ≤ words ↔ count * bits ≤ 64 * words := by
  unfold packedWords
  omega

/-- A shift that has no result where a word is shifted by its width or more. -/
def guardedShift (shift : UInt64 → UInt64 → UInt64) (word : UInt64) (count : Nat) : Option UInt64 :=
  if count < 64 then some (shift word count.toUInt64) else none

theorem guardedShift_of_lt (shift : UInt64 → UInt64 → UInt64) (word : UInt64) {count : Nat}
    (inside : count < 64) : guardedShift shift word count = some (shift word count.toUInt64) := by
  unfold guardedShift
  rw [if_pos inside]

/-- Where every item has an answer, the answers are put together as without the guard. -/
theorem run_mapM_of_some {ε α β : Type} {guarded : α → Option (Except ε β)} {f : α → Except ε β}
    {items : List α} (same : ∀ item ∈ items, guarded item = some (f item)) :
    (items.mapM fun item => ExceptT.mk (guarded item)).run = some (items.mapM f) := by
  induction items with
  | nil => rfl
  | cons item rest ih =>
      obtain ⟨one, others⟩ := List.forall_mem_cons.mp same
      have later := ih others
      rw [List.mapM_cons, List.mapM_cons, ExceptT.run_bind]
      simp only [ExceptT.run_mk, one, Option.bind_eq_bind, Option.bind_some]
      cases f item with
      | error _ => rfl
      | ok result =>
          simp only [ExceptT.run_bind, later, Option.bind_eq_bind, Option.bind_some]
          cases rest.mapM f <;> rfl

namespace PaletteLayer

/-- The number in the bits from `position * bits` on, the words read as one string of bits. -/
def number (layer : PaletteLayer) (position : Nat) : Nat :=
  bitString layer.packed.toList >>> (position * layer.bits.toNat) % 2 ^ layer.bits.toNat

/-- All that can be asked of a layer before a tile is read. -/
structure IsWellSized (layer : PaletteLayer) : Prop where
  short : layer.length.toNat ≤ maxLayerTiles
  narrow : layer.bits.toNat ≤ 16
  indexed : ¬ (layer.bits.toNat = 0 ∧ 1 < layer.palette.size)
  stored : packedWords layer.length.toNat layer.bits.toNat ≤ layer.packed.size

/-- A layer that can be read to its end. -/
structure IsReadable (layer : PaletteLayer) : Prop extends layer.IsWellSized where
  known : ∀ position < layer.length.toNat, layer.number position < layer.palette.size

/-- The first fault of a layer: each one presumes that the layer has none of those before it. -/
inductive HasFault (layer : PaletteLayer) : PaletteError → Prop
  | tooLong (long : maxLayerTiles < layer.length.toNat) :
      layer.HasFault (.tooLong layer.length maxLayerTiles)
  | badBitWidth (short : layer.length.toNat ≤ maxLayerTiles)
      (unfit : 16 < layer.bits.toNat ∨ layer.bits.toNat = 0 ∧ 1 < layer.palette.size) :
      layer.HasFault (.badBitWidth layer.bits layer.palette.size)
  | truncated (short : layer.length.toNat ≤ maxLayerTiles) (narrow : layer.bits.toNat ≤ 16)
      (indexed : ¬ (layer.bits.toNat = 0 ∧ 1 < layer.palette.size))
      (missing : layer.packed.size < packedWords layer.length.toNat layer.bits.toNat) :
      layer.HasFault (.truncated layer.packed.size
        (packedWords layer.length.toNat layer.bits.toNat))
  | indexOutOfRange (sized : layer.IsWellSized) (position : Nat)
      (inside : position < layer.length.toNat)
      (known : ∀ earlier < position, layer.number earlier < layer.palette.size)
      (unknown : layer.palette.size ≤ layer.number position) :
      layer.HasFault (.indexOutOfRange (layer.number position).toUInt64 layer.palette.size)

variable {layer : PaletteLayer} {position : Nat} {tiles : List TileId} {error : PaletteError}

theorem index?_eq_number (sized : layer.IsWellSized) (inside : position < layer.length.toNat) :
    ∃ index, layer.index? position = some index ∧ index.toNat = layer.number position := by
  have all : (position + 1) * layer.bits.toNat ≤ layer.length.toNat * layer.bits.toNat :=
    Nat.mul_le_mul_right _ inside
  exact index?_eq_some sized.narrow (Nat.le_trans all (packedWords_le_iff.mp sized.stored))

theorem tile_eq_ok_iff (sized : layer.IsWellSized) (inside : position < layer.length.toNat)
    {tile : TileId} :
    layer.tile position = .ok tile ↔ layer.palette[layer.number position]? = some tile := by
  obtain ⟨index, found, value⟩ := index?_eq_number sized inside
  unfold PaletteLayer.tile
  rw [found, ← value]
  dsimp only
  cases layer.palette[index.toNat]? <;> simp

theorem tile_eq_error_iff (sized : layer.IsWellSized) (inside : position < layer.length.toNat) :
    layer.tile position = .error error ↔
      layer.palette.size ≤ layer.number position ∧
        error = .indexOutOfRange (layer.number position).toUInt64 layer.palette.size := by
  obtain ⟨index, found, value⟩ := index?_eq_number sized inside
  have word : (layer.number position).toUInt64 = index := by
    rw [← value]
    exact UInt64.ofNat_toNat
  unfold PaletteLayer.tile
  rw [found, word, ← value]
  dsimp only
  cases entry : layer.palette[index.toNat]? with
  | none => simp [Array.getElem?_eq_none_iff.mp entry, eq_comm]
  | some tile =>
      have known := (Array.getElem?_eq_some_iff.mp entry).1
      simp [known]

theorem decompress_of_isWellSized (sized : layer.IsWellSized) :
    layer.decompress = (List.range layer.length.toNat).mapM layer.tile := by
  have fit : ¬ (16 < layer.bits.toNat ∨ layer.bits.toNat = 0 ∧ 1 < layer.palette.size) :=
    not_or.mpr ⟨Nat.not_lt.mpr sized.narrow, sized.indexed⟩
  unfold decompress
  dsimp only
  rw [if_neg (Nat.not_lt.mpr sized.short), if_neg fit, if_neg (Nat.not_lt.mpr sized.stored)]

/-- A layer is refused before a tile is read, or it is large enough for all of its tiles. -/
theorem refused_or_isWellSized (layer : PaletteLayer) :
    (∃ error, layer.HasFault error ∧ layer.decompress = .error error) ∨ layer.IsWellSized := by
  unfold decompress
  dsimp only
  by_cases long : maxLayerTiles < layer.length.toNat
  · rw [if_pos long]
    exact Or.inl ⟨_, .tooLong long, rfl⟩
  · rw [if_neg long]
    have short := Nat.not_lt.mp long
    by_cases unfit : 16 < layer.bits.toNat ∨ layer.bits.toNat = 0 ∧ 1 < layer.palette.size
    · rw [if_pos unfit]
      exact Or.inl ⟨_, .badBitWidth short unfit, rfl⟩
    · rw [if_neg unfit]
      obtain ⟨narrow, indexed⟩ := not_or.mp unfit
      have narrow := Nat.not_lt.mp narrow
      by_cases missing : layer.packed.size < packedWords layer.length.toNat layer.bits.toNat
      · rw [if_pos missing]
        exact Or.inl ⟨_, .truncated short narrow indexed missing, rfl⟩
      · exact Or.inr ⟨short, narrow, indexed, Nat.not_lt.mp missing⟩

/-- The tiles of a layer that is large enough are the entries at its numbers. -/
theorem decompress_eq_ok_iff_of_isWellSized (sized : layer.IsWellSized) :
    layer.decompress = .ok tiles ↔
      tiles.length = layer.length.toNat ∧ ∀ position < layer.length.toNat,
        ∃ tile, tiles[position]? = some tile ∧
          layer.palette[layer.number position]? = some tile := by
  rw [decompress_of_isWellSized sized, mapM_eq_ok_iff, List.forall₂_iff_get]
  constructor
  · rintro ⟨size, each⟩
    rw [List.length_range] at size
    refine ⟨size.symm, ?_⟩
    intro position inside
    have one := each position (by simpa using inside) (by omega)
    rw [List.get_eq_getElem, List.getElem_range, tile_eq_ok_iff sized inside] at one
    exact ⟨_, List.getElem?_eq_getElem (by omega), one⟩
  · rintro ⟨size, each⟩
    refine ⟨List.length_range.trans size.symm, ?_⟩
    intro position _ inTiles
    have inside : position < layer.length.toNat := by omega
    obtain ⟨tile, place, entry⟩ := each position inside
    rw [List.getElem?_eq_getElem inTiles, Option.some.injEq] at place
    rw [List.get_eq_getElem, List.getElem_range, List.get_eq_getElem, place,
      tile_eq_ok_iff sized inside]
    exact entry

/-- The fault of a layer that is large enough is its first number beyond the palette. -/
theorem decompress_eq_error_iff_of_isWellSized (sized : layer.IsWellSized) :
    layer.decompress = .error error ↔
      ∃ position < layer.length.toNat,
        (∀ earlier < position, layer.number earlier < layer.palette.size) ∧
        layer.palette.size ≤ layer.number position ∧
        error = .indexOutOfRange (layer.number position).toUInt64 layer.palette.size := by
  rw [decompress_of_isWellSized sized, mapM_eq_error_iff]
  constructor
  · rintro ⟨before, position, after, split, fine, failed⟩
    -- The item that failed is the position itself, as many as there are before it.
    rw [List.range_eq_range', List.range'_eq_append_iff] at split
    obtain ⟨position, bounded, rfl, rest⟩ := split
    obtain ⟨rfl, positive, -⟩ := List.range'_eq_cons_iff.mp rest.symm
    rw [Nat.mul_one, Nat.zero_add] at failed
    have inside : position < layer.length.toNat := by omega
    refine ⟨position, inside, ?_, (tile_eq_error_iff sized inside).mp failed⟩
    intro earlier before
    obtain ⟨tile, isTile⟩ := fine earlier (by simpa using before)
    rw [tile_eq_ok_iff sized (by omega)] at isTile
    exact (Array.getElem?_eq_some_iff.mp isTile).1
  · rintro ⟨position, inside, known, unknown⟩
    obtain ⟨more, size⟩ := Nat.exists_eq_add_of_lt inside
    have split : List.range layer.length.toNat =
        List.range position ++ position :: List.range' (position + 1) more := by
      rw [size, List.range_eq_range', List.range_eq_range', Nat.add_assoc, ← List.range'_append_1,
        Nat.zero_add, List.range'_succ]
    refine ⟨_, position, _, split, ?_, (tile_eq_error_iff sized inside).mpr unknown⟩
    intro earlier member
    have before := List.mem_range.mp member
    have entry := Array.getElem?_eq_getElem (known earlier before)
    exact ⟨_, (tile_eq_ok_iff sized (Nat.lt_trans before inside)).mpr entry⟩

theorem decompress_eq_error_iff : layer.decompress = .error error ↔ layer.HasFault error := by
  constructor
  · intro failed
    obtain ⟨fault, isFault, refused⟩ | sized := layer.refused_or_isWellSized
    · rw [refused] at failed
      cases failed
      exact isFault
    · obtain ⟨position, inside, known, unknown, rfl⟩ :=
        (decompress_eq_error_iff_of_isWellSized sized).mp failed
      exact .indexOutOfRange sized position inside known unknown
  · intro fault
    cases fault with
    | tooLong long =>
        unfold decompress
        dsimp only
        rw [if_pos long]
    | badBitWidth short unfit =>
        unfold decompress
        dsimp only
        rw [if_neg (Nat.not_lt.mpr short), if_pos unfit]
    | truncated short narrow indexed missing =>
        have fit := not_or.mpr ⟨Nat.not_lt.mpr narrow, indexed⟩
        unfold decompress
        dsimp only
        rw [if_neg (Nat.not_lt.mpr short), if_neg fit, if_pos missing]
    | indexOutOfRange sized position inside known unknown =>
        exact (decompress_eq_error_iff_of_isWellSized sized).mpr
          ⟨position, inside, known, unknown, rfl⟩

theorem isWellSized_of_decompress (isRead : layer.decompress = .ok tiles) : layer.IsWellSized := by
  obtain ⟨fault, -, refused⟩ | sized := layer.refused_or_isWellSized
  · rw [refused] at isRead
    cases isRead
  · exact sized

theorem decompress_eq_ok_iff :
    layer.decompress = .ok tiles ↔
      layer.IsReadable ∧ tiles.length = layer.length.toNat ∧
        ∀ position < layer.length.toNat,
          tiles[position]? = layer.palette[layer.number position]? := by
  constructor
  · intro isRead
    have sized := isWellSized_of_decompress isRead
    obtain ⟨size, each⟩ := (decompress_eq_ok_iff_of_isWellSized sized).mp isRead
    refine ⟨⟨sized, ?_⟩, size, ?_⟩
    · intro position inside
      obtain ⟨tile, -, entry⟩ := each position inside
      exact (Array.getElem?_eq_some_iff.mp entry).1
    · intro position inside
      obtain ⟨tile, place, entry⟩ := each position inside
      rw [place, entry]
  · rintro ⟨readable, size, each⟩
    refine (decompress_eq_ok_iff_of_isWellSized readable.toIsWellSized).mpr ⟨size, ?_⟩
    intro position inside
    have entry := Array.getElem?_eq_getElem (readable.known position inside)
    exact ⟨_, (each position inside).trans entry, entry⟩

/-- A layer has tiles or a fault, and never both. -/
theorem IsReadable.decompress (readable : layer.IsReadable) :
    ∃ tiles, layer.decompress = .ok tiles := by
  cases answer : layer.decompress with
  | ok tiles => exact ⟨tiles, rfl⟩
  | error fault =>
      obtain ⟨position, inside, -, unknown, -⟩ :=
        (decompress_eq_error_iff_of_isWellSized readable.toIsWellSized).mp answer
      exact absurd (readable.known position inside) (Nat.not_lt.mpr unknown)

/-- The index stored for a tile, without a result where a word that is not there is read or a word is
shifted by its width. -/
def guardedIndex? (layer : PaletteLayer) (position : Nat) : Option UInt64 :=
  let bits := layer.bits.toNat
  if bits = 0 then some 0
  else do
    let word := position * bits / 64
    let offset := position * bits % 64
    let mask ← guardedShift (· <<< ·) 1 bits
    let low ← layer.packed[word]?
    let low ← guardedShift (· >>> ·) low offset
    if 64 < offset + bits then
      let high ← layer.packed[word + 1]?
      let high ← guardedShift (· <<< ·) high (64 - offset)
      some ((low ||| high) &&& (mask - 1))
    else some (low &&& (mask - 1))

/-- The palette entry at the index stored for a tile, or the fault that there is none. -/
def guardedTile? (layer : PaletteLayer) (position : Nat) : Option (Except PaletteError TileId) :=
  (layer.guardedIndex? position).map fun index =>
    match layer.palette[index.toNat]? with
    | none => .error (.indexOutOfRange index layer.palette.size)
    | some tile => .ok tile

/-- The tiles of a layer or its fault, without a result where the reading of a tile has none. -/
def guardedDecompress? (layer : PaletteLayer) : Option (Except PaletteError (List TileId)) :=
  let length := layer.length.toNat
  let bits := layer.bits.toNat
  let needed := packedWords length bits
  if maxLayerTiles < length then some (.error (.tooLong layer.length maxLayerTiles))
  else if 16 < bits ∨ (bits = 0 ∧ 1 < layer.palette.size) then
    some (.error (.badBitWidth layer.bits layer.palette.size))
  else if layer.packed.size < needed then some (.error (.truncated layer.packed.size needed))
  else ((List.range length).mapM fun position => ExceptT.mk (layer.guardedTile? position)).run

/-- With a width of at most 16, words are shifted by less than their width. -/
theorem guardedIndex?_eq (narrow : layer.bits.toNat ≤ 16) (position : Nat) :
    layer.guardedIndex? position = layer.index? position := by
  have width : layer.bits.toNat.toUInt64 = layer.bits.toUInt64 := by
    apply UInt64.toNat_inj.mp
    rw [UInt8.toNat_toUInt64]
    exact UInt64.toNat_ofNat_of_lt (Nat.lt_of_le_of_lt narrow (by decide))
  unfold guardedIndex? index?
  dsimp only
  by_cases empty : layer.bits.toNat = 0
  · rw [if_pos empty, if_pos empty]
  · rw [if_neg empty, if_neg empty, guardedShift_of_lt _ _ (by omega), width]
    cases layer.packed[position * layer.bits.toNat / 64]? with
    | none => rfl
    | some low =>
        have inside : position * layer.bits.toNat % 64 < 64 := Nat.mod_lt _ (by decide)
        simp only [guardedShift_of_lt _ _ inside, Option.bind_eq_bind, Option.bind_some]
        by_cases across : 64 < position * layer.bits.toNat % 64 + layer.bits.toNat
        -- A number of at most 16 bits that runs over the end of a word does not begin with it.
        · have above : 64 - position * layer.bits.toNat % 64 < 64 := by omega
          simp only [if_pos across, guardedShift_of_lt _ _ above, Option.bind_some]
          cases layer.packed[position * layer.bits.toNat / 64 + 1]? <;> rfl
        · rw [if_neg across, if_neg across]

theorem guardedTile?_eq (sized : layer.IsWellSized) (inside : position < layer.length.toNat) :
    layer.guardedTile? position = some (layer.tile position) := by
  obtain ⟨index, found, -⟩ := index?_eq_number sized inside
  unfold guardedTile? PaletteLayer.tile
  rw [guardedIndex?_eq sized.narrow, found]
  rfl

/-- Reading a layer never comes to a word that is not there or to a shift by a whole word. -/
theorem guardedDecompress?_eq (layer : PaletteLayer) :
    layer.guardedDecompress? = some layer.decompress := by
  unfold guardedDecompress? decompress
  dsimp only
  split_ifs with long unfit missing
  · rfl
  · rfl
  · rfl
  · obtain ⟨narrow, indexed⟩ := not_or.mp unfit
    have sized : layer.IsWellSized :=
      ⟨Nat.not_lt.mp long, Nat.not_lt.mp narrow, indexed, Nat.not_lt.mp missing⟩
    apply run_mapM_of_some
    intro position member
    exact guardedTile?_eq sized (List.mem_range.mp member)

/-- Whatever layer comes from outside, it is read without a step beyond its words or beyond a word. It
has tiles exactly where it is readable: as many as it claims, each the entry at the number in its place.
Otherwise the answer is its first fault. -/
theorem decompress_answers (layer : PaletteLayer) :
    layer.guardedDecompress? = some layer.decompress ∧
    ((∃ tiles, layer.decompress = .ok tiles) ↔ layer.IsReadable) ∧
    (∀ tiles, layer.decompress = .ok tiles ↔
      layer.IsReadable ∧ tiles.length = layer.length.toNat ∧
        ∀ position < layer.length.toNat,
          tiles[position]? = layer.palette[layer.number position]?) ∧
    ∀ error, layer.decompress = .error error ↔ layer.HasFault error := by
  refine ⟨guardedDecompress?_eq layer, ⟨?_, IsReadable.decompress⟩,
    fun _ => decompress_eq_ok_iff, fun _ => decompress_eq_error_iff⟩
  rintro ⟨tiles, isRead⟩
  exact (decompress_eq_ok_iff.mp isRead).1

end PaletteLayer

end Overworld
