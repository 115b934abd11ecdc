import Mathlib.Data.Nat.Bitwise
import Mathlib.Tactic.Ring
import Overworld.Terrain.Palette

set_option autoImplicit false

/-!
Numbers of a common width behind each other in 64-bit words. The words are one string of bits, and a
number is read from its place in the string, whether it lies in one word or across two.
-/

namespace Overworld

/-- Numbers of `bits` bits as one string of bits, the first number lowest. -/
def indexString (bits : Nat) (indices : List Nat) : Nat :=
  indices.foldr (fun index rest => index + rest <<< bits) 0

section

variable {bits word filled : Nat} {indices : List Nat}

theorem add_shiftLeft_lt {index : Nat} (held : word < 2 ^ filled) (small : index < 2 ^ bits) :
    word + index <<< filled < 2 ^ (filled + bits) := by
  rw [Nat.shiftLeft_eq, Nat.pow_add, Nat.mul_comm (2 ^ filled)]
  calc word + index * 2 ^ filled < 2 ^ filled + index * 2 ^ filled := Nat.add_lt_add_right held _
    _ = (index + 1) * 2 ^ filled := by rw [Nat.succ_mul, Nat.add_comm]
    _ ≤ 2 ^ bits * 2 ^ filled := Nat.mul_le_mul_right _ small

/-- The low word and what is above it. -/
theorem word_add_shiftRight (value rest shift : Nat) :
    value.toUInt64.toNat + (value >>> 64 + rest <<< shift) <<< 64 = value + rest <<< (64 + shift) := by
  have low : value.toUInt64.toNat = value % 2 ^ 64 := UInt64.toNat_ofNat'
  have parts := Nat.mod_add_div value (2 ^ 64)
  rw [low, Nat.shiftLeft_eq, Nat.shiftLeft_eq, Nat.shiftLeft_eq, Nat.shiftRight_eq_div_pow,
    Nat.pow_add]
  calc value % 2 ^ 64 + (value / 2 ^ 64 + rest * 2 ^ shift) * 2 ^ 64
      = value % 2 ^ 64 + 2 ^ 64 * (value / 2 ^ 64) + rest * (2 ^ 64 * 2 ^ shift) := by ring
    _ = value + rest * (2 ^ 64 * 2 ^ shift) := by rw [parts]

/-- The words hold the bits that were there and all numbers behind them. -/
theorem bitString_packIndices (narrow : bits ≤ 64) (free : filled < 64) (held : word < 2 ^ filled)
    (small : ∀ index ∈ indices, index < 2 ^ bits) :
    bitString (packIndices bits word filled indices) =
      word + indexString bits indices <<< filled := by
  induction indices generalizing word filled with
  | nil =>
      by_cases empty : filled = 0
      · subst empty
        have nothing : word = 0 := Nat.lt_one_iff.mp held
        simp [packIndices, bitString, indexString, nothing]
      · have fits : word < 2 ^ 64 := Nat.lt_of_lt_of_le held (Nat.pow_le_pow_right (by decide) free.le)
        have same : word.toUInt64.toNat = word := UInt64.toNat_ofNat_of_lt fits
        simp [packIndices, bitString, indexString, empty, same]
  | cons index rest ih =>
      rw [List.forall_mem_cons] at small
      have grown := add_shiftLeft_lt held small.1
      have whole : word + indexString bits (index :: rest) <<< filled =
          word + index <<< filled + indexString bits rest <<< (filled + bits) := by
        change word + (index + indexString bits rest <<< bits) <<< filled = _
        simp only [Nat.shiftLeft_eq, Nat.pow_add]
        ring
      rw [whole, packIndices]
      by_cases full : 64 ≤ filled + bits
      · have above : (word + index <<< filled) >>> 64 < 2 ^ (filled + bits - 64) := by
          rw [Nat.shiftRight_eq_div_pow]
          refine Nat.div_lt_of_lt_mul ?_
          rw [← Nat.pow_add, Nat.add_sub_cancel' full]
          exact grown
        have later := ih (by omega) above small.2
        rw [if_pos full, bitString, List.foldr_cons, ← bitString, later, word_add_shiftRight,
          Nat.add_sub_cancel' full]
      · rw [if_neg full]
        exact ih (by omega) grown small.2

theorem length_packIndices (narrow : bits ≤ 64) (free : filled < 64) :
    (packIndices bits word filled indices).length = (filled + indices.length * bits + 63) / 64 := by
  induction indices generalizing word filled with
  | nil =>
      rw [packIndices, List.length_nil, Nat.zero_mul, Nat.add_zero]
      split
      · subst filled
        rfl
      · rw [List.length_singleton]
        omega
  | cons index rest ih =>
      rw [packIndices, List.length_cons, Nat.succ_mul]
      by_cases full : 64 ≤ filled + bits
      · rw [if_pos full, List.length_cons, ih (by omega)]
        omega
      · rw [if_neg full, ih (by omega)]
        omega

/-- Each number is in its place. -/
theorem indexString_shiftRight (small : ∀ index ∈ indices, index < 2 ^ bits) {position index : Nat}
    (found : indices[position]? = some index) :
    indexString bits indices >>> (position * bits) % 2 ^ bits = index := by
  induction indices generalizing position with
  | nil => cases found
  | cons first rest ih =>
      rw [List.forall_mem_cons] at small
      change (first + indexString bits rest <<< bits) >>> (position * bits) % 2 ^ bits = index
      rw [Nat.shiftLeft_eq]
      cases position with
      | zero =>
          cases found
          rw [Nat.zero_mul, Nat.shiftRight_zero, Nat.add_mul_mod_self_right, Nat.mod_eq_of_lt small.1]
      | succ position =>
          have above : (first + indexString bits rest * 2 ^ bits) / 2 ^ bits =
              indexString bits rest := by
            rw [Nat.add_mul_div_right _ _ (Nat.two_pow_pos bits), Nat.div_eq_of_lt small.1,
              Nat.zero_add]
          rw [Nat.succ_mul, Nat.add_comm (position * bits), Nat.shiftRight_add,
            Nat.shiftRight_eq_div_pow _ bits, above]
          exact ih small.2 found

end

theorem testBit_bitString (words : List UInt64) (place : Nat) :
    (bitString words).testBit place =
      (words[place / 64]?).any fun word => word.toNat.testBit (place % 64) := by
  induction words generalizing place with
  | nil => simp [bitString]
  | cons word rest ih =>
      have split : bitString (word :: rest) = 2 ^ 64 * bitString rest + word.toNat := by
        change word.toNat + bitString rest <<< 64 = _
        rw [Nat.shiftLeft_eq, Nat.mul_comm, Nat.add_comm]
      rw [split, Nat.testBit_two_pow_mul_add _ word.toNat_lt]
      by_cases low : place < 64
      · rw [if_pos low, Nat.div_eq_of_lt low, Nat.mod_eq_of_lt low]
        rfl
      · obtain ⟨above, rfl⟩ := Nat.exists_eq_add_of_le' (Nat.le_of_not_lt low)
        rw [if_neg low, Nat.add_sub_cancel, ih, Nat.add_div_right _ (by decide), Nat.add_mod_right]
        rfl

/-- A bit of a word, or of the next one, by its place behind the first bit of the word. -/
theorem testBit_bitString_add (words : List UInt64) (place bit : Nat) (near : bit < 64) :
    (bitString words).testBit (place + bit) =
      if place % 64 + bit < 64 then
        (words[place / 64]?).any fun word => word.toNat.testBit (place % 64 + bit)
      else (words[place / 64 + 1]?).any fun word => word.toNat.testBit (place % 64 + bit - 64) := by
  rw [testBit_bitString]
  split
  · have word : (place + bit) / 64 = place / 64 := by omega
    have offset : (place + bit) % 64 = place % 64 + bit := by omega
    rw [word, offset]
  · have word : (place + bit) / 64 = place / 64 + 1 := by omega
    have offset : (place + bit) % 64 = place % 64 + bit - 64 := by omega
    rw [word, offset]

theorem testBit_shiftRight_word (word : UInt64) {offset : Nat} (inside : offset < 64) (bit : Nat) :
    (word >>> offset.toUInt64).toNat.testBit bit = word.toNat.testBit (offset + bit) := by
  have same : offset.toUInt64.toNat = offset :=
    UInt64.toNat_ofNat_of_lt (Nat.lt_trans inside (by decide))
  rw [UInt64.toNat_shiftRight, same, Nat.mod_eq_of_lt inside, Nat.testBit_shiftRight]

theorem testBit_shiftLeft_word (word : UInt64) {offset bit : Nat} (inside : offset < 64)
    (near : bit < 64) :
    (word <<< offset.toUInt64).toNat.testBit bit =
      (decide (offset ≤ bit) && word.toNat.testBit (bit - offset)) := by
  have same : offset.toUInt64.toNat = offset :=
    UInt64.toNat_ofNat_of_lt (Nat.lt_trans inside (by decide))
  rw [UInt64.toNat_shiftLeft, same, Nat.mod_eq_of_lt inside, Nat.testBit_mod_two_pow,
    Nat.testBit_shiftLeft, decide_eq_true near, Bool.true_and]

/-- A mask of the low bits cuts a word to a number of that width. -/
theorem toNat_and_mask (word : UInt64) {bits : UInt8} (narrow : bits.toNat ≤ 16) :
    (word &&& (1 <<< bits.toUInt64 - 1)).toNat = word.toNat % 2 ^ bits.toNat := by
  have power : (1 <<< bits.toUInt64 : UInt64).toNat = 2 ^ bits.toNat := by
    have small : 2 ^ bits.toNat < 2 ^ 64 := Nat.pow_lt_pow_right (by decide) (by omega)
    rw [UInt64.toNat_shiftLeft, UInt8.toNat_toUInt64, Nat.mod_eq_of_lt (by omega : bits.toNat < 64),
      UInt64.toNat_one, Nat.one_shiftLeft, Nat.mod_eq_of_lt small]
  have positive : (1 : UInt64) ≤ 1 <<< bits.toUInt64 := by
    rw [UInt64.le_iff_toNat_le, power]
    exact Nat.two_pow_pos _
  rw [UInt64.toNat_and, UInt64.toNat_sub_of_le _ _ positive, power, UInt64.toNat_one,
    Nat.and_two_pow_sub_one_eq_mod]

namespace PaletteLayer

variable {layer : PaletteLayer} {position : Nat}

/-- The number at a place that the words reach is read, across two words where it lies in two. -/
theorem index?_eq_some (narrow : layer.bits.toNat ≤ 16)
    (enough : (position + 1) * layer.bits.toNat ≤ 64 * layer.packed.size) :
    ∃ index, layer.index? position = some index ∧
      index.toNat = bitString layer.packed.toList >>> (position * layer.bits.toNat) %
        2 ^ layer.bits.toNat := by
  unfold index?
  dsimp only
  by_cases empty : layer.bits.toNat = 0
  · rw [if_pos empty, empty]
    exact ⟨0, rfl, (Nat.mod_one _).symm⟩
  rw [if_neg empty]
  generalize isPlace : position * layer.bits.toNat = place
  have reach : place + layer.bits.toNat ≤ 64 * layer.packed.size := by
    rw [← isPlace, ← Nat.succ_mul]
    exact enough
  have inside : place % 64 < 64 := Nat.mod_lt _ (by decide)
  have here : place / 64 < layer.packed.size := by omega
  -- Both forms of the number agree in every bit.
  suffices read : ∀ {value : UInt64}, (∀ bit < layer.bits.toNat, value.toNat.testBit bit =
      (bitString layer.packed.toList).testBit (place + bit)) →
      (value &&& (1 <<< layer.bits.toUInt64 - 1)).toNat =
        bitString layer.packed.toList >>> place % 2 ^ layer.bits.toNat by
    rw [Array.getElem?_eq_getElem here]
    dsimp only
    by_cases across : 64 < place % 64 + layer.bits.toNat
    · have next : place / 64 + 1 < layer.packed.size := by omega
      rw [if_pos across, Array.getElem?_eq_getElem next]
      refine ⟨_, rfl, read fun bit near => ?_⟩
      rw [testBit_bitString_add _ _ _ (by omega), UInt64.toNat_or, Nat.testBit_or,
        testBit_shiftRight_word _ inside, testBit_shiftLeft_word _ (by omega) (by omega)]
      by_cases low : place % 64 + bit < 64
      · rw [if_pos low, decide_eq_false (by omega), Bool.false_and, Bool.or_false,
          Array.getElem?_toList, Array.getElem?_eq_getElem here]
        rfl
      · have beyond : layer.packed[place / 64].toNat < 2 ^ (place % 64 + bit) :=
          Nat.lt_of_lt_of_le (UInt64.toNat_lt _) (Nat.pow_le_pow_right (by decide) (by omega))
        have offset : bit - (64 - place % 64) = place % 64 + bit - 64 := by omega
        rw [if_neg low, Nat.testBit_lt_two_pow beyond, decide_eq_true (by omega), Bool.true_and,
          Bool.false_or, offset, Array.getElem?_toList, Array.getElem?_eq_getElem next]
        rfl
    · rw [if_neg across]
      refine ⟨_, rfl, read fun bit near => ?_⟩
      rw [testBit_bitString_add _ _ _ (by omega), if_pos (by omega), testBit_shiftRight_word _ inside,
        Array.getElem?_toList, Array.getElem?_eq_getElem here]
      rfl
  intro value same
  rw [toNat_and_mask value narrow]
  refine Nat.eq_of_testBit_eq fun bit => ?_
  rw [Nat.testBit_mod_two_pow, Nat.testBit_mod_two_pow, Nat.testBit_shiftRight]
  by_cases near : bit < layer.bits.toNat
  · rw [same bit near]
  · rw [decide_eq_false near, Bool.false_and, Bool.false_and]

end PaletteLayer

end Overworld
