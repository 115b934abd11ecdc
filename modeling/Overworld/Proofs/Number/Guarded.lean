set_option autoImplicit false

/-!
Words that stand for a number, where there is one. Arithmetic that goes through them is exact wherever
it has a result, and has none where a machine word would wrap.
-/

namespace Overworld

/-- The signed word of 32 bits that is this number. -/
def int32? (value : Int) : Option Int32 :=
  if -2147483648 ≤ value ∧ value ≤ 2147483647 then some (.ofInt value) else none

/-- The signed word of 64 bits that is this number. -/
def int64? (value : Int) : Option Int64 :=
  if -9223372036854775808 ≤ value ∧ value ≤ 9223372036854775807 then some (.ofInt value) else none

/-- The word of 32 bits without a sign that is this number. -/
def uint32? (value : Nat) : Option UInt32 :=
  if value ≤ 4294967295 then some value.toUInt32 else none

theorem int32?_eq_some_iff {value : Int} {word : Int32} :
    int32? value = some word ↔ word.toInt = value := by
  unfold int32?
  constructor
  · intro fits
    split at fits
    · rename_i bounds
      cases fits
      exact Int32.toInt_ofInt_of_le bounds.1 (by omega)
    · cases fits
  · rintro rfl
    have least := word.le_toInt
    have most := word.toInt_lt
    rw [if_pos ⟨by omega, by omega⟩, Int32.ofInt_toInt]

theorem int64?_eq_some_iff {value : Int} {word : Int64} :
    int64? value = some word ↔ word.toInt = value := by
  unfold int64?
  constructor
  · intro fits
    split at fits
    · rename_i bounds
      cases fits
      exact Int64.toInt_ofInt_of_le bounds.1 (by omega)
    · cases fits
  · rintro rfl
    have least := word.le_toInt
    have most := word.toInt_lt
    rw [if_pos ⟨by omega, by omega⟩, Int64.ofInt_toInt]

theorem uint32?_eq_some_iff {value : Nat} {word : UInt32} :
    uint32? value = some word ↔ word.toNat = value := by
  unfold uint32?
  constructor
  · intro fits
    split at fits
    · rename_i small
      cases fits
      exact UInt32.toNat_ofNat_of_lt (Nat.lt_of_le_of_lt small (by decide))
    · cases fits
  · rintro rfl
    have most := word.toNat_lt
    rw [if_pos (by omega)]
    exact congrArg some UInt32.ofNat_toNat

theorem int32?_eq_none {value : Int} (outside : value < -2147483648 ∨ 2147483647 < value) :
    int32? value = none :=
  if_neg (by omega)

theorem int64?_eq_none {value : Int}
    (outside : value < -9223372036854775808 ∨ 9223372036854775807 < value) : int64? value = none :=
  if_neg (by omega)

theorem uint32?_eq_none {value : Nat} (outside : 4294967295 < value) : uint32? value = none :=
  if_neg (by omega)

/-- A count that is at least one. -/
theorem toNat_ite_eq_zero (word : UInt32) :
    (if word = 0 then 1 else word).toNat = max word.toNat 1 := by
  by_cases none : word = 0
  · rw [if_pos none, none]
    rfl
  · have some : word.toNat ≠ 0 := fun zero => none (UInt32.toNat_inj.mp zero)
    rw [if_neg none]
    omega

end Overworld
