import Mathlib.Algebra.Order.Ring.Nat
import Overworld.Wire.Codec

set_option autoImplicit false

/-!
Readers that take exactly what a writer puts. Where the parts of a format are taken exactly, so is
the whole, and no value has a second written form.
-/

namespace Overworld

namespace Wire

/-- A reader yields a value and a rest where, and only where, the input is that value as written and
then that rest. Values without a written form, such as sequences too long to count, are never
read. -/
def Takes {α : Type} (read : Reader α) (put : α → Bytes) (writable : α → Prop) : Prop :=
  ∀ input value rest, read input = .ok (value, rest) ↔ writable value ∧ input = put value ++ rest

section

variable {ε α β : Type}

theorem bind_eq_ok {first : Except ε α} {next : α → Except ε β} {result : β} :
    (first >>= next) = .ok result ↔ ∃ value, first = .ok value ∧ next value = .ok result := by
  cases first with
  | error _ => simp [bind, Except.bind]
  | ok value => simp [bind, Except.bind]

theorem pure_eq_ok {value result : α} : (pure value : Except ε α) = .ok result ↔ value = result := by
  simp [pure, Except.pure]

variable {read : Reader α} {put : α → Bytes} {writable : α → Prop}

/-- What is read back is what was written, whatever follows. -/
theorem Takes.read_put (takes : Takes read put writable) {value : α} (isWritable : writable value)
    (rest : Bytes) : read (put value ++ rest) = .ok (value, rest) :=
  (takes _ value rest).mpr ⟨isWritable, rfl⟩

theorem Takes.bind_put (takes : Takes read put writable) {value : α} (isWritable : writable value)
    (rest : Bytes) (next : α × Bytes → Except DecodeError β) :
    (read (put value ++ rest) >>= next) = next (value, rest) := by
  rw [takes.read_put isWritable]
  rfl

/-- What an input begins with is what is read from it, the rest being left alone. -/
theorem Takes.map_fst_eq_ok (takes : Takes read put writable) {input : Bytes} {value : α} :
    (read input).map (·.1) = .ok value ↔ writable value ∧ put value <+: input := by
  constructor
  · intro isRead
    cases outcome : read input with
    | error _ =>
        rw [outcome] at isRead
        cases isRead
    | ok taken =>
        obtain ⟨other, rest⟩ := taken
        rw [outcome] at isRead
        cases isRead
        obtain ⟨isWritable, same⟩ := (takes input other rest).mp outcome
        exact ⟨isWritable, rest, same.symm⟩
  · rintro ⟨isWritable, rest, rfl⟩
    rw [takes.read_put isWritable]
    rfl

/-- No written value is cut short: what a proper part of it held would be read from the whole too,
and leave something over. -/
theorem Takes.map_fst_of_part (takes : Takes read put writable) {value : α}
    (isWritable : writable value) {part : Bytes} (isPart : part <+: put value)
    (cut : part ≠ put value) : ∃ error, (read part).map (·.1) = .error error := by
  obtain ⟨more, whole⟩ := isPart
  cases outcome : read part with
  | error error => exact ⟨error, rfl⟩
  | ok taken =>
      obtain ⟨other, rest⟩ := taken
      obtain ⟨isAlso, same⟩ := (takes part other rest).mp outcome
      have fromWhole := takes.read_put isWritable []
      have fromPart := takes.read_put isAlso (rest ++ more)
      rw [List.append_nil, ← whole, same, List.append_assoc] at fromWhole
      have both := fromWhole.symm.trans fromPart
      simp only [Except.ok.injEq, Prod.mk.injEq, List.nil_eq, List.append_eq_nil_iff] at both
      rw [both.2.2, List.append_nil] at whole
      exact absurd whole cut

end

theorem take_eq_ok {count : Nat} {input bytes rest : Bytes} :
    take count input = .ok (bytes, rest) ↔ bytes.length = count ∧ input = bytes ++ rest := by
  induction count generalizing input bytes with
  | zero =>
      rw [take, List.length_eq_zero_iff, Except.ok.injEq, Prod.mk.injEq]
      constructor
      · rintro ⟨rfl, rfl⟩
        exact ⟨rfl, rfl⟩
      · rintro ⟨rfl, rfl⟩
        exact ⟨rfl, rfl⟩
  | succ count ih =>
      cases input with
      | nil =>
          rw [take]
          constructor
          · intro taken
            cases taken
          · rintro ⟨long, empty⟩
            simp [List.append_eq_nil_iff.mp empty.symm] at long
      | cons byte input =>
          rw [take]
          constructor
          · intro taken
            cases outcome : take count input with
            | error _ =>
                rw [outcome] at taken
                cases taken
            | ok result =>
                obtain ⟨later, left⟩ := result
                rw [outcome] at taken
                cases taken
                obtain ⟨rfl, rfl⟩ := ih.mp outcome
                exact ⟨rfl, rfl⟩
          · rintro ⟨long, same⟩
            cases bytes with
            | nil => cases long
            | cons first later =>
                obtain ⟨rfl, isRest⟩ := List.cons.inj same
                rw [ih.mpr ⟨Nat.succ.inj long, isRest⟩]

theorem length_littleEndian (width value : Nat) : (littleEndian width value).length = width := by
  induction width generalizing value with
  | zero => rfl
  | succ width ih => simp [littleEndian, ih]

theorem ofLittleEndian_littleEndian (width : Nat) {value : Nat} (fits : value < 256 ^ width) :
    ofLittleEndian (littleEndian width value) = value := by
  induction width generalizing value with
  | zero =>
      have zero : value = 0 := by simpa using fits
      rw [zero]
      rfl
  | succ width ih =>
      have small : value / 256 < 256 ^ width := by
        apply Nat.div_lt_of_lt_mul
        rw [Nat.mul_comm, ← Nat.pow_succ]
        exact fits
      show value.toUInt8.toNat + 256 * ofLittleEndian (littleEndian width (value / 256)) = value
      rw [ih small]
      exact Nat.mod_add_div value 256

theorem ofLittleEndian_lt (bytes : Bytes) : ofLittleEndian bytes < 256 ^ bytes.length := by
  induction bytes with
  | nil => decide
  | cons byte bytes ih =>
      have bounded := byte.toNat_lt
      show byte.toNat + 256 * ofLittleEndian bytes < 256 ^ (bytes.length + 1)
      rw [Nat.pow_succ]
      omega

theorem littleEndian_ofLittleEndian (bytes : Bytes) :
    littleEndian bytes.length (ofLittleEndian bytes) = bytes := by
  induction bytes with
  | nil => rfl
  | cons byte bytes ih =>
      have bounded := byte.toNat_lt
      have low : (byte.toNat + 256 * ofLittleEndian bytes).toUInt8 = byte := by
        apply UInt8.toNat_inj.mp
        show (byte.toNat + 256 * ofLittleEndian bytes) % 256 = byte.toNat
        omega
      have high : (byte.toNat + 256 * ofLittleEndian bytes) / 256 = ofLittleEndian bytes := by
        omega
      show (byte.toNat + 256 * ofLittleEndian bytes).toUInt8 ::
        littleEndian bytes.length ((byte.toNat + 256 * ofLittleEndian bytes) / 256) = byte :: bytes
      rw [low, high, ih]

theorem takes_natural (width : Nat) :
    Takes (natural width) (littleEndian width) (fun value => value < 256 ^ width) := by
  intro input value rest
  unfold natural
  constructor
  · intro isRead
    cases outcome : take width input with
    | error _ =>
        rw [outcome] at isRead
        cases isRead
    | ok taken =>
        obtain ⟨bytes, left⟩ := taken
        rw [outcome] at isRead
        cases isRead
        obtain ⟨rfl, rfl⟩ := take_eq_ok.mp outcome
        exact ⟨ofLittleEndian_lt bytes, by rw [littleEndian_ofLittleEndian]⟩
  · rintro ⟨fits, rfl⟩
    rw [take_eq_ok.mpr ⟨length_littleEndian width value, rfl⟩]
    simp only [ofLittleEndian_littleEndian width fits]

/-- A reader of a word is one of its value. -/
theorem takes_word {α : Type} (width : Nat) {toNat : α → Nat} {ofNat : Nat → α}
    (bounded : ∀ word, toNat word < 256 ^ width) (back : ∀ word, ofNat (toNat word) = word)
    (forth : ∀ value, value < 256 ^ width → toNat (ofNat value) = value) :
    Takes (fun input => do
        let (value, rest) ← natural width input
        return (ofNat value, rest))
      (fun word => littleEndian width (toNat word)) (fun _ => True) := by
  intro input word rest
  simp only [bind_eq_ok, pure_eq_ok, Prod.exists, takes_natural width _ _ _, Prod.mk.injEq,
    true_and]
  constructor
  · rintro ⟨value, left, ⟨fits, rfl⟩, rfl, rfl⟩
    rw [forth value fits]
  · rintro rfl
    exact ⟨toNat word, rest, ⟨bounded word, rfl⟩, back word, rfl⟩

theorem takes_byte : Takes byte putByte (fun _ => True) := by
  have takes := takes_word 1 UInt8.toNat_lt (fun _ => UInt8.ofNat_toNat)
    fun _ fits => UInt8.toNat_ofNat_of_lt fits
  intro input value rest
  have one : littleEndian 1 value.toNat = putByte value :=
    congrArg (fun byte => [byte]) UInt8.ofNat_toNat
  rw [← one]
  exact takes input value rest

theorem takes_word16 : Takes word16 putWord16 (fun _ => True) :=
  takes_word 2 UInt16.toNat_lt (fun _ => UInt16.ofNat_toNat) fun _ => UInt16.toNat_ofNat_of_lt

theorem takes_word32 : Takes word32 putWord32 (fun _ => True) :=
  takes_word 4 UInt32.toNat_lt (fun _ => UInt32.ofNat_toNat) fun _ => UInt32.toNat_ofNat_of_lt

theorem takes_word64 : Takes word64 putWord64 (fun _ => True) :=
  takes_word 8 UInt64.toNat_lt (fun _ => UInt64.ofNat_toNat) fun _ => UInt64.toNat_ofNat_of_lt

/-- Lengths are written as 64-bit words. -/
def IsCountable (length : Nat) : Prop := length < 18446744073709551616

theorem takes_length : Takes (natural 8) (littleEndian 8) IsCountable :=
  takes_natural 8

section

variable {α : Type} {read : Reader α} {put : α → Bytes} {writable : α → Prop}

theorem items_eq_ok (takes : Takes read put writable) {count : Nat} {done values : List α}
    {input rest : Bytes} :
    items read count done input = .ok (values, rest) ↔
      ∃ more, values = done.reverse ++ more ∧ more.length = count ∧
        (∀ value ∈ more, writable value) ∧ input = more.flatMap put ++ rest := by
  induction count generalizing done input with
  | zero =>
      rw [items, Except.ok.injEq, Prod.mk.injEq]
      constructor
      · rintro ⟨rfl, rfl⟩
        exact ⟨[], by simp⟩
      · rintro ⟨more, rfl, none, -, rfl⟩
        simp [List.length_eq_zero_iff.mp none]
  | succ count ih =>
      rw [items]
      constructor
      · intro taken
        cases outcome : read input with
        | error _ =>
            rw [outcome] at taken
            cases taken
        | ok result =>
            obtain ⟨value, left⟩ := result
            rw [outcome] at taken
            obtain ⟨isWritable, rfl⟩ := (takes input value left).mp outcome
            obtain ⟨more, rfl, rfl, areWritable, rfl⟩ := ih.mp taken
            exact ⟨value :: more, by simp, rfl, by simpa using ⟨isWritable, areWritable⟩, by simp⟩
      · rintro ⟨more, rfl, long, areWritable, rfl⟩
        cases more with
        | nil => cases long
        | cons value more =>
            rw [List.forall_mem_cons] at areWritable
            rw [List.flatMap_cons, List.append_assoc, takes.read_put areWritable.1]
            exact ih.mpr ⟨more, by simp, Nat.succ.inj long, areWritable.2, rfl⟩

theorem takes_sequence (takes : Takes read put writable) :
    Takes (sequence read) (putSequence put)
      (fun values => IsCountable values.length ∧ ∀ value ∈ values, writable value) := by
  intro input values rest
  unfold sequence putSequence
  rw [bind_eq_ok, Prod.exists]
  constructor
  · rintro ⟨count, left, counted, taken⟩
    obtain ⟨countable, rfl⟩ := (takes_length input count left).mp counted
    obtain ⟨more, rfl, rfl, areWritable, rfl⟩ := (items_eq_ok takes).mp taken
    exact ⟨⟨countable, areWritable⟩, by simp⟩
  · rintro ⟨⟨countable, areWritable⟩, rfl⟩
    rw [List.append_assoc]
    exact ⟨values.length, _, takes_length.read_put countable _,
      (items_eq_ok takes).mpr ⟨values, rfl, rfl, areWritable, rfl⟩⟩

end

theorem fromUTF8?_eq_some {bytes : ByteArray} {text : String} :
    String.fromUTF8? bytes = some text ↔ text.toUTF8 = bytes := by
  unfold String.fromUTF8?
  constructor
  · intro isText
    split at isText
    · rw [← Option.some.inj isText]
      rfl
    · cases isText
  · rintro rfl
    exact dif_pos text.isValidUTF8

theorem takes_text :
    Takes text putText (fun text => IsCountable text.toUTF8.data.toList.length) := by
  intro input value rest
  unfold text putText
  rw [bind_eq_ok, Prod.exists]
  constructor
  · rintro ⟨count, left, counted, taken⟩
    obtain ⟨countable, rfl⟩ := (takes_length input count left).mp counted
    obtain ⟨⟨bytes, after⟩, isBody, isText⟩ := bind_eq_ok.mp taken
    obtain ⟨rfl, rfl⟩ := take_eq_ok.mp isBody
    dsimp only at isText
    split at isText
    · rename_i found valid
      cases isText
      have same : value.toUTF8.data.toList = bytes := by
        rw [fromUTF8?_eq_some.mp valid]
        simp
      refine ⟨?_, ?_⟩
      · show IsCountable value.toUTF8.data.toList.length
        rw [same]
        exact countable
      · rw [same, List.append_assoc]
    · cases isText
  · rintro ⟨countable, rfl⟩
    rw [List.append_assoc]
    refine ⟨_, _, takes_length.read_put countable _, ?_⟩
    dsimp only
    rw [take_eq_ok.mpr ⟨rfl, rfl⟩]
    have valid : String.fromUTF8? value.toUTF8.data.toList.toByteArray = some value := by
      rw [fromUTF8?_eq_some]
      exact ByteArray.ext (by simp)
    dsimp only [bind, Except.bind]
    rw [valid]
    rfl

end Wire

end Overworld
