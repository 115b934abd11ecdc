import Overworld.Motion.History

set_option autoImplicit false

/-!
A history as an interval of ticks: it is determined by its newest tick and its length. The oldest
tick, the entries after a tick and the effect of a push are read off these two numbers.
-/

namespace Overworld

namespace Tick

theorem next?_eq_some_iff {tick next : Tick} :
    tick.next? = some next ↔ tick.toNat + 1 = next.toNat := by
  have bound := next.toNat_lt
  unfold next?
  split
  · rename_i final
    subst final
    simp only [reduceCtorEq, last, false_iff]
    exact fun same => by simp at same; omega
  · rename_i other
    have small : tick.toNat ≠ 18446744073709551615 := fun same =>
      other (UInt64.toNat_inj.mp same)
    have room := tick.toNat_lt
    have sum : (tick + 1).toNat = tick.toNat + 1 := by
      rw [UInt64.toNat_add, UInt64.toNat_one]
      omega
    rw [Option.some.injEq, ← UInt64.toNat_inj, sum]

theorem toNat_addSaturating (tick count : Tick) (fits : tick.toNat + count.toNat < 18446744073709551616) :
    (addSaturating tick count).toNat = tick.toNat + count.toNat := by
  unfold addSaturating
  rw [if_pos fits]
  exact Nat.mod_eq_of_lt fits

theorem toNat_add_of_lt (tick count : Tick) (fits : tick.toNat + count.toNat < 18446744073709551616) :
    (tick + count).toNat = tick.toNat + count.toNat := by
  rw [UInt64.toNat_add]
  exact Nat.mod_eq_of_lt fits

/-- The ticks after one, up to another and with it, in ascending order. -/
def between (past newest : Tick) : List Tick :=
  (List.range' (past.toNat + 1) (newest.toNat - past.toNat)).map UInt64.ofNat

theorem length_between (past newest : Tick) :
    (between past newest).length = newest.toNat - past.toNat := by
  rw [between, List.length_map, List.length_range']

theorem toNat_getElem_between {past newest : Tick} {i : Nat}
    (inside : i < (between past newest).length) :
    ((between past newest)[i]).toNat = past.toNat + 1 + i := by
  have bound := newest.toNat_lt
  rw [length_between] at inside
  simp only [between, List.getElem_map, List.getElem_range', Nat.one_mul]
  apply UInt64.toNat_ofNat_of_lt
  change _ < 18446744073709551616
  omega

theorem add_ofNat_zero (tick : Tick) : tick + .ofNat 0 = tick := UInt64.add_zero tick

theorem add_one_add (tick : Tick) (count : Nat) :
    tick + 1 + .ofNat count = tick + .ofNat (count + 1) := by
  rw [UInt64.ofNat_add, UInt64.ofNat_one, UInt64.add_assoc, UInt64.add_comm 1]

end Tick

/-- Entries before the newest are of ticks so much before its tick. -/
theorem tick_of_areConsecutive {newest : Tick × Keys} {rest : List (Tick × Keys)}
    (consecutive : areConsecutive (newest :: rest) = true) {ago : Nat} {entry : Tick × Keys}
    (found : (newest :: rest)[ago]? = some entry) : entry.1.toNat + ago = newest.1.toNat := by
  induction rest generalizing newest ago with
  | nil =>
      cases ago with
      | zero => cases found; rfl
      | succ ago => cases found
  | cons older rest ih =>
      simp only [areConsecutive, Bool.and_eq_true, beq_iff_eq] at consecutive
      have adjacent := Tick.next?_eq_some_iff.mp consecutive.1
      cases ago with
      | zero => cases found; rfl
      | succ ago =>
          have earlier := ih consecutive.2 found
          omega

/-- Among consecutive entries, those after a tick are the newest ones. -/
theorem filter_after_of_areConsecutive {newest : Tick × Keys} {rest : List (Tick × Keys)}
    (consecutive : areConsecutive (newest :: rest) = true) (tick : Tick) :
    (newest :: rest).filter (fun entry => tick < entry.1) =
      (newest :: rest).take (newest.1.toNat - tick.toNat) := by
  induction rest generalizing newest with
  | nil =>
      by_cases later : tick < newest.1
      · have gap := UInt64.lt_iff_toNat_lt.mp later
        obtain ⟨count, size⟩ : ∃ count, newest.1.toNat - tick.toNat = count + 1 :=
          ⟨newest.1.toNat - tick.toNat - 1, by omega⟩
        simp [later, size]
      · have gap := UInt64.le_iff_toNat_le.mp (UInt64.not_lt.mp later)
        simp [later, show newest.1.toNat - tick.toNat = 0 by omega]
  | cons older rest ih =>
      simp only [areConsecutive, Bool.and_eq_true, beq_iff_eq] at consecutive
      have adjacent := Tick.next?_eq_some_iff.mp consecutive.1
      have shorter := ih consecutive.2
      by_cases later : tick < newest.1
      · have gap := UInt64.lt_iff_toNat_lt.mp later
        rw [show newest.1.toNat - tick.toNat = (older.1.toNat - tick.toNat) + 1 by omega,
          List.take_succ_cons, ← shorter, List.filter_cons_of_pos (by simpa using later)]
      · have gap := UInt64.le_iff_toNat_le.mp (UInt64.not_lt.mp later)
        rw [List.filter_cons_of_neg (by simpa using later), shorter,
          show newest.1.toNat - tick.toNat = 0 by omega,
          show older.1.toNat - tick.toNat = 0 by omega, List.take_zero, List.take_zero]

namespace KeyHistory

theorem newest?_eq_some_iff {history : KeyHistory} {newest : Tick} :
    history.newest? = some newest ↔ ∃ keys rest, history.entries = (newest, keys) :: rest := by
  unfold newest?
  cases history.entries with
  | nil => simp
  | cons first rest =>
      obtain ⟨tick, keys⟩ := first
      simp [eq_comm]

theorem entries_eq_nil {history : KeyHistory} (blank : history.newest? = none) :
    history.entries = [] := by
  simpa [newest?] using blank

theorem length_pos_of_newest? {history : KeyHistory} {newest : Tick}
    (held : history.newest? = some newest) : 0 < history.entries.length := by
  obtain ⟨keys, rest, entries⟩ := newest?_eq_some_iff.mp held
  simp [entries]

theorem tick_of_getElem? {history : KeyHistory} {newest : Tick}
    (held : history.newest? = some newest) {ago : Nat} {entry : Tick × Keys}
    (found : history.entries[ago]? = some entry) : entry.1.toNat + ago = newest.toNat := by
  obtain ⟨keys, rest, entries⟩ := newest?_eq_some_iff.mp held
  have consecutive := history.consecutive
  rw [entries] at found consecutive
  exact tick_of_areConsecutive consecutive found

theorem oldest?_of_newest? {history : KeyHistory} {newest : Tick}
    (held : history.newest? = some newest) :
    ∃ oldest, history.oldest? = some oldest ∧
      oldest.toNat + history.entries.length = newest.toNat + 1 := by
  have positive := length_pos_of_newest? held
  have found := List.getElem?_eq_getElem (l := history.entries)
    (show history.entries.length - 1 < history.entries.length by omega)
  have place := tick_of_getElem? held found
  refine ⟨history.entries[history.entries.length - 1].1, ?_, by omega⟩
  rw [oldest?, List.getLast?_eq_getElem?, found, Option.map_some]

/-- The entries newer than a tick are the newest ones, as many as there are ticks between. -/
theorem after_eq {history : KeyHistory} {newest : Tick} (held : history.newest? = some newest)
    (tick : Tick) :
    history.after tick = (history.entries.take (newest.toNat - tick.toNat)).reverse := by
  obtain ⟨keys, rest, entries⟩ := newest?_eq_some_iff.mp held
  have consecutive := history.consecutive
  unfold after
  rw [entries] at consecutive ⊢
  rw [List.filter_reverse, filter_after_of_areConsecutive consecutive]

theorem length_after {history : KeyHistory} {newest : Tick} (held : history.newest? = some newest)
    (tick : Tick) :
    (history.after tick).length = min (newest.toNat - tick.toNat) history.entries.length := by
  rw [after_eq held, List.length_reverse, List.length_take]

/-- Where the history reaches back far enough, it has an entry for each tick after another one. -/
theorem ticks_after {history : KeyHistory} {newest : Tick} (held : history.newest? = some newest)
    {tick : Tick} (reaches : newest.toNat ≤ tick.toNat + history.entries.length) :
    (history.after tick).map (·.1) = Tick.between tick newest := by
  have size := length_after held tick
  apply List.ext_getElem
  · rw [List.length_map, size, Tick.length_between]
    omega
  · intro i inAfter inTicks
    have order := Tick.length_between tick newest ▸ inTicks
    have count : min (newest.toNat - tick.toNat) history.entries.length =
        newest.toNat - tick.toNat := by
      omega
    have found := List.getElem?_eq_getElem (l := history.entries)
      (show newest.toNat - tick.toNat - 1 - i < history.entries.length by omega)
    have place := tick_of_getElem? held found
    apply UInt64.toNat_inj.mp
    rw [Tick.toNat_getElem_between, List.getElem_map]
    simp only [after_eq held, List.getElem_reverse, List.getElem_take, List.length_take, count]
    omega

/-- The keys of a tick are found by its distance from the newest one. -/
theorem keysAt?_eq_some_iff {history : KeyHistory} {tick : Tick} {keys : Keys} :
    history.keysAt? tick = some keys ↔ (tick, keys) ∈ history.entries := by
  unfold keysAt?
  cases held : history.newest? with
  | none => simp [entries_eq_nil held]
  | some newest =>
      dsimp only
      constructor
      · intro isKeys
        split at isKeys
        · rename_i order
          obtain ⟨⟨found, _⟩, entry, rfl⟩ := Option.map_eq_some_iff.mp isKeys
          have place := tick_of_getElem? held entry
          have gap := UInt64.le_iff_toNat_le.mp order
          have same : found = tick := by
            apply UInt64.toNat_inj.mp
            dsimp only at place
            omega
          exact same ▸ List.mem_of_getElem? entry
        · cases isKeys
      · intro member
        obtain ⟨ago, found⟩ := List.getElem?_of_mem member
        have place := tick_of_getElem? held found
        dsimp only at place
        have order : tick ≤ newest := UInt64.le_iff_toNat_le.mpr (by omega)
        rw [if_pos order, show newest.toNat - tick.toNat = ago by omega, get?, found]
        rfl

/-- An entry is found by its distance from the newest tick. -/
theorem get?_eq_some_iff {history : KeyHistory} {ago : Nat} {entry : Tick × Keys} :
    history.get? ago = some entry ↔
      entry ∈ history.entries ∧
        ∃ newest, history.newest? = some newest ∧ entry.1.toNat + ago = newest.toNat := by
  cases held : history.newest? with
  | none => simp [get?, entries_eq_nil held]
  | some newest =>
      constructor
      · intro found
        exact ⟨List.mem_of_getElem? found, newest, rfl, tick_of_getElem? held found⟩
      · rintro ⟨member, last, isLast, distance⟩
        cases isLast
        obtain ⟨place, found⟩ := List.getElem?_of_mem member
        have isPlace := tick_of_getElem? held found
        have same : ago = place := by omega
        rw [get?, same, found]

theorem mem_after {history : KeyHistory} {tick : Tick} {entry : Tick × Keys} :
    entry ∈ history.after tick ↔ entry ∈ history.entries ∧ tick < entry.1 := by
  rw [after, List.mem_filter, List.mem_reverse, decide_eq_true_iff]

theorem descending (history : KeyHistory) :
    history.entries.Pairwise fun newer older => older.1 < newer.1 := by
  cases held : history.newest? with
  | none => simp [entries_eq_nil held]
  | some newest =>
      apply List.pairwise_iff_getElem.mpr
      intro i j inside later order
      have newer := tick_of_getElem? held (List.getElem?_eq_getElem inside)
      have older := tick_of_getElem? held (List.getElem?_eq_getElem later)
      apply UInt64.lt_iff_toNat_lt.mpr
      omega

theorem ascending_after (history : KeyHistory) (tick : Tick) :
    (history.after tick).Pairwise fun earlier later => earlier.1 < later.1 :=
  (List.pairwise_reverse.mpr history.descending).filter _

/-- In a log that begins with the entries, newest first, they are what was logged last for their
ticks. -/
theorem lookup_of_mem {history : KeyHistory} {log : List (Tick × Keys)}
    (begins : history.entries <+: log) {tick : Tick} {keys : Keys}
    (member : (tick, keys) ∈ history.entries) : log.lookup tick = some keys := by
  obtain ⟨older, rfl⟩ := begins
  have order := history.descending
  obtain ⟨before, after, split⟩ := List.append_of_mem member
  rw [split] at order ⊢
  refine List.lookup_eq_some_iff.mpr ⟨before, after ++ older, List.append_assoc .., ?_⟩
  intro newer earlier
  have later := (List.pairwise_append.mp order).2.2 newer earlier (tick, keys) List.mem_cons_self
  exact bne_iff_ne.mpr (UInt64.ne_of_lt later)

theorem entries_push_isPrefix (history : KeyHistory) (tick : Tick) (keys : Keys) :
    (history.push tick keys).entries <+: (tick, keys) :: history.entries := by
  have kept : history.kept tick <+: history.entries := by
    unfold kept
    split
    · exact List.prefix_refl _
    · exact List.nil_prefix
  exact (List.take_prefix _ _).trans ((List.prefix_cons_inj _).mpr kept)

@[simp] theorem capacity_clear (history : KeyHistory) : history.clear.capacity = history.capacity :=
  rfl

theorem continues_iff {history : KeyHistory} {newest : Tick} (held : history.newest? = some newest)
    (tick : Tick) : history.continues tick = true ↔ newest.toNat + 1 = tick.toNat := by
  unfold continues
  rw [held, ← Tick.next?_eq_some_iff]
  exact beq_iff_eq

theorem length_push (history : KeyHistory) (tick : Tick) (keys : Keys) :
    (history.push tick keys).entries.length =
      min history.capacity.count ((history.kept tick).length + 1) := by
  simp only [push, List.length_take, List.length_cons]

theorem length_push_of_continues {history : KeyHistory} {tick : Tick} (keys : Keys)
    (continued : history.continues tick = true) :
    (history.push tick keys).entries.length =
      min history.capacity.count (history.entries.length + 1) := by
  rw [length_push, kept, if_pos continued]

/-- A push that nothing is kept for starts over with one entry. -/
theorem length_push_of_not_continues {history : KeyHistory} {tick : Tick} (keys : Keys)
    (broken : history.continues tick = false) :
    (history.push tick keys).entries.length = 1 := by
  have room := history.capacity.pos
  rw [length_push, kept, broken]
  simp only [Bool.false_eq_true, ↓reduceIte, List.length_nil]
  omega

theorem length_push_clear (history : KeyHistory) (tick : Tick) (keys : Keys) :
    (history.clear.push tick keys).entries.length = 1 := by
  have room := history.capacity.pos
  have nothing : history.clear.kept tick = [] := by
    unfold kept
    exact ite_self _
  rw [length_push, nothing, capacity_clear, List.length_nil]
  omega

end KeyHistory

end Overworld
