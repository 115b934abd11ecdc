import Overworld.Server.Router

set_option autoImplicit false

/-!
What routing a batch does to the line of one client, whatever is in the batch for others: the line
takes all that the batch has for it, or it overflows and is let go of.
-/

namespace Overworld

/-- A line that takes dispatches in order. One that nobody reads loses them. -/
def Line.takeAll (line : Line) (dispatches : List Dispatch) : Line :=
  if line.isRead then { line with queue := line.queue ++ dispatches } else line

theorem Line.takeAll_nil (line : Line) : line.takeAll [] = line := by
  unfold takeAll
  split
  · rw [List.append_nil]
  · rfl

theorem Line.isFed_takeAll (line : Line) (dispatches : List Dispatch) :
    (line.takeAll dispatches).isFed = line.isFed := by
  unfold takeAll
  split <;> rfl

theorem Line.takeAll_takeAll (line : Line) (first second : List Dispatch) :
    (line.takeAll first).takeAll second = line.takeAll (first ++ second) := by
  unfold takeAll
  cases isRead : line.isRead with
  | false => simp [isRead]
  | true => simp

/-- The line has no room for all of the dispatches, and somebody waits for them. -/
def Line.Overflows (line : Line) (capacity : Nat) (dispatches : List Dispatch) : Prop :=
  line.isRead = true ∧ capacity < line.queue.length + dispatches.length

theorem Line.Overflows.append {line : Line} {capacity : Nat} {first : List Dispatch}
    (full : line.Overflows capacity first) (second : List Dispatch) :
    line.Overflows capacity (first ++ second) := by
  refine ⟨full.1, Nat.lt_of_lt_of_le full.2 ?_⟩
  rw [List.length_append]
  omega

theorem Line.Overflows.of_takeAll {line : Line} {capacity : Nat} {first second : List Dispatch}
    (full : (line.takeAll first).Overflows capacity second) :
    line.Overflows capacity (first ++ second) := by
  obtain ⟨isRead, many⟩ := full
  unfold takeAll at isRead many
  by_cases wasRead : line.isRead = true
  · refine ⟨wasRead, ?_⟩
    rw [if_pos wasRead, List.length_append] at many
    rw [List.length_append]
    omega
  · rw [if_neg wasRead] at isRead
    exact absurd isRead wasRead

theorem Line.put?_cases (line : Line) (capacity : Nat) (dispatch : Dispatch) :
    line.put? capacity dispatch = none ∧ line.Overflows capacity [dispatch] ∨
      line.put? capacity dispatch = some (line.takeAll [dispatch]) := by
  unfold put? takeAll Overflows
  cases line.isRead with
  | false => exact Or.inr rfl
  | true =>
      by_cases full : capacity ≤ line.queue.length
      · simp [full, Nat.lt_succ_of_le full]
      · simp [full]

/-- The line of a client after a batch that it did not overflow in. -/
def Line.afterBatch (line : Line) (dispatches : List Dispatch) : Line :=
  if line.isFed then
    { line.takeAll dispatches with isFed := !dispatches.contains .close }
  else line

namespace Router

variable {router after : Router} {client : ClientId} {overflowed : List ClientId}

theorem fedLine?_eq_some_iff {line : Line} :
    router.fedLine? client = some line ↔
      router.lines[client]? = some line ∧ line.isFed = true := by
  simp [fedLine?, Option.filter_eq_some_iff]

/-- An item is for a line that overflowed before or that the server does not feed, or its line
overflows, or its line takes it. -/
theorem putItem_cases (router : Router) (overflowed : List ClientId) (item : Outbound) :
    (item.client ∈ overflowed ∨ router.fedLine? item.client = none) ∧
      putItem (router, overflowed) item = (router, overflowed) ∨
    ∃ line, item.client ∉ overflowed ∧ router.fedLine? item.client = some line ∧
      (line.Overflows router.capacity.count [item.dispatch] ∧
          putItem (router, overflowed) item = (router, overflowed ++ [item.client]) ∨
        putItem (router, overflowed) item =
          ({ router with lines := router.lines.insert item.client (line.takeAll [item.dispatch]) },
            overflowed)) := by
  unfold putItem
  dsimp only
  by_cases noted : item.client ∈ overflowed
  · exact Or.inl ⟨Or.inl noted, if_pos (List.contains_iff_mem.mpr noted)⟩
  · rw [if_neg fun marked => noted (List.contains_iff_mem.mp marked)]
    cases fed : router.fedLine? item.client with
    | none => exact Or.inl ⟨Or.inr rfl, rfl⟩
    | some line =>
        refine Or.inr ⟨line, noted, rfl, ?_⟩
        dsimp only
        obtain ⟨none, full⟩ | taken := line.put?_cases router.capacity.count item.dispatch
        · rw [none]
          exact Or.inl ⟨full, rfl⟩
        · rw [taken]
          exact Or.inr rfl

/-- What became of a batch: who is noted as overflowed had no room for what the batch had for it, and
every other line that was fed took that. -/
structure Puts (before : Router × List ClientId) (batch : List Outbound)
    (after : Router × List ClientId) : Prop where
  noted : ∀ client ∈ before.2, client ∈ after.2
  capacity : after.1.capacity = before.1.capacity
  full : ∀ client ∈ after.2, client ∈ before.2 ∨
    ∃ line, before.1.fedLine? client = some line ∧
      line.Overflows before.1.capacity.count (dispatchesTo client batch)
  once : before.2.Nodup → after.2.Nodup
  taken : ∀ client, client ∉ after.2 → after.1.lines[client]? =
    (before.1.lines[client]?).map fun line =>
      if line.isFed then line.takeAll (dispatchesTo client batch) else line

theorem puts_nil (state : Router × List ClientId) : Puts state [] state := by
  refine ⟨fun _ member => member, rfl, fun _ member => Or.inl member, id, fun client _ => ?_⟩
  have same : (fun line : Line => if line.isFed then line.takeAll [] else line) = id := by
    funext line
    simp [Line.takeAll_nil]
  rw [dispatchesTo_nil, same, Option.map_id_apply]

theorem puts_putItem (router : Router) (overflowed : List ClientId) (item : Outbound) :
    Puts (router, overflowed) [item] (putItem (router, overflowed) item) := by
  have other : ∀ client, item.client ≠ client → dispatchesTo client [item] = [] := by
    intro client apart
    rw [dispatchesTo_cons, if_neg apart, dispatchesTo_nil]
  obtain ⟨spare, same⟩ | ⟨line, unnoted, fed, ⟨full, noted⟩ | took⟩ :=
    router.putItem_cases overflowed item
  · rw [same]
    have nothing := puts_nil (router, overflowed)
    refine ⟨nothing.noted, rfl, fun _ member => Or.inl member, id, fun client absent => ?_⟩
    by_cases isIts : item.client = client
    · subst isIts
      have unfed := spare.resolve_left absent
      cases held : router.lines[item.client]? with
      | none => rfl
      | some line =>
          have notFed : line.isFed = false := by
            rw [fedLine?, held, Option.filter_some] at unfed
            simpa using unfed
          rw [Option.map_some, notFed]
          rfl
    · rw [other client isIts]
      exact nothing.taken client absent
  · rw [noted]
    refine ⟨fun client member => List.mem_append_left _ member, rfl, fun client member => ?_,
      fun distinct => ?_, fun client absent => ?_⟩
    · refine (List.mem_append.mp member).imp_right fun isIts => ?_
      rw [List.mem_singleton.mp isIts, dispatchesTo_cons, if_pos rfl]
      exact ⟨line, fed, full⟩
    · exact List.nodup_append.mpr ⟨distinct, by simp, fun client member other isIts => by
        rw [List.mem_singleton.mp isIts]
        rintro rfl
        exact unnoted member⟩
    · have apart : item.client ≠ client := fun isIts =>
        absent (List.mem_append_right _ (List.mem_singleton.mpr isIts.symm))
      rw [other client apart]
      exact (puts_nil (router, overflowed)).taken client fun member =>
        absent (List.mem_append_left _ member)
  · rw [took]
    refine ⟨fun _ member => member, rfl, fun _ member => Or.inl member, id,
      fun client absent => ?_⟩
    obtain ⟨held, isFed⟩ := fedLine?_eq_some_iff.mp fed
    rw [Std.HashMap.getElem?_insert]
    by_cases isIts : item.client = client
    · subst isIts
      rw [if_pos (beq_self_eq_true _), held, Option.map_some, if_pos isFed, dispatchesTo_cons,
        if_pos rfl, dispatchesTo_nil]
    · rw [if_neg (by simpa using isIts), other client isIts]
      exact (puts_nil (router, overflowed)).taken client absent

theorem Puts.trans {before middle after : Router × List ClientId} {first second : List Outbound}
    (start : Puts before first middle) (finish : Puts middle second after) :
    Puts before (first ++ second) after := by
  have still : ∀ client, client ∉ after.2 → client ∉ middle.2 := fun client absent member =>
    absent (finish.noted client member)
  refine ⟨fun client member => finish.noted client (start.noted client member),
    finish.capacity.trans start.capacity, fun client member => ?_,
    fun distinct => finish.once (start.once distinct), fun client absent => ?_⟩
  · rw [dispatchesTo_append]
    by_cases early : client ∈ middle.2
    · exact (start.full client early).imp_right fun ⟨line, fed, full⟩ =>
        ⟨line, fed, full.append _⟩
    · obtain ⟨line, fed, full⟩ := (finish.full client member).resolve_left early
      obtain ⟨held, isFed⟩ := fedLine?_eq_some_iff.mp fed
      rw [start.taken client early] at held
      obtain ⟨earlier, heldBefore, rfl⟩ := Option.map_eq_some_iff.mp held
      by_cases wasFed : earlier.isFed = true
      · rw [if_pos wasFed, start.capacity] at full
        exact Or.inr ⟨earlier, fedLine?_eq_some_iff.mpr ⟨heldBefore, wasFed⟩, full.of_takeAll⟩
      · rw [if_neg wasFed] at isFed
        exact absurd isFed wasFed
  · rw [finish.taken client absent, start.taken client (still client absent), Option.map_map]
    congr 1
    funext line
    rw [Function.comp_apply, dispatchesTo_append]
    by_cases isFed : line.isFed = true
    · rw [if_pos isFed, if_pos isFed, Line.isFed_takeAll, if_pos isFed, Line.takeAll_takeAll]
    · rw [if_neg isFed, if_neg isFed, if_neg isFed]

theorem puts_foldl (batch : List Outbound) (state : Router × List ClientId) :
    Puts state batch (batch.foldl putItem state) := by
  induction batch generalizing state with
  | nil => exact puts_nil state
  | cons item rest ih => exact (puts_putItem state.1 state.2 item).trans (ih _)

theorem lines_unregister_foldl (clients : List ClientId) (router : Router) (client : ClientId) :
    (clients.foldl unregister router).lines[client]? =
      (router.lines[client]?).map fun line => if client ∈ clients then line.cut else line := by
  induction clients generalizing router with
  | nil => simp
  | cons other rest ih =>
      rw [List.foldl_cons, ih]
      unfold unregister
      rw [Std.HashMap.getElem?_modify]
      by_cases isOther : other = client
      · subst isOther
        rw [if_pos (beq_self_eq_true _), Option.map_map]
        congr 1
        funext line
        simp [Line.cut]
      · have apart : client ≠ other := fun same => isOther same.symm
        simp [isOther, apart]

theorem mem_closings {batch : List Outbound} :
    client ∈ closings batch ↔ .close ∈ dispatchesTo client batch := by
  simp only [closings, dispatchesTo, List.mem_map, List.mem_filter, decide_eq_true_eq]
  constructor
  · rintro ⟨item, ⟨member, isClose⟩, rfl⟩
    exact ⟨item, ⟨member, rfl⟩, isClose⟩
  · rintro ⟨item, ⟨member, rfl⟩, isClose⟩
    exact ⟨item, ⟨member, isClose⟩, rfl⟩

variable {batch : List Outbound}

theorem nodup_overflowed (router : Router) (batch : List Outbound) :
    (router.route batch).1.Nodup :=
  (puts_foldl batch (router, [])).once List.nodup_nil

/-- Only lines that the server feeds are reported, and only those without room for the batch. -/
theorem full_of_overflowed (spilled : client ∈ (router.route batch).1) :
    ∃ line, router.fedLine? client = some line ∧
      line.Overflows router.capacity.count (dispatchesTo client batch) :=
  ((puts_foldl batch (router, [])).full client spilled).resolve_left List.not_mem_nil

theorem not_overflowed_of_unfed (unfed : router.fedLine? client = none) :
    client ∉ (router.route batch).1 := by
  intro spilled
  obtain ⟨line, fed, -⟩ := full_of_overflowed spilled
  exact nomatch unfed.symm.trans fed

theorem capacity_unregister_foldl (clients : List ClientId) (router : Router) :
    (clients.foldl unregister router).capacity = router.capacity :=
  List.foldlRecOn (motive := fun later : Router => later.capacity = router.capacity) clients
    unregister rfl fun _ same _ _ => same

theorem capacity_route (router : Router) (batch : List Outbound) :
    (router.route batch).2.capacity = router.capacity :=
  (capacity_unregister_foldl _ _).trans (puts_foldl batch (router, [])).capacity

/-- The server lets go of a line that overflowed. -/
theorem fedLine?_of_overflowed (spilled : client ∈ (router.route batch).1) :
    (router.route batch).2.fedLine? client = none := by
  unfold route at spilled ⊢
  dsimp only at spilled ⊢
  rw [fedLine?, lines_unregister_foldl]
  have listed := List.mem_append_right (closings batch) spilled
  cases (batch.foldl putItem (router, [])).1.lines[client]? with
  | none => rfl
  | some line =>
      rw [Option.map_some, if_pos listed]
      rfl

theorem lines_route (kept : client ∉ (router.route batch).1) :
    (router.route batch).2.lines[client]? =
      (router.lines[client]?).map (·.afterBatch (dispatchesTo client batch)) := by
  have taken := (puts_foldl batch (router, [])).taken client kept
  unfold route at kept ⊢
  dsimp only at kept ⊢
  rw [lines_unregister_foldl, taken, Option.map_map]
  congr 1
  funext line
  have listed : client ∈ closings batch ++ (batch.foldl putItem (router, [])).2 ↔
      .close ∈ dispatchesTo client batch := by
    rw [List.mem_append, mem_closings]
    exact or_iff_left kept
  simp only [Function.comp_apply, listed]
  unfold Line.afterBatch
  have fed := line.isFed_takeAll (dispatchesTo client batch)
  cases isFed : line.isFed with
  | false =>
      have uncut : line.cut = line := by rw [Line.cut, ← isFed]
      simp [uncut]
  | true =>
      by_cases closed : .close ∈ dispatchesTo client batch
      · simp [closed, Line.cut]
      · simp [closed, ← isFed, ← fed]

end Router

end Overworld
