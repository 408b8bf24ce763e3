import StreamBuffer.Proofs.Cursors.Inversion

/-!
# Bounds that no caller can break

Whatever callers do, no position leaves the region: movements come round, readers are put back to
where they are allowed, and a relocation is decided on only if its moves stay inside. The one wish
that can reach past the end is for input, from a run the caller made up.
-/

namespace StreamBuffer

namespace Cursors

structure Bounded (cursors : Cursors) (capacity : Nat) : Prop where
  writeIndex_lt : cursors.writeIndex < capacity
  readIndex_lt : ∀ reader ∈ cursors.readers, reader.readIndex < capacity
  maxLookBack_lt : cursors.maxLookBack < capacity
  window : ∀ tail, cursors.tail = some tail →
    0 < tail.start ∧ tail.start ≤ tail.stop ∧ tail.stop ≤ capacity

variable {cursors after : Cursors} {capacity items lookBack delay history id : Nat}
variable {reader : Reader}
variable {event : Event} {events : List Event} {geometry : Geometry}

namespace Bounded

theorem wrapEnd_le (h : cursors.Bounded capacity) : cursors.wrapEnd capacity ≤ capacity := by
  unfold wrapEnd
  split
  · exact (h.window _ ‹_›).2.2
  · exact Nat.le_refl _

theorem refreshTail (h : cursors.Bounded capacity) (he : cursors.refreshTail = .ok after) :
    after.Bounded capacity := by
  rcases refreshTail_eq_ok he with rfl | rfl
  · exact h
  · exact ⟨h.writeIndex_lt, h.readIndex_lt, h.maxLookBack_lt, nofun⟩

theorem advanceWriter (h : cursors.Bounded capacity)
    (he : cursors.advanceWriter capacity items = .ok (after, event)) : after.Bounded capacity := by
  rw [advanceWriter_eq_ok he]
  exact ⟨Nat.mod_lt _ (Nat.zero_lt_of_lt h.writeIndex_lt), h.readIndex_lt, h.maxLookBack_lt,
    h.window⟩

theorem nextIndex (h : cursors.Bounded capacity) {position : Nat}
    (he : cursors.nextIndex capacity reader items = .ok position) : position < capacity := by
  have hpos := Nat.zero_lt_of_lt h.writeIndex_lt
  have hadvance : ∀ {p}, Ring.advance capacity reader.readIndex items = .ok p → p < capacity := by
    intro p hp
    rw [Ring.eq_of_advance_eq_ok hp]
    exact Nat.mod_lt _ hpos
  obtain ⟨wrapped, _, he⟩ := bind_eq_ok.mp he
  obtain ⟨reached, _, he⟩ := bind_eq_ok.mp he
  split at he
  · rename_i tail ht
    obtain ⟨h1, h2, h3⟩ := h.window tail ht
    split at he
    · cases he
      omega
    · exact hadvance he
  · exact hadvance he

theorem replace (h : cursors.Bounded capacity) (hr : reader.readIndex < capacity) :
    (cursors.replace reader).Bounded capacity := by
  refine ⟨h.writeIndex_lt, ?_, h.maxLookBack_lt, h.window⟩
  intro other ho
  obtain ⟨old, hm, rfl⟩ := List.mem_map.mp ho
  split
  · exact hr
  · exact h.readIndex_lt old hm

theorem advanceReader (h : cursors.Bounded capacity)
    (he : cursors.advanceReader capacity reader items = .ok (after, event)) :
    after.Bounded capacity := by
  obtain ⟨readIndex, hp, rfl⟩ := advanceReader_eq_ok he
  exact h.replace (h.nextIndex hp)

theorem raise (h : cursors.Bounded geometry.capacity) (hl : lookBack < geometry.capacity)
    (he : cursors.raise geometry lookBack delay = .ok (after, events)) :
    after.Bounded geometry.capacity := by
  have hmax : max cursors.maxLookBack lookBack < geometry.capacity :=
    Nat.max_lt.mpr ⟨h.maxLookBack_lt, hl⟩
  rcases raise_eq_ok he with rfl | ⟨_, _, _, rfl⟩
  · exact ⟨h.writeIndex_lt, h.readIndex_lt, hmax, h.window⟩
  · refine ⟨hmax, fun reader hr => ?_, hmax, h.window⟩
    obtain ⟨old, _, rfl⟩ := List.mem_map.mp hr
    exact Nat.lt_of_le_of_lt (Nat.sub_le ..) hmax

theorem attach (h : cursors.Bounded geometry.capacity)
    (he : cursors.attach geometry history delay = .ok (id, after, events)) :
    after.Bounded geometry.capacity := by
  obtain ⟨hh, raised, told, readIndex, hraise, hd, rfl⟩ := attach_eq_ok he
  have hpos := Nat.zero_lt_of_lt h.writeIndex_lt
  have hnext : Bounded { cursors with nextReader := cursors.nextReader + 1 } geometry.capacity :=
    ⟨h.writeIndex_lt, h.readIndex_lt, h.maxLookBack_lt, h.window⟩
  have hraised := hnext.raise (by omega) hraise
  refine ⟨hraised.writeIndex_lt, fun reader hr => ?_, hraised.maxLookBack_lt, hraised.window⟩
  rcases List.mem_append.mp hr with hr | hr
  · exact hraised.readIndex_lt reader hr
  · rw [List.mem_singleton.mp hr]
    unfold Ring.distance at hd
    split at hd
    · cases hd
      dsimp only
      split <;> omega
    · cases hd

theorem detach (h : cursors.Bounded capacity) (he : cursors.detach id = .ok (after, event)) :
    after.Bounded capacity := by
  have hreaders : ∀ reader ∈ (cursors.without id).readers, reader.readIndex < capacity := by
    intro reader hr
    exact h.readIndex_lt reader (List.eraseP_sublist.subset hr)
  have hwithout : (cursors.without id).Bounded capacity :=
    ⟨h.writeIndex_lt, hreaders, h.maxLookBack_lt, h.window⟩
  exact hwithout.refreshTail (detach_eq_ok he)

theorem declareDelay (h : cursors.Bounded geometry.capacity) (hr : reader ∈ cursors.readers)
    (he : cursors.declareDelay geometry reader delay = .ok (after, events)) :
    after.Bounded geometry.capacity := by
  have hreader : { reader with sampleDelay := delay }.readIndex < geometry.capacity :=
    h.readIndex_lt reader hr
  exact (h.replace hreader).raise (Nat.zero_lt_of_lt h.writeIndex_lt) he

theorem flatSupply (h : cursors.Bounded capacity) (hr : reader ∈ cursors.readers) {supply : Nat}
    (he : cursors.flatSupply capacity reader = .ok supply) :
    reader.readIndex + supply ≤ capacity := by
  have hw := h.writeIndex_lt
  have hend := h.wrapEnd_le
  have hread := h.readIndex_lt reader hr
  obtain ⟨unread, _, he⟩ := bind_eq_ok.mp he
  split at he
  · cases he
    omega
  · obtain ⟨wrapped, _, he⟩ := bind_eq_ok.mp he
    split at he
    · have := Word.sub_eq_ok_iff.mp he
      omega
    · have := Word.sub_eq_ok_iff.mp he
      omega

end Bounded

end Cursors

/-! ## Relocations -/

structure ItemMove.Overhangs (move : ItemMove) (capacity : Nat) : Prop where
  copied : move.overlapping = false
  count_pos : 0 < move.count
  source_lt : move.source < capacity
  target_le : move.target + move.count ≤ capacity
  beyond : capacity < move.source + move.count

namespace Plan

/-- What is true of a plan whatever callers did. Only what comes to the front for input may lie
past the end, before `reach`. -/
inductive Contained (cursors : Cursors) (capacity reach : Nat) : Plan → Prop where
  | history {start stop : Nat} {positions : List Nat} (hstart : 0 < start) (hstop : start < stop)
      (hle : stop ≤ capacity) (hpositions : ∀ position ∈ positions, position ≤ capacity) :
      Contained cursors capacity reach (.history start stop positions)
  | input {required front moved : Nat} {wrapped : List Bool} (hmoved : 0 < moved)
      (hfront : front < capacity)
      (hroom : cursors.writeIndex + moved ≤ front) (hreach : front + moved ≤ reach)
      (hwrapped : ∀ pair ∈ cursors.readers.zip wrapped, pair.2 = false →
        pair.1.readIndex ≤ cursors.writeIndex) :
      Contained cursors capacity reach (.input required front moved wrapped)
  | output {multiple front kept : Nat} {force : Bool} (hkept : front + kept = cursors.writeIndex) :
      Contained cursors capacity reach (.output multiple force front kept)

variable {cursors after : Cursors} {capacity reach : Nat} {plan : Plan} {event : Event}

theorem Contained.moves (h : cursors.Bounded capacity)
    (hc : plan.Contained cursors capacity reach) :
    ∀ move ∈ plan.moves cursors.writeIndex,
      move.Fits capacity ∨ capacity < reach ∧ move.Overhangs capacity := by
  have hw := h.writeIndex_lt
  intro move hm
  cases hc with
  | @history start stop positions hstart hstop hle _ =>
    rw [List.mem_singleton.mp hm]
    refine .inl ⟨by simp only; omega, by simp only; omega, ?_⟩
    intro hapart
    have := of_decide_eq_false hapart
    simp only
    omega
  | @input required front moved wrapped hmoved hfront hroom hreach _ =>
    rcases List.mem_cons.mp hm with rfl | hm
    · exact .inl ⟨by simp only; omega, by simp only; omega, nofun⟩
    rw [List.mem_singleton.mp hm]
    by_cases hin : front + moved ≤ capacity
    · exact .inl ⟨hin, by simp only; omega, fun _ => by simp only; omega⟩
    · exact .inr ⟨by omega, rfl, hmoved, hfront, by simp only; omega, by simp only; omega⟩
  | @output multiple front kept force hkept =>
    rw [List.mem_singleton.mp hm]
    exact .inl ⟨by simp only; omega, by simp only; omega, nofun⟩

theorem Contained.settle (h : cursors.Bounded capacity) (hc : plan.Contained cursors capacity reach)
    (he : plan.settle cursors = .ok (after, event)) : after.Bounded capacity := by
  have hw := h.writeIndex_lt
  cases hc with
  | @history start stop positions hstart hstop hle hpositions =>
    obtain ⟨lagging, _, he⟩ := bind_eq_ok.mp he
    cases he
    refine ⟨by simp only; omega, ?_, h.maxLookBack_lt, ?_⟩
    · intro reader hr
      obtain ⟨⟨old, position⟩, hp, rfl⟩ := List.mem_map.mp (List.map_uncurry_zip_eq_zipWith ▸ hr)
      obtain ⟨hold, hposition⟩ := List.of_mem_zip hp
      have := h.readIndex_lt old hold
      have := hpositions position hposition
      change (if start ≤ position then { old with readIndex := position - start }
        else old : Reader).readIndex < capacity
      split
      · simp only
        omega
      · assumption
    · intro tail ht
      dsimp only at ht
      split at ht
      · cases ht
        exact ⟨hstart, Nat.le_of_lt hstop, hle⟩
      · cases ht
  | @input required front moved wrapped hmoved hfront hroom hreach hwrapped =>
    obtain ⟨readers, hm, he⟩ := bind_eq_ok.mp he
    obtain ⟨writeIndex, hwi, he⟩ := bind_eq_ok.mp he
    cases he
    -- the writer goes up by what was moved
    have hwriter := (Word.add_eq_ok_iff.mp hwi).2
    refine ⟨by simp only; omega, ?_, h.maxLookBack_lt, fun tail ht => by cases ht⟩
    intro reader hr
    obtain ⟨⟨old, flag⟩, hold, ho⟩ := exists_of_mapM_eq_ok hm reader hr
    have hread := h.readIndex_lt old (List.of_mem_zip hold).1
    cases flag with
    -- a wrapped reader comes down by `front`; the others go up by what was moved
    | true =>
      obtain ⟨position, hp, ho⟩ := bind_eq_ok.mp ho
      cases ho
      have := Word.sub_eq_ok_iff.mp hp
      simp only
      omega
    | false =>
      obtain ⟨position, hp, ho⟩ := bind_eq_ok.mp ho
      cases ho
      have := Word.add_eq_ok_iff.mp hp
      have := hwrapped _ hold rfl
      simp only at this ⊢
      omega
  | @output multiple front kept force hkept =>
    obtain ⟨readers, hm, he⟩ := bind_eq_ok.mp he
    cases he
    refine ⟨by simp only; omega, ?_, h.maxLookBack_lt, h.window⟩
    intro reader hr
    obtain ⟨old, hold, ho⟩ := exists_of_mapM_eq_ok hm reader hr
    obtain ⟨position, hp, ho⟩ := bind_eq_ok.mp ho
    cases ho
    have hread := h.readIndex_lt old hold
    have := Word.sub_eq_ok_iff.mp hp
    simp only
    omega

end Plan

namespace Cursors

variable {cursors : Cursors} {capacity : Nat} {geometry : Geometry} {plan : Plan}

theorem readIndex_le_of_not_wrapped {wrapped : List Bool}
    (hm : cursors.readers.mapM cursors.isWrapped = .ok wrapped) :
    ∀ pair ∈ cursors.readers.zip wrapped, pair.2 = false →
    pair.1.readIndex ≤ cursors.writeIndex := by
  rintro ⟨reader, flag⟩ hp rfl
  have hr := eq_ok_of_mem_zip hm _ hp
  dsimp only at hr ⊢
  unfold isWrapped at hr
  split at hr
  · omega
  · simp only [Except.ok.injEq, decide_eq_false_iff_not] at hr
    omega

namespace Bounded

theorem planHistory (h : cursors.Bounded geometry.capacity)
    (he : cursors.planHistory geometry = .ok (.planned plan)) :
    plan.Contained cursors geometry.capacity geometry.capacity := by
  have hw := h.writeIndex_lt
  unfold Cursors.planHistory at he
  have hle : (if cursors.writeIndex = 0 then geometry.capacity else cursors.writeIndex) ≤
      geometry.capacity := by
    split <;> omega
  generalize (if cursors.writeIndex = 0 then geometry.capacity else cursors.writeIndex) =
    stop at he hle
  obtain ⟨wanted, _, he⟩ := bind_eq_ok.mp he
  dsimp only at he
  split at he
  · cases he
  obtain ⟨positions, hm, he⟩ := bind_eq_ok.mp he
  split at he
  · cases he
  cases he
  refine .history (by omega) (by omega) hle ?_
  intro position hp
  obtain ⟨reader, hr, ho⟩ := exists_of_mapM_eq_ok hm position hp
  have hread := h.readIndex_lt reader hr
  unfold positionBefore at ho
  split at ho
  · obtain ⟨unread, _, ho⟩ := bind_eq_ok.mp ho
    split at ho
    · cases ho
      exact hle
    · cases ho
      omega
  · cases ho
    omega

theorem min_wrapped_lt (h : cursors.Bounded capacity) {wrapped : List Bool} {front : Nat}
    (hfront : ((cursors.readers.zip wrapped).filterMap fun pair =>
      if pair.2 = true then some pair.1.readIndex else none).min? = some front) :
    front < capacity := by
  obtain ⟨hmem, _⟩ := List.min?_eq_some_iff.mp hfront
  obtain ⟨⟨reader, flag⟩, hp, hf⟩ := List.mem_filterMap.mp hmem
  have := h.readIndex_lt reader (List.of_mem_zip hp).1
  dsimp only at hf
  split at hf
  · cases hf
    exact this
  · cases hf

theorem planInput (h : cursors.Bounded capacity) {required available readIndex : Nat}
    (he : cursors.planInput required available readIndex = .ok (.planned plan)) :
    plan.Contained cursors capacity (max capacity (readIndex + available)) := by
  unfold Cursors.planInput at he
  obtain ⟨wrapped, hm, he⟩ := bind_eq_ok.mp he
  dsimp only at he
  split at he
  · cases he
  rename_i front hfront
  have hlt := h.min_wrapped_lt hfront
  -- both ways to an end of the run go on alike: a tail window gives it, or what the reader has
  have hrest : ∀ stop ≤ max capacity (readIndex + available),
      (do
        if stop ≤ front then return .idle
        let room ← Word.sub front cursors.writeIndex
        if room < stop - front then return .blocked (.tailTooLong required (stop - front) room)
        return .planned (.input required front (stop - front) wrapped) : Checked Decision) = .ok
          (.planned plan) →
      plan.Contained cursors capacity (max capacity (readIndex + available)) := by
    intro stop hstop he
    split at he
    · cases he
    obtain ⟨room, hroom, he⟩ := bind_eq_ok.mp he
    have := Word.sub_eq_ok_iff.mp hroom
    split at he
    · cases he
    cases he
    exact .input (by omega) hlt (by omega) (by omega) (readIndex_le_of_not_wrapped hm)
  split at he
  · rename_i tail ht
    have := h.window tail ht
    exact hrest tail.start (by omega) he
  · obtain ⟨stop, hs, he⟩ := bind_eq_ok.mp he
    have := Word.add_eq_ok_iff.mp hs
    exact hrest stop (by omega) he

end Bounded

theorem planOutput_eq_ok {multiple : Nat} {force : Bool}
    (he : cursors.planOutput geometry multiple force = .ok (.planned plan)) :
    ∃ front kept, plan = .output multiple force front kept ∧ front + kept = cursors.writeIndex := by
  unfold Cursors.planOutput at he
  split at he
  · cases he
  obtain ⟨room, _, he⟩ := bind_eq_ok.mp he
  split at he
  · obtain ⟨any, _, he⟩ := bind_eq_ok.mp he
    split at he
    · cases he
    dsimp only at he
    split at he
    · cases he
    obtain ⟨kept, hk, he⟩ := bind_eq_ok.mp he
    cases he
    have := Word.sub_eq_ok_iff.mp hk
    exact ⟨_, kept, rfl, by omega⟩
  · cases he

theorem contained_of_planOutput {multiple : Nat} {force : Bool}
    (he : cursors.planOutput geometry multiple force = .ok (.planned plan)) :
    plan.Contained cursors geometry.capacity geometry.capacity := by
  obtain ⟨front, kept, rfl, hkept⟩ := planOutput_eq_ok he
  exact .output hkept

end Cursors

end StreamBuffer
