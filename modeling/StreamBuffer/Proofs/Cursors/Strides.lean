import StreamBuffer.Proofs.Motion

/-!
# Strides

From one state the writer and the readers may go as far as room and supply lead them then. Where the
cursors are on the way depends on how far each has come, and not on the order of their steps.
-/

namespace StreamBuffer.Cursors

/-- The writer has come `items` further, and each reader its share. The tail window is kept until
all readers that had to come round have passed its start. -/
def partway (cursors : Cursors) (capacity items : Nat) (share : Nat → Nat) : Cursors :=
  { cursors with
    writeIndex := (cursors.writeIndex + items) % capacity
    written := cursors.written + items
    readers := cursors.readers.map fun reader => cursors.consumed capacity reader (share reader.id)
    tail :=
      if ∃ reader ∈ cursors.readers, cursors.Wrapped reader ∧
          reader.readIndex + share reader.id < cursors.span capacity then cursors.tail
      else none }

structure Within (cursors : Cursors) (capacity items : Nat) (share : Nat → Nat) : Prop where
  coherent : cursors.Coherent capacity
  room : cursors.Room capacity items ∨ cursors.readers = []
  supply : ∀ reader ∈ cursors.readers, share reader.id ≤ cursors.available capacity reader

variable {cursors : Cursors} {capacity items count : Nat} {reader : Reader} {share : Nat → Nat}

theorem Room.mono (h : cursors.Room capacity items) (hle : count ≤ items) :
    cursors.Room capacity count := by
  refine ⟨?_, fun reader hr hw => ?_⟩
  · have := h.end_le
    omega
  · have := h.before reader hr hw
    omega

theorem fold_of_lt {position : Nat} (h : position < cursors.span capacity) :
    cursors.fold capacity position = position := if_pos h

/-! ## On the way -/

theorem partway_zero (h : cursors.Coherent capacity) :
    cursors.partway capacity 0 (fun _ => 0) = cursors := by
  have hstays : ∀ reader ∈ cursors.readers, cursors.consumed capacity reader 0 = reader := by
    intro reader hr
    simp only [consumed, Nat.add_zero, fold_of_lt (h.readIndex_lt hr)]
  have htail : (if ∃ reader ∈ cursors.readers, cursors.Wrapped reader ∧
      reader.readIndex < cursors.span capacity then cursors.tail else none) = cursors.tail := by
    by_cases ht : cursors.tail = none
    · simp [ht]
    · obtain ⟨reader, hr, hw⟩ := h.lagging ht
      exact if_pos ⟨reader, hr, hw, h.readIndex_lt hr⟩
  unfold partway
  simp only [Nat.add_zero, htail, List.map_congr_left hstays, List.map_id',
    Nat.mod_eq_of_lt h.writeIndex_lt]

@[simp] theorem wrote_partway :
    (cursors.partway capacity items share).wrote capacity count =
      cursors.partway capacity (items + count) share := by
  simp only [partway, wrote, Nat.mod_add_mod, Nat.add_assoc]

theorem mem_partway (hr : reader ∈ cursors.readers) :
    cursors.consumed capacity reader (share reader.id) ∈
      (cursors.partway capacity items share).readers :=
  List.mem_map_of_mem hr

namespace Within

theorem before (h : cursors.Within capacity items share) (hr : reader ∈ cursors.readers)
    (hw : cursors.Wrapped reader) :
    cursors.writeIndex + items ≤ reader.readIndex := by
  rcases h.room with hroom | hnone
  · exact hroom.before reader hr hw
  · simp [hnone] at hr

theorem lag_eq (h : cursors.Within capacity items share) (hr : reader ∈ cursors.readers) :
    (cursors.partway capacity items share).lag
      (cursors.consumed capacity reader (share reader.id)) +
      share reader.id = cursors.lag reader + items := by
  have hread := (h.coherent.placed reader hr).read_le
  have hsupply := h.supply reader hr
  have hspec := (h.coherent.available_spec hr).1
  simp only [lag, partway, consumed] at hspec ⊢
  omega

/-- Who had to come round still has to, until it has passed the start of the tail window or the
end. -/
theorem wrapped_iff (h : cursors.Within capacity items share) (hr : reader ∈ cursors.readers)
    (hlt : cursors.writeIndex + items < capacity) :
    (cursors.partway capacity items share).Wrapped
      (cursors.consumed capacity reader (share reader.id)) ↔
      cursors.Wrapped reader ∧ reader.readIndex + share reader.id < cursors.span capacity := by
  obtain ⟨_, _, hround, _⟩ := h.coherent.ring
  have hsupply := h.supply reader hr
  have hend := (h.coherent.available_spec hr).2.2
  have hlag := h.lag_eq hr
  have hindex : (cursors.partway capacity items share).writeIndex = cursors.writeIndex + items :=
    Nat.mod_eq_of_lt hlt
  -- the reader is only known by its new position from here
  generalize hmoved : cursors.consumed capacity reader (share reader.id) = moved at hlag ⊢
  have hread : moved.readIndex = cursors.fold capacity (reader.readIndex + share reader.id) := by
    rw [← hmoved]
    rfl
  have hdef : (cursors.partway capacity items share).Wrapped moved ↔
      cursors.writeIndex + items < moved.readIndex ∨
      moved.readIndex = cursors.writeIndex + items ∧
      0 < (cursors.partway capacity items share).lag moved := by
    rw [← hindex]
    rfl
  rw [hdef, hread]
  unfold fold
  by_cases hw : cursors.Wrapped reader
  · have := h.before hr hw
    have := (h.coherent.wrapped_iff hr).mp hw
    simp only [hw, true_and]
    split <;> omega
  · have := (h.coherent.not_wrapped_iff hr).mp hw
    have : share reader.id ≤ cursors.writeIndex - reader.readIndex := by
      rwa [available, if_neg hw] at hsupply
    simp only [hw, false_and, iff_false]
    split <;> omega

/-- While there is a tail window the writer does not come to the end. -/
theorem lt_of_tail (h : cursors.Within capacity items share) (ht : cursors.tail ≠ none) :
    cursors.writeIndex + items < capacity := by
  obtain ⟨reader, hr, hw⟩ := h.coherent.lagging ht
  have := h.before hr hw
  have := h.coherent.readIndex_lt hr
  have := h.coherent.ring
  omega

theorem span_cases (h : cursors.Within capacity items share) (hr : reader ∈ cursors.readers) :
    cursors.span capacity ≤ (cursors.partway capacity items share).span capacity ∧
      (cursors.Wrapped reader → reader.readIndex + share reader.id < cursors.span capacity →
        (cursors.partway capacity items share).span capacity = cursors.span capacity ∧
          (cursors.partway capacity items share).wrapEnd capacity = cursors.wrapEnd capacity) := by
  obtain ⟨_, hwrap, _, hend⟩ := h.coherent.ring
  by_cases hlag : ∃ reader ∈ cursors.readers, cursors.Wrapped reader ∧
      reader.readIndex + share reader.id < cursors.span capacity
  · have ht : (cursors.partway capacity items share).tail = cursors.tail := if_pos hlag
    simp only [span, wrapEnd, ht, Nat.le_refl, implies_true, and_self]
  · have ht : (cursors.partway capacity items share).tail = none := if_neg hlag
    refine ⟨?_, fun hw hlt => absurd ⟨reader, hr, hw, hlt⟩ hlag⟩
    have hspan : (cursors.partway capacity items share).span capacity = capacity := by
      simp only [span, ht]
    omega

/-! ## What is ahead -/

theorem mono (h : cursors.Within capacity items share) (hle : count ≤ items) :
    cursors.Within capacity count share :=
  ⟨h.coherent, h.room.imp_left (·.mono hle), h.supply⟩

/-- The writer is in front of the end or at it. -/
theorem end_le (h : cursors.Within capacity items share) (hr : reader ∈ cursors.readers) :
    cursors.writeIndex + items ≤ capacity := by
  rcases h.room with hroom | hnone
  · exact hroom.end_le
  · simp [hnone] at hr

theorem room_partway (h : cursors.Within capacity (items + count) share)
    (hroom : cursors.Room capacity (items + count)) :
    (cursors.partway capacity items share).Room capacity count := by
  have hend := hroom.end_le
  have hpos := h.coherent.writeIndex_lt
  have hwithin := h.mono (Nat.le_add_right items count)
  by_cases hlt : cursors.writeIndex + items < capacity
  · have hindex : (cursors.partway capacity items share).writeIndex = cursors.writeIndex + items :=
      Nat.mod_eq_of_lt hlt
    refine ⟨by omega, fun moved hm hw => ?_⟩
    obtain ⟨reader, hr, rfl⟩ := List.mem_map.mp hm
    obtain ⟨hwrapped, hspan⟩ := (hwithin.wrapped_iff hr hlt).mp hw
    have := hroom.before reader hr hwrapped
    simp only [consumed, fold_of_lt hspan]
    omega
  · have hindex : (cursors.partway capacity items share).writeIndex = 0 := by
      simp only [partway, show cursors.writeIndex + items = capacity by omega, Nat.mod_self]
    exact ⟨by omega, fun moved _ _ => by omega⟩

theorem available_partway (h : cursors.Within capacity items share) (hr : reader ∈ cursors.readers)
    (hmore : share reader.id + count ≤ cursors.available capacity reader) :
    count ≤ (cursors.partway capacity items share).available capacity
      (cursors.consumed capacity reader (share reader.id)) := by
  obtain ⟨hring, _, hround, hwrap⟩ := h.coherent.ring
  have hfits := (h.coherent.available_spec hr).2.2
  have hend := h.end_le hr
  have hpos := h.coherent.writeIndex_lt
  have hread : (cursors.consumed capacity reader (share reader.id)).readIndex =
    cursors.fold capacity (reader.readIndex + share reader.id) := rfl
  by_cases hlt : cursors.writeIndex + items < capacity
  · have hindex : (cursors.partway capacity items share).writeIndex = cursors.writeIndex + items :=
      Nat.mod_eq_of_lt hlt
    have hiff := h.wrapped_iff hr hlt
    unfold available at hmore ⊢
    rw [hindex, hread]
    by_cases hw : cursors.Wrapped reader
    · rw [if_pos hw] at hmore
      by_cases hspan : reader.readIndex + share reader.id < cursors.span capacity
      · rw [if_pos (hiff.mpr ⟨hw, hspan⟩), fold_of_lt hspan, ((h.span_cases hr).2 hw hspan).2]
        omega
      · rw [if_neg fun hc => hspan (hiff.mp hc).2, fold, if_neg hspan]
        omega
    · have := (h.coherent.not_wrapped_iff hr).mp hw
      rw [if_neg hw] at hmore
      rw [if_neg fun hc => hw (hiff.mp hc).1, fold_of_lt (by omega)]
      omega
  · -- the writer has come to the end, so nobody had to come round before, and all have to now
    have hindex : (cursors.partway capacity items share).writeIndex = 0 := by
      simp only [partway, show cursors.writeIndex + items = capacity by omega, Nat.mod_self]
    have hnone : cursors.tail = none := Decidable.byContradiction fun ht => hlt (h.lt_of_tail ht)
    have hstop : (cursors.partway capacity items share).wrapEnd capacity = capacity := by
      simp [wrapEnd, partway, hnone]
    have hw : ¬ cursors.Wrapped reader := by
      intro hw
      have := h.before hr hw
      have := h.coherent.readIndex_lt hr
      omega
    have hlag := h.lag_eq hr
    have := (h.coherent.not_wrapped_iff hr).mp hw
    unfold available at hmore ⊢
    rw [if_neg hw] at hmore
    have hwrapped : (cursors.partway capacity items share).Wrapped
        (cursors.consumed capacity reader (share reader.id)) := by
      unfold Wrapped
      rw [hindex, hread]
      omega
    rw [if_pos hwrapped, hstop, hread, fold_of_lt (by omega)]
    omega

/-- Two strides of a reader are one. -/
theorem consumed_partway (h : cursors.Within capacity items share) (hr : reader ∈ cursors.readers)
    (hmore : share reader.id + count ≤ cursors.available capacity reader) :
    (cursors.partway capacity items share).consumed capacity
      (cursors.consumed capacity reader (share reader.id)) count =
      cursors.consumed capacity reader (share reader.id + count) := by
  obtain ⟨hring, _, hround, _⟩ := h.coherent.ring
  have hfits := (h.coherent.available_spec hr).2.2
  have hspan := h.span_cases hr
  have hfold : (cursors.partway capacity items share).fold capacity
      (cursors.fold capacity (reader.readIndex + share reader.id) + count) =
        cursors.fold capacity (reader.readIndex + (share reader.id + count)) := by
    unfold available at hmore
    unfold fold
    by_cases hw : cursors.Wrapped reader
    · rw [if_pos hw] at hmore
      by_cases hlt : reader.readIndex + share reader.id < cursors.span capacity
      · rw [if_pos hlt, (hspan.2 hw hlt).1, Nat.add_assoc]
      · rw [if_neg hlt, if_neg
          (show ¬ reader.readIndex + (share reader.id + count) < cursors.span capacity by omega),
          if_pos (by omega)]
        omega
    · have := (h.coherent.not_wrapped_iff hr).mp hw
      rw [if_neg hw] at hmore
      rw [if_pos (show reader.readIndex + share reader.id < cursors.span capacity by omega),
        if_pos (by omega), if_pos (by omega), Nat.add_assoc]
  unfold consumed
  rw [hfold, Nat.add_assoc]

end Within

/-! ## One more stride -/

/-- The writer alone has moved. -/
theorem Coherent.partway_wrote (h : cursors.Coherent capacity) (items : Nat) :
    cursors.partway capacity items (fun _ => 0) = cursors.wrote capacity items := by
  rw [← Nat.zero_add items, ← wrote_partway, partway_zero h, Nat.zero_add]

/-- Room that was not used is left. -/
theorem Room.wrote (h : cursors.Room capacity (items + count)) (hc : cursors.Coherent capacity) :
    (cursors.wrote capacity items).Room capacity count := by
  rw [← hc.partway_wrote]
  exact Within.room_partway ⟨hc, .inl h, fun _ _ => Nat.zero_le _⟩ h

namespace Within

theorem wrote (h : cursors.Within capacity (items + count) share)
    (hc : (cursors.partway capacity items share).Coherent capacity) :
    (cursors.partway capacity (items + count) share).Coherent capacity := by
  rw [← wrote_partway]
  rcases h.room with hroom | hnone
  · exact hc.wrote (h.room_partway hroom)
  · exact hc.roved (by simp [partway, hnone])

/-- A reader has to come round still just when it had to and has not passed the end yet. -/
theorem lagging_iff (h : cursors.Within capacity items share)
    (hlt : cursors.writeIndex + items < capacity) :
    (∃ moved ∈ (cursors.partway capacity items share).readers,
      (cursors.partway capacity items share).Wrapped moved) ↔
      ∃ reader ∈ cursors.readers, cursors.Wrapped reader ∧
        reader.readIndex + share reader.id < cursors.span capacity := by
  constructor
  · rintro ⟨moved, hm, hw⟩
    obtain ⟨reader, hr, rfl⟩ := List.mem_map.mp hm
    exact ⟨reader, hr, (h.wrapped_iff hr hlt).mp hw⟩
  · rintro ⟨reader, hr, hw⟩
    exact ⟨_, mem_partway hr, (h.wrapped_iff hr hlt).mpr hw⟩

/-- The share of one reader has grown. -/
theorem refreshed_replace {grown : Nat → Nat} (h : cursors.Within capacity items share)
    (hg : cursors.Within capacity items grown) (hr : reader ∈ cursors.readers)
    (hgrown : grown reader.id = share reader.id + count)
    (hsame : ∀ id, id ≠ reader.id → grown id = share id) :
    ((cursors.partway capacity items share).replace
      ((cursors.partway capacity items share).consumed capacity
      (cursors.consumed capacity reader (share reader.id)) count)).refreshed =
        cursors.partway capacity items grown := by
  have hmore := hg.supply reader hr
  rw [hgrown] at hmore
  rw [h.consumed_partway hr hmore, ← hgrown, refreshed_eq]
  have hreaders : ((cursors.partway capacity items share).replace
      (cursors.consumed capacity reader (grown reader.id))).readers =
        (cursors.partway capacity items grown).readers := by
    simp only [replace, partway, List.map_map]
    apply List.map_congr_left
    intro other ho
    by_cases hid : other.id = reader.id
    · cases eq_of_id_eq h.coherent.ids_nodup ho hr hid
      exact if_pos rfl
    · rw [hsame other.id hid]
      exact if_neg hid
  have htail : (if ∃ moved ∈ (cursors.partway capacity items grown).readers,
      (cursors.partway capacity items grown).Wrapped moved
        then (cursors.partway capacity items share).tail else none) =
        (cursors.partway capacity items grown).tail := by
    -- without a tail window there is none to give up
    by_cases ht : cursors.tail = none
    · have hnone : ∀ share, (cursors.partway capacity items share).tail = none := by
        intro share
        simp only [partway, ht, ite_self]
      rw [hnone, hnone]
      exact ite_self ..
    by_cases hlag : ∃ reader ∈ cursors.readers, cursors.Wrapped reader ∧
        reader.readIndex + grown reader.id < cursors.span capacity
    · -- whoever lags after the step lagged before it
      have hbefore : ∃ reader ∈ cursors.readers, cursors.Wrapped reader ∧
          reader.readIndex + share reader.id < cursors.span capacity := by
        obtain ⟨other, ho, hw, hspan⟩ := hlag
        refine ⟨other, ho, hw, ?_⟩
        by_cases hid : other.id = reader.id
        · rw [hid] at hspan ⊢
          omega
        · rwa [← hsame other.id hid]
      rw [if_pos ((hg.lagging_iff (h.lt_of_tail ht)).mpr hlag)]
      simp only [partway, if_pos hlag, if_pos hbefore]
    · rw [if_neg (hlag ∘ (hg.lagging_iff (h.lt_of_tail ht)).mp)]
      simp only [partway, if_neg hlag]
  rw [hreaders]
  change Cursors.mk _ _ _ _ _ _ (if ∃ moved ∈ (cursors.partway capacity items grown).readers,
      (cursors.partway capacity items grown).Wrapped moved
        then (cursors.partway capacity items share).tail else none) = _
  rw [htail]
  rfl

end Within

end StreamBuffer.Cursors
