import StreamBuffer.Proofs.Cursors.Relocation

/-!
# The course of a reader

A reader meets its items one after another up to the end of its run, and goes on at the front. An
item inside a tail window is met at both places. Whatever moves, a reader meets what is left to it
where it met it before, or where a relocation has put it.
-/

namespace StreamBuffer

namespace Cursors

/-- The reader meets the item `k` after its next at position `i`: before the end of its run or,
once it came round, at the front. -/
def Meets (cursors : Cursors) (capacity : Nat) (reader : Reader) (k i : Nat) : Prop :=
  reader.readIndex + k = i ∧ i < cursors.wrapEnd capacity ∨
    reader.readIndex + k = cursors.span capacity + i

variable {cursors : Cursors} {capacity items i k : Nat} {reader : Reader}

theorem Ordered.meets_lt (h : cursors.Ordered capacity) (hr : reader ∈ cursors.readers)
    (hk : k < cursors.lag reader) (hm : cursors.Meets capacity reader k i) : i < capacity := by
  have hring := h.ring
  have hplaced := (h.placed reader hr).along
  unfold Meets at hm
  omega

theorem Ordered.meets_of_consumed (h : cursors.Ordered capacity) (hr : reader ∈ cursors.readers)
    (hi : items ≤ cursors.available capacity reader) (hk : items + k < cursors.lag reader)
    (hm : cursors.Meets capacity (cursors.consumed capacity reader items) k i) :
    cursors.Meets capacity reader (items + k) i := by
  have hring := h.ring
  have hplaced := (h.placed reader hr).along
  have hav := h.available_spec hr
  unfold Meets consumed fold at *
  simp only at hm
  split at hm <;> omega

theorem Ordered.meets_of_refreshed (h : cursors.Ordered capacity) (hr : reader ∈ cursors.readers)
    (hk : k < cursors.lag reader) (hm : cursors.refreshed.Meets capacity reader k i) :
    cursors.Meets capacity reader k i := by
  unfold Cursors.refreshed at hm
  split at hm
  · exact hm
  · rename_i hnone
    have hring := h.ring
    have hlt := h.writeIndex_lt
    have hw := (h.not_wrapped_iff hr).mp fun hw => hnone ⟨reader, hr, hw⟩
    change _ ∧ i < capacity ∨ _ = capacity + i at hm
    unfold Meets
    omega

/-- What is written lies behind all that a reader has yet to meet. -/
theorem Coherent.meets_of_wrote (h : cursors.Coherent capacity)
    (hroom : cursors.Room capacity items) (hr : reader ∈ cursors.readers)
    (hk : k < cursors.lag reader + items)
    (hm : (cursors.wrote capacity items).Meets capacity reader k i) :
    i < capacity ∧
      if k < cursors.lag reader then
        cursors.Meets capacity reader k i ∧
        ¬ (cursors.writeIndex ≤ i ∧ i < cursors.writeIndex + items)
      else i = cursors.writeIndex + (k - cursors.lag reader) := by
  have hring := h.ring
  have hspan := h.room_le_span hroom
  have hplace : reader.readIndex + cursors.lag reader = cursors.writeIndex ∨
      cursors.writeIndex + items ≤ reader.readIndex ∧ reader.readIndex < cursors.span capacity ∧
        reader.readIndex + cursors.lag reader = cursors.writeIndex + cursors.span capacity := by
    by_cases hw : cursors.Wrapped reader
    · have hp := (h.wrapped_iff hr).mp hw
      exact .inr ⟨hroom.before reader hr hw, hp.2⟩
    · exact .inl ((h.not_wrapped_iff hr).mp hw)
  change _ ∧ i < cursors.wrapEnd capacity ∨ _ = cursors.span capacity + i at hm
  unfold Meets
  split <;> omega

end Cursors

/-! ## Relocations -/

namespace Plan

def origin (plan : Plan) (writeIndex i : Nat) : Nat :=
  match plan with
  | history start stop _ => if i < stop - start then start + i else i
  | input _ front moved _ =>
    if i < moved then front + i else if i < moved + writeIndex then i - moved else i
  | output _ _ front kept => if i < kept then front + i else i

variable {cursors : Cursors} {capacity i k : Nat} {plan : Plan} {reader : Reader}

/-- A reader meets after a relocation what it would have met before. -/
theorem meets_origin (h : cursors.Coherent capacity) (ha : plan.Admissible cursors capacity)
    (hr : reader ∈ cursors.readers) (hk : k < cursors.lag reader)
    (hm : (plan.settled cursors).Meets capacity
      { reader with readIndex := plan.landing cursors reader } k i) :
    cursors.Meets capacity reader k (plan.origin cursors.writeIndex i) := by
  have hring := h.ring
  have hring' := (coherent_settled h ha).ring
  unfold Cursors.Meets at *
  cases ha with
  | @history start stop hstart hstop hle htail _ hreader =>
    obtain ⟨hpos, hfloor⟩ := hreader reader hr
    have hat := cursors.reckoned_of_lt (show cursors.reckoned stop reader < stop by omega)
    have hend : cursors.wrapEnd capacity = capacity := by unfold Cursors.wrapEnd; rw [htail]
    rw [hat] at hpos hfloor
    simp only [landing, hat] at hm
    simp only [origin]
    split at hm
    · have hwriter : (settled (.history start stop (cursors.readers.map (cursors.reckoned stop)))
          cursors).writeIndex = stop - start := rfl
      rw [if_pos (by omega)]
      omega
    -- the reader lags, and meets its items at the old place and in front
    · have hlags : Lags cursors start stop := ⟨reader, hr, by omega⟩
      have hspan : (settled (.history start stop (cursors.readers.map (cursors.reckoned stop)))
          cursors).span capacity = start := by
        simp only [settled, Cursors.span, if_pos hlags]
      rw [hspan] at hring' hm
      have hwriter : (settled (.history start stop (cursors.readers.map (cursors.reckoned stop)))
          cursors).writeIndex = stop - start := rfl
      split <;> omega
  | @input required front moved hmoved hspan hroom hfront _ =>
    -- all readers stand before the writer now
    change _ ∧ i < capacity ∨ _ = capacity + i at hm
    simp only [landing] at hm
    simp only [origin]
    split at hm
    · have hp := (h.wrapped_iff hr).mp ‹_›
      have hf := hfront reader hr ‹_›
      split
      · omega
      · rw [if_pos (by omega)]
        omega
    · have hp := (h.not_wrapped_iff hr).mp ‹_›
      rw [if_neg (by omega), if_pos (by omega)]
      omega
  | @output multiple front kept force hpos hkept hfront _ =>
    obtain ⟨hw, hf⟩ := hfront reader hr
    have hp := (h.not_wrapped_iff hr).mp hw
    have hwriter : (settled (.output multiple force front kept) cursors).writeIndex = kept := rfl
    simp only [landing] at hm
    simp only [origin]
    rw [if_pos (by omega)]
    omega

end Plan

end StreamBuffer
