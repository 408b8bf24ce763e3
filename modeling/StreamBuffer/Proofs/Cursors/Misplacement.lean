import StreamBuffer.Proofs.Cursors.Attachment

/-!
# Readers out of place

What goes wrong where `Admits` does not hold. A reader placed on the whole region, while the ring
ends at a tail window, is further round than it counts; and readers put back to where they came
count what they consumed before as consumed still.
-/

namespace StreamBuffer.Cursors

/-- A reader is told of more than it has left, of nothing while something is left, or gets no
answer. -/
def Miscounts (cursors : Cursors) (capacity : Nat) : Prop :=
  ∃ reader ∈ cursors.readers, ∀ supply, cursors.flatSupply capacity reader = .ok supply →
    cursors.lag reader < supply ∨ supply = 0 ∧ 0 < cursors.lag reader

/-- There is a tail window, and the reader is its lag behind the writer on the whole region. -/
structure Astray (cursors : Cursors) (capacity : Nat) (tail : Tail) (reader : Reader) : Prop where
  tail_eq : cursors.tail = some tail
  window : cursors.Window capacity tail
  ahead : cursors.writeIndex < reader.readIndex
  readIndex_lt : reader.readIndex < capacity
  around : reader.readIndex + cursors.lag reader = cursors.writeIndex + capacity
  read_le : reader.itemsRead ≤ cursors.written + reader.lookBack
  counted : cursors.written + reader.lookBack < Word.limit

/-- The reader is behind the writer, and has more left than lies between the two, but not so much
as the rest of the region. -/
structure Lapped (cursors : Cursors) (capacity : Nat) (reader : Reader) : Prop where
  tail_eq : cursors.tail = none
  behind : reader.readIndex < cursors.writeIndex
  writeIndex_lt : cursors.writeIndex < capacity
  beyond : cursors.writeIndex < reader.readIndex + cursors.lag reader
  short : reader.readIndex + cursors.lag reader < capacity
  read_le : reader.itemsRead ≤ cursors.written + reader.lookBack
  counted : cursors.written + reader.lookBack < Word.limit

/-- Nothing is written and all readers are as far behind the writer as they look back, though one
of them has moved. -/
structure Rewound (cursors : Cursors) (capacity : Nat) (reader : Reader) : Prop where
  written_eq : cursors.written = 0
  tail_eq : cursors.tail = none
  writeIndex_lt : cursors.writeIndex < capacity
  maxLookBack_lt : cursors.maxLookBack < capacity
  back : ∀ reader ∈ cursors.readers, reader.readIndex + reader.lookBack = cursors.writeIndex
  mem : reader ∈ cursors.readers
  moved : 0 < reader.itemsRead
  read_le : reader.itemsRead ≤ reader.lookBack

def lone (cursors : Cursors) (reader : Reader) : Cursors := { cursors with readers := [reader] }

def fronted (tail : Tail) (reader : Reader) : Reader :=
  { reader with
    readIndex := reader.readIndex - tail.start
    itemsRead := reader.itemsRead + (tail.start - reader.readIndex) }

def caughtUp (cursors : Cursors) (reader : Reader) : Reader :=
  { reader with
    readIndex := cursors.writeIndex
    itemsRead := reader.itemsRead + (cursors.writeIndex - reader.readIndex) }

variable {cursors : Cursors} {capacity lookBack : Nat} {tail : Tail} {reader other : Reader}

theorem lone_replace (hid : other.id = reader.id) :
    (cursors.lone reader).replace other = cursors.lone other := by
  simp [lone, replace, hid]

theorem lone_countable (h : cursors.written + reader.lookBack < Word.limit) :
    (cursors.lone reader).Countable := by
  intro other hm
  rw [List.mem_singleton.mp hm]
  exact h

@[simp] theorem reader?_lone : (cursors.lone reader).reader? reader.id = some reader :=
  by simp [lone, reader?]

theorem mem_lone : reader ∈ (cursors.lone reader).readers := List.mem_singleton_self _

theorem refreshed_of_wrapped (hr : reader ∈ cursors.readers) (hw : cursors.Wrapped reader) :
    cursors.refreshed = cursors := if_pos ⟨reader, hr, hw⟩

theorem refreshed_of_none (ht : cursors.tail = none) : cursors.refreshed = cursors := by
  unfold refreshed
  split
  · rfl
  · rw [← ht]

theorem lone_refreshed (hw : ¬ cursors.Wrapped reader) :
    (cursors.lone reader).refreshed = { cursors with tail := none }.lone reader := by
  refine if_neg ?_
  rintro ⟨other, hm, h⟩
  rw [List.mem_singleton.mp hm] at h
  exact hw h

/-! ## On the whole region, with a tail window -/

namespace Astray

theorem lag_pos (h : cursors.Astray capacity tail reader) : 0 < cursors.lag reader := by
  have := h.around
  have := h.readIndex_lt
  omega

theorem wrapped (h : cursors.Astray capacity tail reader) : cursors.Wrapped reader := .inl h.ahead

theorem lone (h : cursors.Astray capacity tail reader) :
    (cursors.lone reader).Astray capacity tail reader :=
  ⟨h.tail_eq, h.window.of_eq rfl rfl, h.ahead, h.readIndex_lt, h.around, h.read_le, h.counted⟩

theorem flatSupply_eq (h : cursors.Astray capacity tail reader) :
    cursors.flatSupply capacity reader = Word.sub tail.stop reader.readIndex := by
  rw [flatSupply_of_lag h.counted h.lag_pos, if_pos h.wrapped]
  unfold wrapEnd
  rw [h.tail_eq]

/-- Past the end of the window there is nothing for it to read. -/
theorem miscounts (h : cursors.Astray capacity tail reader) (hr : reader ∈ cursors.readers)
    (hp : tail.stop ≤ reader.readIndex) : cursors.Miscounts capacity := by
  refine ⟨reader, hr, fun supply hs => .inr ⟨?_, h.lag_pos⟩⟩
  rw [h.flatSupply_eq] at hs
  have := (Word.sub_eq_ok_iff.mp hs).2
  omega

/-- Short of that, it can read up to the window and goes on in front. -/
theorem advanceReader_eq (h : cursors.Astray capacity tail reader) (hcap : capacity < Word.limit)
    (hp : reader.readIndex < tail.stop) :
    ∃ event, cursors.advanceReader capacity reader (tail.start - reader.readIndex) =
      .ok (cursors.replace (fronted tail reader), event) := by
  have hstop := h.window.stop_le
  have hstart := h.window.start_lt
  have hreached : tail.start ≤ reader.readIndex + (tail.start - reader.readIndex) ∧
      reader.readIndex + (tail.start - reader.readIndex) ≤ tail.stop := by omega
  have hread : reader.itemsRead + (tail.start - reader.readIndex) < Word.limit := by
    have hlag := h.around
    have := h.ahead
    have := h.counted
    have := h.read_le
    unfold lag at hlag
    omega
  have hnext : cursors.nextIndex capacity reader (tail.start - reader.readIndex) =
      .ok (reader.readIndex - tail.start) := by
    unfold nextIndex
    rw [isWrapped_eq h.counted, Word.add_eq_ok (by omega), h.tail_eq]
    simp only [bind, Except.bind, decide_eq_true_eq]
    rw [if_pos ⟨h.wrapped, hreached⟩]
    exact congrArg Except.ok (by omega)
  exact advanceReader_of_next hnext hread

theorem lapped (h : cursors.Astray capacity tail reader) (hp : reader.readIndex < tail.stop) :
    { cursors with tail := none }.Lapped capacity (fronted tail reader) := by
  have hwindow := h.window
  have hcopied := hwindow.copied
  have hstop := hwindow.stop_le
  have hstart := hwindow.start_lt
  have hwrite := hwindow.writeIndex_lt
  have hahead := h.ahead
  have haround := h.around
  have hlt := h.readIndex_lt
  have hread := h.read_le
  unfold lag at haround
  refine ⟨rfl, ?_, ?_, ?_, ?_, ?_, h.counted⟩
  · change reader.readIndex - tail.start < cursors.writeIndex
    omega
  · change cursors.writeIndex < capacity
    omega
  · simp only [lag, fronted]
    omega
  · simp only [lag, fronted]
    omega
  · simp only [fronted]
    omega

end Astray

/-! ## Round once more -/

namespace Lapped

theorem not_wrapped (h : cursors.Lapped capacity reader) : ¬ cursors.Wrapped reader := by
  have := h.behind
  unfold Wrapped
  omega

theorem lone (h : cursors.Lapped capacity reader) : (cursors.lone reader).Lapped capacity reader :=
  ⟨h.tail_eq, h.behind, h.writeIndex_lt, h.beyond, h.short, h.read_le, h.counted⟩

theorem flatSupply_eq (h : cursors.Lapped capacity reader) :
    cursors.flatSupply capacity reader = .ok (cursors.writeIndex - reader.readIndex) := by
  have hbehind := h.behind
  have hbeyond := h.beyond
  rw [flatSupply_of_lag h.counted (by omega), if_neg h.not_wrapped]
  exact Word.sub_eq_ok (by omega)

theorem advanceReader_eq (h : cursors.Lapped capacity reader) (hcap : capacity < Word.limit) :
    ∃ event, cursors.advanceReader capacity reader (cursors.writeIndex - reader.readIndex) =
      .ok (cursors.replace (cursors.caughtUp reader), event) := by
  have hbehind := h.behind
  have hlt := h.writeIndex_lt
  have hsum : reader.readIndex + (cursors.writeIndex - reader.readIndex) = cursors.writeIndex := by
    omega
  have hread : reader.itemsRead + (cursors.writeIndex - reader.readIndex) < Word.limit := by
    have hbeyond := h.beyond
    have := h.counted
    unfold lag at hbeyond
    omega
  have hnext : cursors.nextIndex capacity reader (cursors.writeIndex - reader.readIndex) =
      .ok cursors.writeIndex := by
    unfold nextIndex
    rw [isWrapped_eq h.counted, Word.add_eq_ok (by omega), h.tail_eq,
      Ring.advance_eq_ok (by omega) (by omega), hsum, Nat.mod_eq_of_lt hlt]
    rfl
  exact advanceReader_of_next hnext hread

/-- At the position of the writer it is told of the rest of the region. -/
theorem miscounts (h : cursors.Lapped capacity reader) :
    (cursors.lone (cursors.caughtUp reader)).Miscounts capacity := by
  have hbehind := h.behind
  have hbeyond := h.beyond
  have hshort := h.short
  have hlag : (cursors.lone (cursors.caughtUp reader)).lag (cursors.caughtUp reader) =
      reader.readIndex + cursors.lag reader - cursors.writeIndex := by
    have hread := h.read_le
    simp only [lag, Cursors.lone, caughtUp]
    omega
  have hwrapped : (cursors.lone (cursors.caughtUp reader)).Wrapped (cursors.caughtUp reader) :=
    .inr ⟨rfl, by omega⟩
  have hcounted : (cursors.lone (cursors.caughtUp reader)).written +
      (cursors.caughtUp reader).lookBack <
    Word.limit := h.counted
  refine ⟨_, mem_lone, fun supply hs => .inl ?_⟩
  have hend : (cursors.lone (cursors.caughtUp reader)).wrapEnd capacity = capacity := by
    unfold wrapEnd
    rw [show (cursors.lone (cursors.caughtUp reader)).tail = none from h.tail_eq]
  rw [flatSupply_of_lag hcounted (by omega), if_pos hwrapped, hend] at hs
  have hsupply := (Word.sub_eq_ok_iff.mp hs).2
  change supply = capacity - cursors.writeIndex at hsupply
  omega

end Lapped

/-! ## Put back -/

namespace Rewound

theorem countable (h : cursors.Rewound capacity reader) (hcap : capacity < Word.limit) :
    cursors.Countable := by
  intro other hm
  have := h.written_eq
  have := h.back other hm
  have := h.writeIndex_lt
  omega

theorem not_wrapped (h : cursors.Rewound capacity reader) (hm : other ∈ cursors.readers) :
    ¬ cursors.Wrapped other := by
  have hback := h.back other hm
  have hwritten := h.written_eq
  unfold Wrapped lag
  omega

/-- What it consumed is in front of it again. -/
theorem miscounts (h : cursors.Rewound capacity reader) (hcap : capacity < Word.limit)
    (hl : 0 < cursors.lag reader) : cursors.Miscounts capacity := by
  refine ⟨reader, h.mem, fun supply hs => .inl ?_⟩
  rw [flatSupply_of_lag (h.countable hcap reader h.mem) hl, if_neg (h.not_wrapped h.mem)] at hs
  have hsupply := (Word.sub_eq_ok_iff.mp hs).2
  have hback := h.back reader h.mem
  have hwritten := h.written_eq
  have hmoved := h.moved
  have hread := h.read_le
  unfold lag
  omega

theorem room (h : cursors.Rewound capacity reader) (hcap : capacity < Word.limit) :
    cursors.flatRoom capacity = .ok (capacity - cursors.writeIndex) := by
  obtain ⟨room, hroom, hreach⟩ := (h.countable hcap).flatRoom_eq h.writeIndex_lt
  rcases hreach.tight with ht | ⟨other, hm, hw, _⟩
  · rw [hroom, ht]
  · exact absurd hw (h.not_wrapped hm)

/-- If it consumed all, this comes out with the first item written. -/
theorem wrote_miscounts (h : cursors.Rewound capacity reader) (hcap : capacity < Word.limit)
    (hl : cursors.lag reader = 0) : (cursors.wrote capacity 1).Miscounts capacity := by
  have hback := h.back reader h.mem
  have hwritten := h.written_eq
  have hmoved := h.moved
  have hread := h.read_le
  have hlt := h.writeIndex_lt
  have hlag : (cursors.wrote capacity 1).lag reader = 1 := by
    unfold lag at hl
    simp only [lag, wrote]
    omega
  have hend : (cursors.wrote capacity 1).wrapEnd capacity = capacity := by
    unfold wrapEnd
    rw [show (cursors.wrote capacity 1).tail = none from h.tail_eq]
  have hcounted : (cursors.wrote capacity 1).written + reader.lookBack < Word.limit := by
    simp only [wrote]
    omega
  refine ⟨reader, h.mem, fun supply hs => .inl ?_⟩
  rw [hlag]
  rw [flatSupply_of_lag hcounted (by omega), hend] at hs
  by_cases hround : cursors.writeIndex + 1 < capacity
  · -- the count is the distance to the writer, which is more than the one item written
    have hwrite : (cursors.wrote capacity 1).writeIndex = cursors.writeIndex + 1 :=
      Nat.mod_eq_of_lt hround
    have hw : ¬ (cursors.wrote capacity 1).Wrapped reader := by
      unfold Wrapped
      omega
    rw [if_neg hw] at hs
    have hsupply := (Word.sub_eq_ok_iff.mp hs).2
    omega
  · -- the writer came round: the count goes to the end of the region
    have hwrite : (cursors.wrote capacity 1).writeIndex = 0 := by
      have hfull : cursors.writeIndex + 1 = capacity := by omega
      simp only [wrote, hfull, Nat.mod_self]
    have hw : (cursors.wrote capacity 1).Wrapped reader := by
      unfold Wrapped
      omega
    rw [if_pos hw] at hs
    have hsupply := (Word.sub_eq_ok_iff.mp hs).2
    omega

end Rewound

/-! ## A look-back that is not admitted -/

theorem joined_countable {delay : Nat} (h : (cursors.raised lookBack delay).Ordered capacity)
    (hc : (cursors.raised lookBack delay).Counted) :
    (cursors.joined capacity lookBack delay).Countable := by
  intro other hm
  rcases List.mem_append.mp hm with hm | hm
  · exact hc.countable h other hm
  · rw [List.mem_singleton.mp hm]
    unfold Counted at hc
    rw [maxLookBack_raised] at hc
    change (cursors.raised lookBack delay).written + lookBack < Word.limit
    omega

theorem Coherent.rewound (h : cursors.Coherent capacity) (hl : lookBack < capacity)
    (hu : ¬ cursors.Undisturbed lookBack) (delay : Nat) :
    lookBack ≤ (cursors.raised lookBack delay).writeIndex ∧
      ∃ reader, (cursors.raised lookBack delay).Rewound capacity reader := by
  have hlonger : cursors.maxLookBack < lookBack :=
    Nat.lt_of_not_le fun hle => hu fun hlt => by omega
  have hwritten : cursors.written = 0 := by
    apply Nat.eq_zero_of_not_pos
    exact fun hpos => hu fun _ h0 => by omega
  -- the declaration is the longest so far, and some reader has moved: otherwise it were undisturbed
  have hmoved : ∃ old ∈ cursors.readers, 0 < old.itemsRead := by
    apply Classical.byContradiction
    intro hn
    apply hu
    intro _ _ reader hr
    exact Nat.eq_zero_of_not_pos fun hpos => hn ⟨reader, hr, hpos⟩
  obtain ⟨old, hold, hpos⟩ := hmoved
  have hraised : cursors.raised lookBack delay = (cursors.withMaxima lookBack delay).reserved :=
    if_pos ⟨hlonger, hwritten⟩
  have hmax : (cursors.withMaxima lookBack delay).maxLookBack = lookBack :=
    Nat.max_eq_right (Nat.le_of_lt hlonger)
  rw [hraised]
  refine ⟨Nat.le_of_eq hmax.symm,
    { old with readIndex := (cursors.withMaxima lookBack delay).maxLookBack - old.lookBack },
    hwritten, h.tail_eq_none hwritten, Nat.lt_of_le_of_lt (Nat.le_of_eq hmax) hl,
    Nat.lt_of_le_of_lt (Nat.le_of_eq hmax) hl, fun reader hm => ?_, ?_, hpos, ?_⟩
  · obtain ⟨first, hfirst, rfl⟩ := List.mem_map.mp hm
    have hle := h.lookBack_le first hfirst
    change (cursors.withMaxima lookBack delay).maxLookBack - first.lookBack + first.lookBack =
      (cursors.withMaxima lookBack delay).maxLookBack
    omega
  · exact List.mem_map.mpr ⟨old, hold, rfl⟩
  · have := (h.placed old hold).read_le
    change old.itemsRead ≤ old.lookBack
    omega

theorem Rewound.joined {delay : Nat} (h : (cursors.raised lookBack delay).Rewound capacity reader)
    (hl : lookBack ≤ (cursors.raised lookBack delay).writeIndex) :
    (cursors.joined capacity lookBack delay).Rewound capacity reader := by
  refine ⟨h.written_eq, h.tail_eq, h.writeIndex_lt, h.maxLookBack_lt, fun other hm => ?_,
    List.mem_append_left _ h.mem, h.moved, h.read_le⟩
  rcases List.mem_append.mp hm with hm | hm
  · exact h.back other hm
  · rw [List.mem_singleton.mp hm]
    change (cursors.raised lookBack delay).behind capacity lookBack + lookBack =
      (cursors.raised lookBack delay).writeIndex
    unfold behind
    rw [if_pos hl]
    omega

theorem Coherent.astray (h : cursors.Coherent capacity)
    (hc : cursors.written + lookBack < Word.limit) (hl : lookBack < capacity)
    (hu : cursors.Undisturbed lookBack) (ha : ¬ cursors.Admits lookBack) (delay : Nat) :
    ∃ tail, (cursors.joined capacity lookBack delay).Astray capacity tail
      (cursors.newcomer capacity lookBack delay) := by
  have hcut : cursors.tail ≠ none ∧ cursors.writeIndex < lookBack := by
    refine ⟨fun ht => ha ⟨hu, fun hn => absurd ht hn⟩, ?_⟩
    exact Nat.lt_of_not_le fun hle => ha ⟨hu, fun _ => hle⟩
  obtain ⟨tail, ht⟩ := Option.ne_none_iff_exists'.mp hcut.1
  have hwindow := h.window tail ht
  have hwritten := hwindow.written_pos
  -- something was written, so no reader is put back by the declaration
  have hraised : cursors.raised lookBack delay = cursors.withMaxima lookBack delay :=
    if_neg fun hg => absurd hg.2 (Nat.ne_of_gt hwritten)
  have hplace : (cursors.newcomer capacity lookBack delay).readIndex =
      capacity - lookBack + cursors.writeIndex := by
    unfold newcomer behind
    rw [hraised]
    exact if_neg (Nat.not_le.mpr hcut.2)
  have hwrite : (cursors.joined capacity lookBack delay).writeIndex = cursors.writeIndex := by
    unfold Cursors.joined
    rw [hraised]
    rfl
  have hlag : (cursors.joined capacity lookBack delay).lag
      (cursors.newcomer capacity lookBack delay) = lookBack := by
    simp only [lag, Cursors.joined, newcomer]
    omega
  refine ⟨tail, tail_raised.trans ht, hwindow.of_eq hwrite written_raised, ?_, ?_, ?_,
    Nat.le_add_right .., ?_⟩
  · rw [hwrite, hplace]
    omega
  · rw [hplace]
    omega
  · rw [hwrite, hplace, hlag]
    omega
  · exact Nat.lt_of_le_of_lt (Nat.le_of_eq (congrArg (· + lookBack) written_raised)) hc

end StreamBuffer.Cursors
