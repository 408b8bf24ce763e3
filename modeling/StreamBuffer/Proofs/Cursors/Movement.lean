import StreamBuffer.Cursors.Movement
import StreamBuffer.Proofs.Cursors.Coherence

/-!
# Movements keep the cursors coherent

The writer moves within its room and a reader within its run, readers go, and readers come where
the ring has a place for them.
-/

namespace StreamBuffer.Cursors

def fold (cursors : Cursors) (capacity position : Nat) : Nat :=
  if position < cursors.span capacity then position else position - cursors.span capacity

def wrote (cursors : Cursors) (capacity items : Nat) : Cursors :=
  { cursors with
    writeIndex := (cursors.writeIndex + items) % capacity
    written := cursors.written + items }

def consumed (cursors : Cursors) (capacity : Nat) (reader : Reader) (items : Nat) : Reader :=
  { reader with
    readIndex := cursors.fold capacity (reader.readIndex + items)
    itemsRead := reader.itemsRead + items }

def refreshed (cursors : Cursors) : Cursors :=
  if ∃ reader ∈ cursors.readers, cursors.Wrapped reader then cursors
    else { cursors with tail := none }

structure Room (cursors : Cursors) (capacity items : Nat) : Prop where
  end_le : cursors.writeIndex + items ≤ capacity
  before : ∀ reader ∈ cursors.readers, cursors.Wrapped reader →
    cursors.writeIndex + items ≤ reader.readIndex

variable {cursors : Cursors} {capacity items : Nat} {reader : Reader}

/-! ## The tail window -/

theorem refreshed_eq (cursors : Cursors) : cursors.refreshed = { cursors with
    tail := if ∃ reader ∈ cursors.readers, cursors.Wrapped reader then cursors.tail
      else none } := by
  unfold refreshed
  split <;> rfl

@[simp] theorem written_refreshed : cursors.refreshed.written = cursors.written :=
  by rw [refreshed_eq]

@[simp] theorem writeIndex_refreshed : cursors.refreshed.writeIndex = cursors.writeIndex :=
  by rw [refreshed_eq]

@[simp] theorem readers_refreshed : cursors.refreshed.readers = cursors.readers :=
  by rw [refreshed_eq]

@[simp] theorem maxLookBack_refreshed : cursors.refreshed.maxLookBack = cursors.maxLookBack :=
  by rw [refreshed_eq]

@[simp] theorem maxDelay_refreshed : cursors.refreshed.maxDelay = cursors.maxDelay :=
  by rw [refreshed_eq]

@[simp] theorem lag_refreshed : cursors.refreshed.lag reader = cursors.lag reader := by
  unfold lag
  rw [written_refreshed]

theorem Countable.refreshTail_eq (hc : cursors.Countable) :
    cursors.refreshTail = .ok cursors.refreshed := by
  unfold refreshTail refreshed
  rw [hc.anyWrapped_eq]
  simp only [bind, Except.bind, List.any_eq_true, decide_eq_true_eq]
  by_cases ht : cursors.tail = none
  · have he : { cursors with tail := none } = cursors := by rw [← ht]
    simp only [ht, Option.isNone_none, he, ite_self]
    rfl
  · rw [if_neg (by simpa using ht)]
    split <;> rfl

namespace Ordered

theorem withoutTail (h : cursors.Ordered capacity)
    (hn : ∀ reader ∈ cursors.readers, ¬ cursors.Wrapped reader) :
    Ordered { cursors with tail := none } capacity where
  writeIndex_lt := h.writeIndex_lt
  placed reader hr :=
    ⟨(h.placed reader hr).read_le, .inl ((h.not_wrapped_iff hr).mp (hn reader hr))⟩
  lookBack_le := h.lookBack_le
  maxLookBack_lt := h.maxLookBack_lt
  ids_nodup := h.ids_nodup
  id_lt := h.id_lt
  window := nofun

theorem refreshed (h : cursors.Ordered capacity) : cursors.refreshed.Coherent capacity := by
  unfold Cursors.refreshed
  split
  · exact ⟨h, fun _ => ‹_›⟩
  · rename_i hn
    exact ⟨h.withoutTail fun reader hr hw => hn ⟨reader, hr, hw⟩, fun ht => absurd rfl ht⟩

end Ordered

/-! ## The writer -/

theorem advanceWriter_eq (h0 : 0 < capacity) (hr : cursors.writeIndex + items < Word.limit)
    (hw : cursors.written + items < Word.limit) :
    ∃ event, cursors.advanceWriter capacity items = .ok (cursors.wrote capacity items, event) := by
  refine ⟨.writerAdvanced (cursors.wrote capacity items).writeIndex items (cursors.written + items),
    ?_⟩
  unfold advanceWriter
  rw [Ring.advance_eq_ok h0 hr, Word.add_eq_ok hw]
  rfl

namespace Coherent

/-- Room does not lead past a tail window. -/
theorem room_le_span (h : cursors.Coherent capacity) (hroom : cursors.Room capacity items) :
    cursors.writeIndex + items ≤ cursors.span capacity := by
  cases ht : cursors.tail with
  | none =>
    have hspan : cursors.span capacity = capacity := span_of_no_tail ht
    rw [hspan]
    exact hroom.end_le
  | some tail =>
    obtain ⟨reader, hr, hw⟩ := h.lagging (by rw [ht]; exact nofun)
    have := hroom.before reader hr hw
    have := h.readIndex_lt hr
    omega

/-- The writer comes round at the end of the region only, when nobody has to come round. -/
theorem writeIndex_wrote (h : cursors.Coherent capacity) (hroom : cursors.Room capacity items) :
    (cursors.wrote capacity items).writeIndex = cursors.writeIndex + items ∨
      cursors.writeIndex + items = capacity ∧ (cursors.wrote capacity items).writeIndex = 0 ∧
        ∀ reader ∈ cursors.readers, ¬ cursors.Wrapped reader := by
  rcases Nat.lt_or_ge (cursors.writeIndex + items) capacity with hl | hl
  · exact .inl (Nat.mod_eq_of_lt hl)
  have he : cursors.writeIndex + items = capacity := Nat.le_antisymm hroom.end_le hl
  refine .inr ⟨he, by simp only [wrote, he, Nat.mod_self], ?_⟩
  intro reader hr hw
  have := hroom.before reader hr hw
  have := h.readIndex_lt hr
  have := h.ring
  omega

theorem lag_wrote (hread : reader.itemsRead ≤ cursors.written + reader.lookBack) :
    (cursors.wrote capacity items).lag reader = cursors.lag reader + items := by
  simp only [lag, wrote]
  omega

theorem placed_wrote (h : cursors.Coherent capacity) (hroom : cursors.Room capacity items)
    (hr : reader ∈ cursors.readers) : (cursors.wrote capacity items).Placed capacity reader := by
  have hring := h.ring
  have hread := (h.placed reader hr).read_le
  have hspan : (cursors.wrote capacity items).span capacity = cursors.span capacity := rfl
  refine ⟨Nat.le_trans hread (by simp only [wrote]; omega), ?_⟩
  rw [lag_wrote hread, hspan]
  by_cases hw : cursors.Wrapped reader
  · have := hroom.before reader hr hw
    have := (h.wrapped_iff hr).mp hw
    rcases h.writeIndex_wrote hroom with hi | ⟨_, _, hn⟩
    · omega
    · exact absurd hw (hn reader hr)
  · have := (h.not_wrapped_iff hr).mp hw
    have := h.room_le_span hroom
    rcases h.writeIndex_wrote hroom with hi | ⟨he, h0, _⟩ <;> omega

/-- As long as a reader has to come round, the writer stays behind it. -/
theorem wrapped_wrote (h : cursors.Coherent capacity) (hroom : cursors.Room capacity items)
    (hr : reader ∈ cursors.readers) (hw : cursors.Wrapped reader) :
    (cursors.wrote capacity items).writeIndex = cursors.writeIndex + items ∧
      (cursors.wrote capacity items).Wrapped reader := by
  have := hroom.before reader hr hw
  have := (h.wrapped_iff hr).mp hw
  have := h.ring
  have hlag : (cursors.wrote capacity items).lag reader = cursors.lag reader + items :=
    lag_wrote (h.placed reader hr).read_le
  rcases h.writeIndex_wrote hroom with hi | ⟨_, _, hn⟩
  · refine ⟨hi, ?_⟩
    unfold Wrapped
    omega
  · exact absurd hw (hn reader hr)

theorem wrote (h : cursors.Coherent capacity) (hroom : cursors.Room capacity items) :
    (cursors.wrote capacity items).Coherent capacity := by
  refine ⟨⟨Nat.mod_lt _ (Nat.zero_lt_of_lt h.writeIndex_lt),
    fun reader hr => h.placed_wrote hroom hr,
    h.lookBack_le, h.maxLookBack_lt, h.ids_nodup, h.id_lt, ?_⟩, ?_⟩
  · intro tail ht
    have hspan : cursors.span capacity = tail.start := by
      unfold span
      rw [show cursors.tail = some tail from ht]
    obtain ⟨hstart, hstop, hcopied, _, hpos⟩ := h.window tail ht
    obtain ⟨reader, hr, hw⟩ :=
      h.lagging (show cursors.tail ≠ none from ht ▸ Option.some_ne_none tail)
    have := (h.wrapped_wrote hroom hr hw).1
    have := hroom.before reader hr hw
    have := h.readIndex_lt hr
    exact ⟨hstart, hstop, by omega, by omega, Nat.lt_of_lt_of_le hpos (Nat.le_add_right ..)⟩
  · intro ht
    obtain ⟨reader, hr, hw⟩ := h.lagging ht
    exact ⟨reader, hr, (h.wrapped_wrote hroom hr hw).2⟩

end Coherent

/-! ## Readers that stay -/

theorem mem_replace (hr : reader ∈ cursors.readers) (other : Reader) (hid : other.id = reader.id)
    {r : Reader} : r ∈ (cursors.replace other).readers ↔
      r = other ∨ r ∈ cursors.readers ∧ r.id ≠ reader.id := by
  simp only [replace, List.mem_map, hid]
  constructor
  · rintro ⟨old, hold, rfl⟩
    split
    · exact .inl rfl
    · exact .inr ⟨hold, ‹_›⟩
  · rintro (rfl | ⟨hr', hne⟩)
    · exact ⟨reader, hr, if_pos rfl⟩
    · exact ⟨r, hr', if_neg hne⟩

/-- A reader moves as its position does. -/
theorem advanceReader_of_next {position : Nat}
    (hnext : cursors.nextIndex capacity reader items = .ok position)
    (hread : reader.itemsRead + items < Word.limit) :
    ∃ event, cursors.advanceReader capacity reader items = .ok
      (cursors.replace { reader with readIndex := position, itemsRead := reader.itemsRead + items },
        event) := by
  unfold advanceReader
  rw [hnext, Word.add_eq_ok hread]
  exact ⟨_, rfl⟩

theorem map_id_replace {other : Reader} :
    (cursors.replace other).readers.map (·.id) = cursors.readers.map (·.id) := by
  simp only [replace, List.map_map]
  apply List.map_congr_left
  intro old _
  simp only [Function.comp]
  split
  · exact Eq.symm ‹_›
  · rfl

namespace Ordered

theorem replace (h : cursors.Ordered capacity) (hr : reader ∈ cursors.readers) {other : Reader}
    (hid : other.id = reader.id) (hl : other.lookBack = reader.lookBack)
    (hp : cursors.Placed capacity other) : (cursors.replace other).Ordered capacity where
  writeIndex_lt := h.writeIndex_lt
  placed r hm := by
    rcases (mem_replace hr _ hid).mp hm with rfl | ⟨hr', _⟩
    · exact ⟨hp.read_le, hp.along⟩
    · exact ⟨(h.placed r hr').read_le, (h.placed r hr').along⟩
  lookBack_le r hm := by
    rcases (mem_replace hr _ hid).mp hm with rfl | ⟨hr', _⟩
    · exact hl ▸ h.lookBack_le reader hr
    · exact h.lookBack_le r hr'
  maxLookBack_lt := h.maxLookBack_lt
  ids_nodup := by
    rw [map_id_replace]
    exact h.ids_nodup
  id_lt r hm := by
    rcases (mem_replace hr _ hid).mp hm with rfl | ⟨hr', _⟩
    · exact hid ▸ h.id_lt reader hr
    · exact h.id_lt r hr'
  window tail ht := (h.window tail ht).of_eq rfl rfl

theorem nextIndex_eq (h : cursors.Ordered capacity) (hc : cursors.Counted)
    (hcap : capacity < Word.limit) (hr : reader ∈ cursors.readers)
    (hi : items ≤ cursors.available capacity reader) :
    cursors.nextIndex capacity reader items =
      .ok (cursors.fold capacity (reader.readIndex + items)) := by
  obtain ⟨h1, h2, h3, h4⟩ := h.ring
  have h0 : 0 < capacity := Nat.zero_lt_of_lt h.writeIndex_lt
  have hle := (h.available_spec hr).2.2
  have hlt := h.readIndex_lt hr
  have hadv := Ring.advance_eq_ok h0 (show reader.readIndex + items < Word.limit by omega)
  have hfront : ¬ cursors.Wrapped reader → reader.readIndex + items < cursors.span capacity :=
    fun hw => by
    have := (h.not_wrapped_iff hr).mp hw
    rw [available, if_neg hw] at hi
    omega
  unfold nextIndex fold
  rw [isWrapped_eq (hc.lookBack h hr),
    Word.add_eq_ok (show reader.readIndex + items < Word.limit by omega), hadv]
  simp only [bind, Except.bind, decide_eq_true_eq]
  cases ht : cursors.tail with
  | none =>
    have hs : cursors.span capacity = capacity := span_of_no_tail ht
    rw [hs]
    refine congrArg Except.ok ?_
    split
    · exact Nat.mod_eq_of_lt ‹_›
    · rw [show reader.readIndex + items = capacity by omega, Nat.mod_self, Nat.sub_self]
  | some tail =>
    have hs : cursors.span capacity = tail.start := by unfold span; rw [ht]
    have he : cursors.wrapEnd capacity = tail.stop := by unfold wrapEnd; rw [ht]
    rw [hs] at hlt hfront ⊢
    rw [he] at hle h4
    simp only
    by_cases hin : cursors.Wrapped reader ∧ tail.start ≤ reader.readIndex + items ∧
        reader.readIndex + items ≤ tail.stop
    · rw [if_pos hin, if_neg (by omega)]
      rfl
    · -- a reader that is not in the window after its step is before it
      have hl : reader.readIndex + items < tail.start := by
        by_cases hw : cursors.Wrapped reader
        · exact Nat.lt_of_not_le fun hs => hin ⟨hw, hs, by omega⟩
        · exact hfront hw
      have := (h.window tail ht).start_lt
      rw [if_neg hin, if_pos hl, Nat.mod_eq_of_lt (by omega)]

theorem placed_consumed (h : cursors.Ordered capacity) (hr : reader ∈ cursors.readers)
    (hi : items ≤ cursors.available capacity reader) :
    cursors.Placed capacity (cursors.consumed capacity reader items) := by
  obtain ⟨h1, h2, h3, h4⟩ := h.ring
  obtain ⟨hlag, _, hle⟩ := h.available_spec hr
  have hread := (h.placed reader hr).read_le
  have hl : cursors.lag (cursors.consumed capacity reader items) = cursors.lag reader - items := by
    simp only [lag, consumed]
    omega
  refine ⟨by simp only [consumed]; unfold lag at hlag; omega, ?_⟩
  rw [hl]
  simp only [consumed, fold]
  by_cases hw : cursors.Wrapped reader
  · have := (h.wrapped_iff hr).mp hw
    split <;> omega
  · have := (h.not_wrapped_iff hr).mp hw
    rw [if_pos (by omega)]
    omega

theorem advanceReader_eq (h : cursors.Ordered capacity) (hc : cursors.Counted)
    (hcap : capacity < Word.limit) (hr : reader ∈ cursors.readers)
    (hi : items ≤ cursors.available capacity reader) :
    ∃ event, cursors.advanceReader capacity reader items =
      .ok (cursors.replace (cursors.consumed capacity reader items), event) := by
  have hlb := hc.lookBack h hr
  have hp := (h.placed_consumed hr hi).read_le
  simp only [consumed] at hp
  exact advanceReader_of_next (h.nextIndex_eq hc hcap hr hi) (by omega)

theorem consume (h : cursors.Ordered capacity) (hr : reader ∈ cursors.readers)
    (hi : items ≤ cursors.available capacity reader) :
    (cursors.replace (cursors.consumed capacity reader items)).Ordered capacity :=
  h.replace hr rfl rfl (h.placed_consumed hr hi)

end Ordered

/-! ## Readers that go -/

def without (cursors : Cursors) (id : Nat) : Cursors :=
  { cursors with readers := cursors.readers.eraseP (·.id == id) }

theorem Ordered.without (h : cursors.Ordered capacity) (id : Nat) :
    (cursors.without id).Ordered capacity := by
  have hs : (cursors.without id).readers.Sublist cursors.readers := List.eraseP_sublist
  exact ⟨h.writeIndex_lt,
    fun r hr => ⟨(h.placed r (hs.subset hr)).read_le, (h.placed r (hs.subset hr)).along⟩,
    fun r hr => h.lookBack_le r (hs.subset hr), h.maxLookBack_lt, h.ids_nodup.sublist (hs.map _),
    fun r hr => h.id_lt r (hs.subset hr),
    fun tail ht => (h.window tail ht).of_eq rfl rfl⟩

theorem Countable.detach_eq (hc : cursors.Countable) (id : Nat) :
    ∃ event, cursors.detach id = .ok ((cursors.without id).refreshed, event) := by
  have hc' : (cursors.without id).Countable :=
    fun reader hr => hc reader (List.eraseP_sublist.subset hr)
  refine ⟨.readerDetached id (cursors.without id).readers.length, ?_⟩
  change ((cursors.without id).refreshTail >>= fun cursors => pure (cursors, _)) = _
  rw [hc'.refreshTail_eq]
  rfl

end StreamBuffer.Cursors
