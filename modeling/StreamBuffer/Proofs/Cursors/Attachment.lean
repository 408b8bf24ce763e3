import StreamBuffer.Proofs.Cursors.Movement

/-!
# Readers that come

A new reader is placed by its look-back on the whole region. That is a place on the ring unless a
tail window cuts the ring short of it. And as long as nothing is written, a longer look-back puts
all readers back to where they came; that is where they stand if they consumed nothing.
-/

namespace StreamBuffer.Cursors

def withMaxima (cursors : Cursors) (lookBack delay : Nat) : Cursors :=
  { cursors with
    maxLookBack := max cursors.maxLookBack lookBack
    maxDelay := max cursors.maxDelay delay }

/-- The writer behind room for the longest look-back, and the readers their own before it. -/
def reserved (cursors : Cursors) : Cursors :=
  { cursors with
    writeIndex := cursors.maxLookBack
    readers := cursors.readers.map fun reader =>
      { reader with readIndex := cursors.maxLookBack - reader.lookBack } }

/-- The cursors of flat storage after a look-back and a delay were declared. -/
def raised (cursors : Cursors) (lookBack delay : Nat) : Cursors :=
  if cursors.maxLookBack < lookBack ∧ cursors.written = 0 then
    (cursors.withMaxima lookBack delay).reserved
  else cursors.withMaxima lookBack delay

def behind (cursors : Cursors) (capacity lookBack : Nat) : Nat :=
  if lookBack ≤ cursors.writeIndex then cursors.writeIndex - lookBack
  else capacity - lookBack + cursors.writeIndex

def newcomer (cursors : Cursors) (capacity lookBack delay : Nat) : Reader :=
  { id := cursors.nextReader
    readIndex := (cursors.raised lookBack delay).behind capacity lookBack
    itemsRead := (cursors.raised lookBack delay).written
    lookBack
    sampleDelay := delay }

def joined (cursors : Cursors) (capacity lookBack delay : Nat) : Cursors :=
  { cursors.raised lookBack delay with
    nextReader := cursors.nextReader + 1
    readers := (cursors.raised lookBack delay).readers ++
      [cursors.newcomer capacity lookBack delay] }

/-- To declare the look-back puts no reader back that has moved. -/
def Undisturbed (cursors : Cursors) (lookBack : Nat) : Prop :=
  cursors.maxLookBack < lookBack → cursors.written = 0 →
    ∀ reader ∈ cursors.readers, reader.itemsRead = 0

/-- A reader with this look-back has a place on the ring. -/
def Admits (cursors : Cursors) (lookBack : Nat) : Prop :=
  cursors.Undisturbed lookBack ∧ (cursors.tail ≠ none → lookBack ≤ cursors.writeIndex)

structure Housed (cursors : Cursors) (capacity : Nat) : Prop where
  writeIndex_lt : cursors.writeIndex < capacity
  lookBack_le : ∀ reader ∈ cursors.readers, reader.lookBack ≤ cursors.maxLookBack
  maxLookBack_lt : cursors.maxLookBack < capacity

variable {cursors : Cursors} {capacity lookBack delay : Nat} {geometry : Geometry}

theorem Ordered.housed (h : cursors.Ordered capacity) : cursors.Housed capacity :=
  ⟨h.writeIndex_lt, h.lookBack_le, h.maxLookBack_lt⟩

@[simp] theorem written_raised : (cursors.raised lookBack delay).written = cursors.written := by
  unfold raised
  split <;> rfl

@[simp] theorem tail_raised : (cursors.raised lookBack delay).tail = cursors.tail := by
  unfold raised
  split <;> rfl

@[simp] theorem nextReader_raised :
    (cursors.raised lookBack delay).nextReader = cursors.nextReader := by
  unfold raised
  split <;> rfl

@[simp] theorem maxLookBack_raised :
    (cursors.raised lookBack delay).maxLookBack = max cursors.maxLookBack lookBack := by
  unfold raised
  split <;> rfl

@[simp] theorem maxDelay_raised :
    (cursors.raised lookBack delay).maxDelay = max cursors.maxDelay delay := by
  unfold raised
  split <;> rfl

theorem raise_eq (hm : geometry.mapping = .single)
    (hl : ∀ reader ∈ cursors.readers, reader.lookBack ≤ cursors.maxLookBack)
    (lookBack delay : Nat) :
    ∃ events, cursors.raise geometry lookBack delay =
      .ok (cursors.raised lookBack delay, events) := by
  unfold raise raised
  by_cases hg : cursors.maxLookBack < lookBack ∧ cursors.written = 0
  · rw [if_pos hg, if_pos ⟨hg.1, hm, hg.2⟩]
    have hsub : ∀ reader ∈ cursors.readers,
        (do return { reader with
          readIndex := ← Word.sub (max cursors.maxLookBack lookBack) reader.lookBack } :
          Checked Reader) =
        .ok { reader with readIndex := max cursors.maxLookBack lookBack - reader.lookBack } :=
      fun reader hr => by
        have := hl reader hr
        rw [Word.sub_eq_ok (by omega)]
        rfl
    refine ⟨[.lookBackReserved (max cursors.maxLookBack lookBack)
      (max cursors.maxLookBack lookBack + 1)], ?_⟩
    change (cursors.readers.mapM _ >>= _) = _
    rw [mapM_eq_ok hsub]
    rfl
  · rw [if_neg hg, if_neg fun hg' => hg ⟨hg'.1, hg'.2.2⟩]
    exact ⟨_, rfl⟩

namespace Ordered

theorem tail_eq_none (h : cursors.Ordered capacity) (hw : cursors.written = 0) :
    cursors.tail = none := by
  cases ht : cursors.tail with
  | none => rfl
  | some tail =>
    have := (h.window tail ht).written_pos
    omega

theorem withMaxima (h : cursors.Ordered capacity) (hl : lookBack < capacity) (delay : Nat) :
    (cursors.withMaxima lookBack delay).Ordered capacity where
  writeIndex_lt := h.writeIndex_lt
  placed r hr := ⟨(h.placed r hr).read_le, (h.placed r hr).along⟩
  lookBack_le r hr := Nat.le_trans (h.lookBack_le r hr) (Nat.le_max_left ..)
  maxLookBack_lt := Nat.max_lt.mpr ⟨h.maxLookBack_lt, hl⟩
  ids_nodup := h.ids_nodup
  id_lt := h.id_lt
  window tail ht := (h.window tail ht).of_eq rfl rfl

theorem reserved (h : cursors.Ordered capacity) (hw : cursors.written = 0)
    (hr : ∀ reader ∈ cursors.readers, reader.itemsRead = 0) :
    cursors.reserved.Ordered capacity where
  writeIndex_lt := h.maxLookBack_lt
  placed r hm := by
    obtain ⟨old, hold, rfl⟩ := List.mem_map.mp hm
    have hl := h.lookBack_le old hold
    have h0 := hr old hold
    refine ⟨(h.placed old hold).read_le, .inl ?_⟩
    simp only [lag, Cursors.reserved]
    omega
  lookBack_le r hm := by
    obtain ⟨old, hold, rfl⟩ := List.mem_map.mp hm
    exact h.lookBack_le old hold
  maxLookBack_lt := h.maxLookBack_lt
  ids_nodup := by
    simp only [Cursors.reserved, List.map_map]
    exact h.ids_nodup
  id_lt r hm := by
    obtain ⟨old, hold, rfl⟩ := List.mem_map.mp hm
    exact h.id_lt old hold
  window tail ht := by
    rw [show cursors.reserved.tail = cursors.tail from rfl, h.tail_eq_none hw] at ht
    cases ht

theorem numbered (h : cursors.Ordered capacity) :
    Ordered { cursors with nextReader := cursors.nextReader + 1 } capacity :=
  ⟨h.writeIndex_lt, fun r hr => ⟨(h.placed r hr).read_le, (h.placed r hr).along⟩, h.lookBack_le,
    h.maxLookBack_lt,
    h.ids_nodup, fun r hr => Nat.lt_succ_of_lt (h.id_lt r hr),
    fun tail ht => (h.window tail ht).of_eq rfl rfl⟩

/-- One more reader, with an identity that no other has. -/
theorem append (h : cursors.Ordered capacity) {reader : Reader}
    (hid : reader.id < cursors.nextReader) (hnew : ∀ old ∈ cursors.readers, old.id < reader.id)
    (hl : reader.lookBack ≤ cursors.maxLookBack) (hp : cursors.Placed capacity reader) :
    Ordered { cursors with readers := cursors.readers ++ [reader] } capacity := by
  have hmem : ∀ {motive : Reader → Prop}, (∀ old ∈ cursors.readers, motive old) → motive reader →
      ∀ other ∈ cursors.readers ++ [reader], motive other := by
    intro motive hold hone other hm
    rcases List.mem_append.mp hm with hm | hm
    · exact hold other hm
    · rw [List.mem_singleton.mp hm]
      exact hone
  refine ⟨h.writeIndex_lt,
    hmem (fun r hr => ⟨(h.placed r hr).read_le, (h.placed r hr).along⟩) ⟨hp.read_le, hp.along⟩,
    hmem h.lookBack_le hl, h.maxLookBack_lt, ?_, hmem h.id_lt hid,
    fun tail ht => (h.window tail ht).of_eq rfl rfl⟩
  refine List.map_append ▸ List.nodup_append.mpr ⟨h.ids_nodup, by simp, ?_⟩
  intro a ha b hb
  obtain ⟨old, hm, rfl⟩ := List.mem_map.mp ha
  rw [List.mem_singleton.mp hb]
  exact Nat.ne_of_lt (hnew old hm)

end Ordered

namespace Coherent

theorem raised (h : cursors.Coherent capacity) (hl : lookBack < capacity)
    (hu : cursors.Undisturbed lookBack) (delay : Nat) :
    (cursors.raised lookBack delay).Coherent capacity := by
  have hm := h.withMaxima hl delay
  unfold Cursors.raised
  split
  · obtain ⟨hg, hw⟩ := ‹_ ∧ _›
    exact ⟨hm.reserved hw (hu hg hw), fun ht => absurd (h.tail_eq_none hw) ht⟩
  · exact ⟨hm, h.lagging⟩

end Coherent

/-! ## A new reader -/

theorem Housed.writeIndex_raised_lt (h : cursors.Housed capacity) (hl : lookBack < capacity)
    (delay : Nat) :
    (cursors.raised lookBack delay).writeIndex < capacity := by
  unfold raised
  split
  · exact Nat.max_lt.mpr ⟨h.maxLookBack_lt, hl⟩
  · exact h.writeIndex_lt

theorem attach_eq (h : cursors.Housed capacity) (hm : geometry.mapping = .single)
    (hcap : geometry.capacity = capacity) {history : Nat} (hh : history ≤ capacity)
    (hid : cursors.nextReader + 1 < Word.limit) (delay : Nat) :
    ∃ events, cursors.attach geometry history delay =
      .ok (cursors.nextReader, cursors.joined capacity (history - 1) delay, events) := by
  have hpos := Nat.zero_lt_of_lt h.writeIndex_lt
  have hl : history - 1 < capacity := by omega
  obtain ⟨events, hraise⟩ : ∃ events,
      Cursors.raise { cursors with nextReader := cursors.nextReader + 1 } geometry
        (history - 1) delay = .ok (Cursors.raised
          { cursors with nextReader := cursors.nextReader + 1 } (history - 1) delay, events) :=
    raise_eq hm (by exact h.lookBack_le) _ _
  have hw := h.writeIndex_raised_lt hl delay
  have he : Cursors.raised { cursors with nextReader := cursors.nextReader + 1 }
      (history - 1) delay =
      { cursors.raised (history - 1) delay with nextReader := cursors.nextReader + 1 } := by
    unfold Cursors.raised
    split <;> rfl
  rw [he] at hraise
  have hd : Ring.distance capacity (cursors.raised (history - 1) delay).writeIndex (history - 1) =
      .ok ((cursors.raised (history - 1) delay).behind capacity (history - 1)) :=
    Ring.distance_eq_ok hw hl
  subst hcap
  simp only [attach, checkHistory, if_neg (show ¬ geometry.capacity < history by omega), bind,
    Except.bind, pure, Except.pure, liftM_ok, Word.add_eq_ok hid, hraise, hd]
  exact ⟨_, rfl⟩

theorem Coherent.placed_newcomer (h : cursors.Coherent capacity) (hl : lookBack < capacity)
    (ha : cursors.Admits lookBack) (delay : Nat) :
    (cursors.joined capacity lookBack delay).Placed capacity
      (cursors.newcomer capacity lookBack delay) := by
  have hw := (h.raised hl ha.1 delay).writeIndex_lt
  refine ⟨Nat.le_add_right .., ?_⟩
  have hlag : (cursors.joined capacity lookBack delay).lag
      (cursors.newcomer capacity lookBack delay) = lookBack := by
    simp only [lag, joined, newcomer]
    omega
  rw [hlag]
  change (cursors.raised lookBack delay).behind capacity lookBack + lookBack =
      (cursors.raised lookBack delay).writeIndex ∨
    (cursors.raised lookBack delay).writeIndex ≤
      (cursors.raised lookBack delay).behind capacity lookBack ∧
      (cursors.raised lookBack delay).behind capacity lookBack <
        (cursors.raised lookBack delay).span capacity ∧
      (cursors.raised lookBack delay).behind capacity lookBack + lookBack =
        (cursors.raised lookBack delay).writeIndex + (cursors.raised lookBack delay).span capacity
  unfold behind
  split
  · omega
  · rename_i hn
    have ht : cursors.tail = none := by
      by_cases ht : cursors.tail = none
      · exact ht
      -- with a tail window something is written, so the writer was not put back
      · have hraised : cursors.raised lookBack delay = cursors.withMaxima lookBack delay :=
          if_neg fun hg => ht (h.tail_eq_none hg.2)
        exact absurd (ha.2 ht) (by rw [hraised] at hn; exact hn)
    have hs : (cursors.raised lookBack delay).span capacity = capacity :=
      span_of_no_tail (tail_raised.trans ht)
    omega

theorem Coherent.joined (h : cursors.Coherent capacity) (hl : lookBack < capacity)
    (ha : cursors.Admits lookBack) (delay : Nat) :
    (cursors.joined capacity lookBack delay).Coherent capacity := by
  have hr := h.raised hl ha.1 delay
  have hid : ∀ r ∈ (cursors.raised lookBack delay).readers, r.id < cursors.nextReader := fun r hm =>
    Nat.lt_of_lt_of_eq (hr.id_lt r hm) nextReader_raised
  have hplaced := h.placed_newcomer hl ha delay
  have hnew : Placed { cursors.raised lookBack delay with
      nextReader := (cursors.raised lookBack delay).nextReader + 1 } capacity
        (cursors.newcomer capacity lookBack delay) :=
    ⟨hplaced.read_le, hplaced.along⟩
  have hordered : (cursors.joined capacity lookBack delay).Ordered capacity := by
    have hjoined := hr.toOrdered.numbered.append
      (Nat.lt_succ_of_le (Nat.le_of_eq nextReader_raised.symm)) hid
      (Nat.le_trans (Nat.le_max_right ..) (Nat.le_of_eq maxLookBack_raised.symm)) hnew
    rw [nextReader_raised] at hjoined
    exact hjoined
  refine ⟨hordered, fun ht => ?_⟩
  obtain ⟨r, hm, hw⟩ := hr.lagging ht
  exact ⟨r, List.mem_append_left _ hm, hw⟩

end StreamBuffer.Cursors
