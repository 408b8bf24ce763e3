import StreamBuffer.Cursors.Room
import StreamBuffer.Proofs.Checked

/-!
# Coherent cursors

The positions of flat storage lie on a ring. It is the whole region, or ends where a tail window
begins, because what the window holds is also in front. Every reader stands as many places behind
the writer, along this ring, as it has items left; `Coherent` says so of all readers at once.
-/

namespace StreamBuffer.Cursors

/-- The items a reader has yet to consume, look-back included. -/
def lag (cursors : Cursors) (reader : Reader) : Nat :=
  cursors.written + reader.lookBack - reader.itemsRead

def span (cursors : Cursors) (capacity : Nat) : Nat :=
  match cursors.tail with
  | some tail => tail.start
  | none => capacity

/-- The reader has to come round before it can catch up with the writer. -/
def Wrapped (cursors : Cursors) (reader : Reader) : Prop :=
  cursors.writeIndex < reader.readIndex ∨
    reader.readIndex = cursors.writeIndex ∧ 0 < cursors.lag reader

instance (cursors : Cursors) : DecidablePred cursors.Wrapped := fun _ => instDecidableOr

/-- The reader is its lag behind the writer, in front of it or once round. -/
structure Placed (cursors : Cursors) (capacity : Nat) (reader : Reader) : Prop where
  read_le : reader.itemsRead ≤ cursors.written + reader.lookBack
  along : reader.readIndex + cursors.lag reader = cursors.writeIndex ∨
    cursors.writeIndex ≤ reader.readIndex ∧ reader.readIndex < cursors.span capacity ∧
      reader.readIndex + cursors.lag reader = cursors.writeIndex + cursors.span capacity

/-- A tail window: its items are in front too, behind the writer, and no writer has come to it. -/
structure Window (cursors : Cursors) (capacity : Nat) (tail : Tail) : Prop where
  start_lt : tail.start < tail.stop
  stop_le : tail.stop ≤ capacity
  copied : tail.stop ≤ cursors.writeIndex + tail.start
  writeIndex_lt : cursors.writeIndex < tail.start
  written_pos : 0 < cursors.written

/-- The positions are right; a tail window may be left that no reader needs. -/
structure Ordered (cursors : Cursors) (capacity : Nat) : Prop where
  writeIndex_lt : cursors.writeIndex < capacity
  placed : ∀ reader ∈ cursors.readers, cursors.Placed capacity reader
  lookBack_le : ∀ reader ∈ cursors.readers, reader.lookBack ≤ cursors.maxLookBack
  maxLookBack_lt : cursors.maxLookBack < capacity
  ids_nodup : (cursors.readers.map (·.id)).Nodup
  id_lt : ∀ reader ∈ cursors.readers, reader.id < cursors.nextReader
  window : ∀ tail, cursors.tail = some tail → cursors.Window capacity tail

structure Coherent (cursors : Cursors) (capacity : Nat) :
    Prop extends Ordered cursors capacity where
  lagging : cursors.tail ≠ none → ∃ reader ∈ cursors.readers, cursors.Wrapped reader

/-- The counters of all readers fit a word, even when all is consumed. -/
def Counted (cursors : Cursors) : Prop := cursors.written + cursors.maxLookBack < Word.limit

def Countable (cursors : Cursors) : Prop :=
  ∀ reader ∈ cursors.readers, cursors.written + reader.lookBack < Word.limit

instance : DecidablePred Countable := fun cursors =>
  inferInstanceAs
    (Decidable (∀ reader ∈ cursors.readers, cursors.written + reader.lookBack < Word.limit))

structure Longest (cursors : Cursors) (most : Nat) : Prop where
  attained : ∃ reader ∈ cursors.readers, cursors.lag reader = most
  le : ∀ reader ∈ cursors.readers, cursors.lag reader ≤ most

/-- The items a coherent reader finds in one run. -/
def available (cursors : Cursors) (capacity : Nat) (reader : Reader) : Nat :=
  if cursors.Wrapped reader then cursors.wrapEnd capacity - reader.readIndex
  else cursors.writeIndex - reader.readIndex

variable {cursors : Cursors} {capacity : Nat} {reader : Reader}

/-- A window is a matter of the writer alone. -/
theorem Window.of_eq {others : Cursors} {tail : Tail} (h : cursors.Window capacity tail)
    (hi : others.writeIndex = cursors.writeIndex) (hw : others.written = cursors.written) :
    others.Window capacity tail := by
  obtain ⟨hstart, hstop, hcopied, hwrite, hpos⟩ := h
  rw [← hi] at hcopied hwrite
  rw [← hw] at hpos
  exact ⟨hstart, hstop, hcopied, hwrite, hpos⟩

theorem Counted.countable (hc : cursors.Counted) (h : cursors.Ordered capacity) :
    cursors.Countable := by
  intro reader hr
  have := h.lookBack_le reader hr
  unfold Counted at hc
  omega

theorem Counted.lookBack (hc : cursors.Counted) (h : cursors.Ordered capacity)
    (hr : reader ∈ cursors.readers) : cursors.written + reader.lookBack < Word.limit :=
  hc.countable h reader hr

theorem unread_eq (hc : cursors.written + reader.lookBack < Word.limit) :
    cursors.unread reader = .ok (cursors.lag reader) := unread_eq_ok hc

theorem isWrapped_eq (hc : cursors.written + reader.lookBack < Word.limit) :
    cursors.isWrapped reader = .ok (decide (cursors.Wrapped reader)) := by
  rw [isWrapped_eq_ok hc]
  refine congrArg Except.ok (decide_eq_decide.mpr ?_)
  unfold Wrapped lag
  omega

theorem Countable.anyWrapped_eq (hc : cursors.Countable) :
    cursors.anyWrapped = .ok (cursors.readers.any fun reader => decide (cursors.Wrapped reader)) :=
  anyM_eq_ok fun reader hr => isWrapped_eq (hc reader hr)

/-- A reader with something left has its run to the end or to the writer. -/
theorem flatSupply_of_lag (hc : cursors.written + reader.lookBack < Word.limit)
    (hl : 0 < cursors.lag reader) :
    cursors.flatSupply capacity reader =
      if cursors.Wrapped reader then Word.sub (cursors.wrapEnd capacity) reader.readIndex
      else Word.sub cursors.writeIndex reader.readIndex := by
  unfold flatSupply
  rw [unread_eq hc, isWrapped_eq hc]
  simp only [bind, Except.bind, decide_eq_true_eq, if_neg (Nat.ne_of_gt hl)]

theorem mem_of_reader? {id : Nat} (h : cursors.reader? id = some reader) :
    reader ∈ cursors.readers ∧ reader.id = id :=
  ⟨List.mem_of_find?_eq_some h, by simpa using List.find?_some h⟩

theorem eq_of_id_eq {readers : List Reader} {a b : Reader} (h : (readers.map (·.id)).Nodup)
    (ha : a ∈ readers) (hb : b ∈ readers) (hid : a.id = b.id) : a = b := by
  induction readers with
  | nil => cases ha
  | cons first rest ih =>
    obtain ⟨hfirst, hrest⟩ := List.nodup_cons.mp h
    rcases List.mem_cons.mp ha with rfl | hma <;> rcases List.mem_cons.mp hb with rfl | hmb
    · rfl
    · exact absurd (List.mem_map.mpr ⟨b, hmb, hid.symm⟩) hfirst
    · exact absurd (List.mem_map.mpr ⟨a, hma, hid⟩) hfirst
    · exact ih hrest hma hmb

theorem exists_longest (hr : cursors.readers ≠ []) : ∃ most, cursors.Longest most := by
  obtain ⟨most, hmost⟩ : ∃ most, (cursors.readers.map cursors.lag).max? = some most := by
    cases hm : (cursors.readers.map cursors.lag).max? with
    | none => exact absurd (List.max?_eq_none_iff.mp hm) (by simpa using hr)
    | some most => exact ⟨most, rfl⟩
  obtain ⟨hmem, hle⟩ := List.max?_eq_some_iff.mp hmost
  exact ⟨most, List.mem_map.mp hmem, fun reader hm => hle _ (List.mem_map_of_mem hm)⟩

/-! ## The ring -/

theorem span_of_no_tail (ht : cursors.tail = none) : cursors.span capacity = capacity := by
  unfold span
  rw [ht]

namespace Ordered

theorem ring (h : cursors.Ordered capacity) :
    cursors.writeIndex < cursors.span capacity ∧
      cursors.span capacity ≤ cursors.wrapEnd capacity ∧
      cursors.wrapEnd capacity ≤ cursors.writeIndex + cursors.span capacity ∧
      cursors.wrapEnd capacity ≤ capacity := by
  unfold span wrapEnd
  have hw := h.writeIndex_lt
  cases ht : cursors.tail with
  | none => simp only; omega
  | some tail =>
    obtain ⟨h1, h2, h3, h4, _⟩ := h.window tail ht
    simp only
    omega

theorem wrapped_iff (h : cursors.Ordered capacity) (hr : reader ∈ cursors.readers) :
    cursors.Wrapped reader ↔ cursors.writeIndex ≤ reader.readIndex ∧
      reader.readIndex < cursors.span capacity ∧
      reader.readIndex + cursors.lag reader = cursors.writeIndex + cursors.span capacity := by
  have hw := h.ring.1
  unfold Wrapped
  rcases (h.placed reader hr).along with ha | ha <;> omega

theorem not_wrapped_iff (h : cursors.Ordered capacity) (hr : reader ∈ cursors.readers) :
    ¬ cursors.Wrapped reader ↔ reader.readIndex + cursors.lag reader = cursors.writeIndex := by
  have hw := h.ring.1
  have hp := (h.placed reader hr).along
  rw [h.wrapped_iff hr]
  omega

theorem readIndex_lt (h : cursors.Ordered capacity) (hr : reader ∈ cursors.readers) :
    reader.readIndex < cursors.span capacity := by
  have hw := h.ring.1
  rcases (h.placed reader hr).along with ha | ha <;> omega

/-! ## Supply -/

/-- The run of a wrapped reader leads to the end, that of any other reader to the writer. -/
theorem available_spec (h : cursors.Ordered capacity) (hr : reader ∈ cursors.readers) :
    cursors.available capacity reader ≤ cursors.lag reader ∧
      (cursors.available capacity reader = 0 → cursors.lag reader = 0) ∧
      reader.readIndex + cursors.available capacity reader ≤ cursors.wrapEnd capacity := by
  obtain ⟨h1, h2, h3, _⟩ := h.ring
  unfold available
  split
  · have := (h.wrapped_iff hr).mp ‹_›
    omega
  · have := (h.not_wrapped_iff hr).mp ‹_›
    omega

theorem flatSupply_eq (h : cursors.Ordered capacity) (hc : cursors.Counted)
    (hr : reader ∈ cursors.readers) :
    cursors.flatSupply capacity reader = .ok (cursors.available capacity reader) := by
  obtain ⟨h1, h2, _, _⟩ := h.ring
  have hlb := hc.lookBack h hr
  unfold available
  by_cases hl : cursors.lag reader = 0
  · have hw : ¬ cursors.Wrapped reader := by rw [h.wrapped_iff hr]; omega
    have := (h.not_wrapped_iff hr).mp hw
    unfold flatSupply
    rw [unread_eq hlb, if_neg hw]
    simp only [bind, Except.bind, if_pos hl]
    exact congrArg Except.ok (by omega)
  · rw [flatSupply_of_lag hlb (Nat.pos_of_ne_zero hl)]
    by_cases hw : cursors.Wrapped reader
    · have := (h.wrapped_iff hr).mp hw
      rw [if_pos hw, if_pos hw]
      exact Word.sub_eq_ok (by omega)
    · have := (h.not_wrapped_iff hr).mp hw
      rw [if_neg hw, if_neg hw]
      exact Word.sub_eq_ok (by omega)

end Ordered

/-! ## Room -/

/-- The room reaches to `room` or to a wrapped reader, and never past one. -/
structure Reach (cursors : Cursors) (limit : Nat) (readers : List Reader) (room : Nat) : Prop where
  le : room ≤ limit
  before : ∀ reader ∈ readers, cursors.Wrapped reader → cursors.writeIndex + room ≤ reader.readIndex
  tight : room = limit ∨ ∃ reader ∈ readers, cursors.Wrapped reader ∧
    cursors.writeIndex + room = reader.readIndex

namespace Reach

variable {limit room : Nat} {first : Reader} {rest : List Reader}

/-- A reader ahead cuts the room off. -/
theorem cons_ahead (hb : cursors.writeIndex < first.readIndex)
    (h : Reach cursors (min limit (first.readIndex - cursors.writeIndex)) rest room) :
    Reach cursors limit (first :: rest) room := by
  obtain ⟨hle, hbefore, htight⟩ := h
  refine ⟨by omega, ?_, ?_⟩
  · intro reader hr hw
    rcases List.mem_cons.mp hr with rfl | hr
    · omega
    · exact hbefore reader hr hw
  · rcases htight with htight | ⟨reader, hr, hw, he⟩
    · by_cases hl : limit ≤ first.readIndex - cursors.writeIndex
      · exact .inl (by omega)
      · exact .inr ⟨first, List.mem_cons_self .., .inl hb, by omega⟩
    · exact .inr ⟨reader, List.mem_cons_of_mem _ hr, hw, he⟩

theorem cons_of_not_wrapped (hn : ¬ cursors.Wrapped first) (h : Reach cursors limit rest room) :
    Reach cursors limit (first :: rest) room := by
  obtain ⟨hle, hbefore, htight⟩ := h
  refine ⟨hle, ?_, htight.imp_right fun ⟨reader, hr, h⟩ => ⟨reader, List.mem_cons_of_mem _ hr, h⟩⟩
  intro reader hr hw
  rcases List.mem_cons.mp hr with rfl | hr
  · exact absurd hw hn
  · exact hbefore reader hr hw

end Reach

theorem roomBefore_eq {readers : List Reader}
    (hc : ∀ reader ∈ readers, cursors.written + reader.lookBack < Word.limit) :
    ∀ limit, ∃ room, cursors.roomBefore limit readers = .ok room ∧
    Reach cursors limit readers room := by
  induction readers with
  | nil => exact fun limit => ⟨limit, rfl, Nat.le_refl _, by simp, .inl rfl⟩
  | cons first rest ih =>
    intro limit
    have ih := ih fun reader hr => hc reader (List.mem_cons_of_mem _ hr)
    unfold roomBefore
    by_cases hb : cursors.writeIndex < first.readIndex
    · obtain ⟨room, hroom, hreach⟩ := ih (min limit (first.readIndex - cursors.writeIndex))
      exact ⟨room, by rw [if_pos hb, hroom], hreach.cons_ahead hb⟩
    rw [if_neg hb]
    obtain ⟨room, hroom, hreach⟩ := ih limit
    by_cases he : first.readIndex = cursors.writeIndex
    · rw [if_pos he, unread_eq (hc first (List.mem_cons_self ..))]
      by_cases hl : 0 < cursors.lag first
      -- the writer has caught up with this reader
      · refine ⟨0, if_pos hl, Nat.zero_le _, ?_,
          .inr ⟨first, List.mem_cons_self .., .inr ⟨he, hl⟩, he.symm⟩⟩
        intro reader _ hw
        unfold Wrapped at hw
        omega
      · refine ⟨room, (if_neg hl).trans hroom, hreach.cons_of_not_wrapped ?_⟩
        unfold Wrapped
        omega
    · rw [if_neg he]
      refine ⟨room, hroom, hreach.cons_of_not_wrapped ?_⟩
      unfold Wrapped
      omega

theorem Countable.flatRoom_eq (hc : cursors.Countable) (hw : cursors.writeIndex < capacity) :
    ∃ room, cursors.flatRoom capacity = .ok room ∧
      Reach cursors (capacity - cursors.writeIndex) cursors.readers room := by
  obtain ⟨room, hroom, hreach⟩ := roomBefore_eq hc (capacity - cursors.writeIndex)
  refine ⟨room, ?_, hreach⟩
  unfold flatRoom
  rw [Word.sub_eq_ok (Nat.le_of_lt hw)]
  exact hroom

/-! ## The whole region -/

namespace Ordered

variable {most : Nat}

theorem along_of_no_tail (h : cursors.Ordered capacity) (ht : cursors.tail = none)
    (hr : reader ∈ cursors.readers) :
    reader.readIndex + cursors.lag reader = cursors.writeIndex ∨
      cursors.writeIndex ≤ reader.readIndex ∧ reader.readIndex < capacity ∧
        reader.readIndex + cursors.lag reader = cursors.writeIndex + capacity := by
  have halong := (h.placed reader hr).along
  rw [span_of_no_tail ht] at halong
  exact halong

/-- Without a tail window the writer and the reader that has most left tell how much room there
is. -/
theorem flatRoom_of_no_tail (h : cursors.Ordered capacity) (hc : cursors.Countable)
    (ht : cursors.tail = none) (hm : cursors.Longest most) :
    cursors.flatRoom capacity = .ok (capacity - max cursors.writeIndex most) := by
  have hlt := h.writeIndex_lt
  have hplace : ∀ reader ∈ cursors.readers, cursors.Wrapped reader →
      reader.readIndex + cursors.lag reader = cursors.writeIndex + capacity := by
    intro reader hr hw
    have := (h.wrapped_iff hr).mp hw
    rw [span_of_no_tail ht] at this
    exact this.2.2
  obtain ⟨room, hroom, hreach⟩ := hc.flatRoom_eq hlt
  have hle := hreach.le
  rw [hroom]
  refine congrArg Except.ok ?_
  have hge : capacity - cursors.writeIndex ≤ room ∨ capacity - most ≤ room := by
    rcases hreach.tight with hlimit | ⟨first, hfirst, hw, he⟩
    · exact .inl (Nat.le_of_eq hlimit.symm)
    · have := hplace first hfirst hw
      have := hm.le first hfirst
      exact .inr (by omega)
  have hahead : cursors.writeIndex < most → room ≤ capacity - most := by
    intro hlag
    obtain ⟨first, hfirst, rfl⟩ := hm.attained
    have hw : cursors.Wrapped first := Decidable.byContradiction fun hn => by
      have := (h.not_wrapped_iff hfirst).mp hn
      omega
    have := hreach.before first hfirst hw
    have := hplace first hfirst hw
    omega
  omega

end Ordered

end StreamBuffer.Cursors
