import StreamBuffer.Proofs.Cursors.Inversion
import StreamBuffer.Proofs.Transitions

/-!
# Cursors of storage that is mapped twice

Runs may lead past the end of the region, and nothing is ever relocated. A reader is told from the
positions alone how much it has left; that is right because one position is always kept free, so
that nobody has a whole round left.
-/

namespace StreamBuffer

namespace Cursors

/-- What holds between any two calls: all lags are less than a round. -/
structure Circular (cursors : Cursors) (capacity : Nat) :
    Prop extends Ordered cursors capacity where
  tail_eq : cursors.tail = none
  lag_lt : ∀ reader ∈ cursors.readers, cursors.lag reader < capacity
  delayed : cursors.maxDelay + capacity < Word.limit

end Cursors

/-- The writer keeps one position free, and readers take no more than they have left. -/
def Limits.ring (capacity : Nat) : Limits where
  write cursors items := ∀ reader ∈ cursors.readers, cursors.lag reader + items < capacity
  read cursors reader items := items ≤ cursors.lag reader
  declare _ _ delay := delay + capacity < Word.limit
  madeUp := False

namespace Cursors

variable {cursors others : Cursors} {capacity items lookBack delay : Nat} {reader : Reader}
variable {geometry : Geometry}

theorem Longest.foldl_eq {most : Nat} (h : cursors.Longest most) :
    (cursors.readers.map cursors.lag).foldl max 0 = most := by
  have hge : ∀ {lags : List Nat} {start : Nat}, (∀ lag ∈ lags, lag ≤ most) → start ≤ most →
      (start = most ∨ most ∈ lags) → lags.foldl max start = most := by
    intro lags
    induction lags with
    | nil => exact fun _ _ hat => hat.resolve_right nofun
    | cons first rest ih =>
      intro start hle hstart hat
      have hfirst := hle first (List.mem_cons_self ..)
      refine ih (fun lag hm => hle lag (List.mem_cons_of_mem _ hm))
        (Nat.max_le.mpr ⟨hstart, hfirst⟩) ?_
      rcases hat with rfl | hm
      · exact .inl (Nat.max_eq_left hfirst)
      rcases List.mem_cons.mp hm with rfl | hm
      · exact .inl (Nat.max_eq_right hstart)
      · exact .inr hm
  refine hge (fun lag hm => ?_) (Nat.zero_le _) (.inr (List.mem_map.mpr h.attained))
  obtain ⟨reader, hr, rfl⟩ := List.mem_map.mp hm
  exact h.le reader hr

namespace Circular

/-! ## Supply and room -/

theorem along (h : cursors.Circular capacity) (hr : reader ∈ cursors.readers) :
    reader.readIndex + cursors.lag reader = cursors.writeIndex ∨
      cursors.writeIndex < reader.readIndex ∧ reader.readIndex < capacity ∧
        reader.readIndex + cursors.lag reader = cursors.writeIndex + capacity := by
  have hlag := h.lag_lt reader hr
  have halong := h.along_of_no_tail h.tail_eq hr
  omega

theorem readIndex_eq (h : cursors.Circular capacity) (hr : reader ∈ cursors.readers) :
    reader.readIndex = (cursors.writeIndex + capacity - cursors.lag reader) % capacity := by
  have hwrite := h.writeIndex_lt
  have hlag := h.lag_lt reader hr
  rcases h.along hr with ha | ⟨_, hlt, ha⟩
  · rw [show cursors.writeIndex + capacity - cursors.lag reader =
      reader.readIndex + capacity by omega, Nat.add_mod_right, Nat.mod_eq_of_lt (by omega)]
  · rw [show cursors.writeIndex + capacity - cursors.lag reader = reader.readIndex by omega,
      Nat.mod_eq_of_lt hlt]

theorem distance_eq (h : cursors.Circular capacity) (hr : reader ∈ cursors.readers) :
    Ring.distance capacity cursors.writeIndex reader.readIndex = .ok (cursors.lag reader) := by
  have hwrite := h.writeIndex_lt
  have hlag := h.lag_lt reader hr
  have halong := h.along hr
  rw [Ring.distance_eq_ok hwrite (by omega)]
  refine congrArg Except.ok ?_
  split <;> omega

theorem ringRoom_eq (h : cursors.Circular capacity) {most : Nat} (hm : cursors.Longest most) :
    ∃ room, cursors.ringRoom capacity = .ok room ∧ room + 1 + most = capacity := by
  obtain ⟨first, hfirst, hlag⟩ := hm.attained
  have hlt := h.lag_lt first hfirst
  have hdistances : cursors.readers.mapM
      (fun reader => Ring.distance capacity cursors.writeIndex reader.readIndex) =
      .ok (cursors.readers.map cursors.lag) := mapM_eq_ok fun reader hr => h.distance_eq hr
  refine ⟨capacity - most - 1, ?_, by omega⟩
  unfold ringRoom
  rw [hdistances]
  change (Word.sub capacity ((cursors.readers.map cursors.lag).foldl max 0) >>=
    fun left => Word.sub left 1) = _
  rw [hm.foldl_eq, Word.sub_eq_ok (show most ≤ capacity by omega)]
  exact Word.sub_eq_ok (show 1 ≤ capacity - most by omega)

/-! ## Movements -/

theorem wrote (h : cursors.Circular capacity)
    (hroom : ∀ reader ∈ cursors.readers, cursors.lag reader + items < capacity) :
    (cursors.wrote capacity items).Circular capacity := by
  have hwrite := h.writeIndex_lt
  have hspan : (cursors.wrote capacity items).span capacity = capacity := span_of_no_tail h.tail_eq
  have hlag : ∀ reader ∈ cursors.readers, (cursors.wrote capacity items).lag reader =
      cursors.lag reader + items :=
    fun reader hr => Coherent.lag_wrote (h.placed reader hr).read_le
  refine ⟨⟨Nat.mod_lt _ (Nat.zero_lt_of_lt hwrite), fun reader hr => ⟨?_, ?_⟩, h.lookBack_le,
    h.maxLookBack_lt,
    h.ids_nodup, h.id_lt, fun tail ht => absurd (h.tail_eq.symm.trans ht) nofun⟩, h.tail_eq,
    fun reader hr => ?_, h.delayed⟩
  · exact Nat.le_trans (h.placed reader hr).read_le (Nat.add_le_add_right (Nat.le_add_right ..) _)
  · have hfits := hroom reader hr
    have halong := h.along hr
    have hmod : (cursors.wrote capacity items).writeIndex = cursors.writeIndex + items ∧
        cursors.writeIndex + items < capacity ∨
        (cursors.wrote capacity items).writeIndex + capacity = cursors.writeIndex + items := by
      rcases Nat.lt_or_ge (cursors.writeIndex + items) capacity with hl | hl
      · exact .inl ⟨Nat.mod_eq_of_lt hl, hl⟩
      · right
        change (cursors.writeIndex + items) % capacity + capacity = _
        rw [Nat.mod_eq_sub_mod hl, Nat.mod_eq_of_lt (by omega)]
        omega
    rw [hlag reader hr, hspan]
    omega
  · rw [hlag reader hr]
    exact hroom reader hr

theorem replace (h : cursors.Circular capacity) {other : Reader} (hr : reader ∈ cursors.readers)
    (hid : other.id = reader.id) (hl : other.lookBack = reader.lookBack)
    (hi : reader.itemsRead ≤ other.itemsRead) (hp : cursors.Placed capacity other) :
    (cursors.replace other).Circular capacity := by
  refine ⟨h.toOrdered.replace hr hid hl hp, h.tail_eq, fun landed hm => ?_, h.delayed⟩
  rcases (mem_replace hr _ hid).mp hm with rfl | ⟨hold, _⟩
  · have := h.lag_lt reader hr
    unfold lag at this ⊢
    simp only [Cursors.replace]
    omega
  · exact h.lag_lt landed hold

theorem consumed (h : cursors.Circular capacity) (hr : reader ∈ cursors.readers)
    (hi : items ≤ cursors.lag reader) :
    (cursors.replace { reader with
      readIndex := (reader.readIndex + items) % capacity
      itemsRead := reader.itemsRead + items }).Circular capacity := by
  have hwrite := h.writeIndex_lt
  have halong := h.along hr
  have hread := (h.placed reader hr).read_le
  have hspan : cursors.span capacity = capacity := span_of_no_tail h.tail_eq
  have hlag : ∀ readIndex,
      cursors.lag { reader with readIndex, itemsRead := reader.itemsRead + items } =
      cursors.lag reader - items := by
    intro readIndex
    simp only [lag]
    omega
  have hplaced : cursors.Placed capacity { reader with
      readIndex := (reader.readIndex + items) % capacity
      itemsRead := reader.itemsRead + items } := by
    refine ⟨by unfold lag at hi; simp only; omega, ?_⟩
    rw [hlag, hspan]
    simp only
    rcases Nat.lt_or_ge (reader.readIndex + items) capacity with hl | hl
    · rw [Nat.mod_eq_of_lt hl]
      omega
    · rw [Nat.mod_eq_sub_mod hl, Nat.mod_eq_of_lt (by omega)]
      omega
  exact h.replace hr rfl rfl (Nat.le_add_right ..) hplaced

theorem withMaxima (h : cursors.Circular capacity) (hl : lookBack < capacity)
    (hd : delay + capacity < Word.limit) :
    (cursors.withMaxima lookBack delay).Circular capacity := by
  have := h.delayed
  exact ⟨h.toOrdered.withMaxima hl delay, h.tail_eq,
    h.lag_lt, by simp only [Cursors.withMaxima]; omega⟩

theorem raise (h : cursors.Circular geometry.capacity) (hring : geometry.mapping = .double)
    (hl : lookBack < geometry.capacity) (hd : delay + geometry.capacity < Word.limit)
    {events : List Event} (he : cursors.raise geometry lookBack delay = .ok (others, events)) :
    others.Circular geometry.capacity := by
  rcases raise_eq_ok he with rfl | ⟨hflat, _⟩
  · exact h.withMaxima hl hd
  · exact absurd (hring.symm.trans hflat) nofun

theorem refresh (h : cursors.Circular capacity) (he : cursors.refreshTail = .ok others) :
    others.Circular capacity := by
  have hsame : { cursors with tail := none } = cursors := by rw [← h.tail_eq]
  rcases refreshTail_eq_ok he with rfl | rfl
  · exact h
  · rw [hsame]
    exact h

theorem without (h : cursors.Circular capacity) (id : Nat) :
    (cursors.without id).Circular capacity :=
  ⟨h.toOrdered.without id, h.tail_eq,
    fun reader hr => h.lag_lt reader (List.eraseP_sublist.subset hr), h.delayed⟩

/-- A reader comes with its look-back left. -/
theorem join (h : cursors.Circular capacity) (hl : lookBack < capacity)
    (hd : delay + capacity < Word.limit) {place : Nat}
    (hplace : Ring.distance capacity cursors.writeIndex lookBack = .ok place) :
    Circular { cursors.withMaxima lookBack delay with
      nextReader := cursors.nextReader + 1
      readers := cursors.readers ++ [{
        id := cursors.nextReader
        readIndex := place
        itemsRead := cursors.written
        lookBack
        sampleDelay := delay }] } capacity := by
  have hmaxima := h.withMaxima hl hd
  have hwrite := h.writeIndex_lt
  have hspan : cursors.span capacity = capacity := span_of_no_tail h.tail_eq
  have hlag : ∀ {id place}, cursors.lag ⟨id, place, cursors.written, lookBack, delay⟩ =
      lookBack := by
    intro id place
    simp only [lag]
    omega
  -- the place was reckoned modulo the capacity; it is one side of the wrap or the other
  have hplaced : cursors.Placed capacity
      ⟨cursors.nextReader, place, cursors.written, lookBack, delay⟩ := by
    refine ⟨Nat.le_add_right .., ?_⟩
    rw [Ring.distance_eq_ok hwrite hl] at hplace
    cases hplace
    rw [hlag, hspan]
    simp only
    split <;> omega
  refine ⟨hmaxima.toOrdered.numbered.append (Nat.lt_succ_self _) h.id_lt (Nat.le_max_right ..)
    ⟨hplaced.read_le, hplaced.along⟩, h.tail_eq, fun reader hm => ?_, hmaxima.delayed⟩
  rcases List.mem_append.mp hm with hm | hm
  · exact h.lag_lt reader hm
  · rw [List.mem_singleton.mp hm]
    exact Nat.lt_of_le_of_lt (Nat.le_of_eq hlag) hl

end Circular

theorem Movement.circular (hm : cursors.Movement (.ring geometry.capacity) geometry others)
    (hring : geometry.mapping = .double) (h : cursors.Circular geometry.capacity) :
    others.Circular geometry.capacity := by
  have hpos := Nat.zero_lt_of_lt h.writeIndex_lt
  cases hm with
  | write hroom he =>
    rw [advanceWriter_eq_ok he]
    exact h.wrote hroom
  | read hr hi he =>
    obtain ⟨readIndex, hnext, rfl⟩ := advanceReader_eq_ok he
    rw [nextIndex_eq_ok h.tail_eq hnext]
    exact h.consumed hr hi
  | refresh he => exact h.refresh he
  | attach hd he =>
    obtain ⟨hh, raised, _, readIndex, hraise, hplace, rfl⟩ := attach_eq_ok he
    rcases raise_eq_ok hraise with rfl | ⟨hflat, _⟩
    · exact h.join (by omega) hd hplace
    · exact absurd (hring.symm.trans hflat) nofun
  | raise hh hd he => exact h.raise hring (by omega) hd he
  | @detach id _ he => exact (h.without id).refresh (detach_eq_ok he)
  | @declare reader delay _ hr hd he =>
    have hdeclared : (cursors.replace { reader with sampleDelay := delay }).Circular
        geometry.capacity :=
      h.replace hr rfl rfl (Nat.le_refl _)
        ⟨(h.placed reader hr).read_le, (h.placed reader hr).along⟩
    exact hdeclared.raise hring hpos hd he

end Cursors

end StreamBuffer
