import StreamBuffer.Proofs.Cursors.Course
import StreamBuffer.Proofs.Motion

/-!
# What lies ahead of a reader

A reader finds certain items at all places where it meets them. Whatever moves, it goes on to find
the same ones; what the writer moves over comes after them. Where a tail window holds items twice,
both places have to agree for that, and they always do.
-/

namespace StreamBuffer

namespace View

/-- At all places where the reader meets an item it finds that of `content`, counted like the items
it reads. -/
def Finds (view : View) (capacity size : Nat) (reader : Reader) (content : Nat → Bytes) : Prop :=
  ∀ k < view.cursors.lag reader, ∀ i, view.cursors.Meets capacity reader k i →
    view.bytes.item size i = content (reader.itemsRead + k)

/-- Where a reader would meet an item at two places, they hold the same. -/
def Legible (view : View) (capacity size : Nat) : Prop :=
  ∀ reader ∈ view.cursors.readers, ∃ content, view.Finds capacity size reader content

end View

/-- All that is left to the reader, in order: its run, and what it meets once it came round. -/
def View.left (view : View) (capacity size : Nat) (reader : Reader) : Bytes :=
  let run := view.cursors.available capacity reader
  view.bytes.slice (reader.readIndex * size) (run * size) ++
    view.bytes.slice ((reader.readIndex + run - view.cursors.span capacity) * size)
      ((view.cursors.lag reader - run) * size)

variable {capacity size items : Nat} {view : View} {reader : Reader} {content : Nat → Bytes}
variable {data : Bytes}

/-! ## Items -/

theorem Plan.item_relocate {plan : Plan} (h : view.cursors.Ordered capacity)
    (ha : plan.Admissible view.cursors capacity) (hb : view.bytes.size = capacity * size) {i : Nat}
    (hi : i < capacity) :
    plan.origin view.cursors.writeIndex i < capacity ∧
      (plan.relocate size view.cursors.writeIndex view.bytes).item size i =
        view.bytes.item size (plan.origin view.cursors.writeIndex i) := by
  have hfit := plan.moves_fit h ha
  cases ha with
  | @history start stop hstart hstop hle _ _ _ =>
    have hmove := ItemMove.item_apply (hfit _ (List.mem_singleton_self _)) hb hi
    simp only [Nat.zero_le, true_and, Nat.zero_add, Nat.sub_zero] at hmove
    refine ⟨?_, hmove.trans ?_⟩
    · simp only [origin]
      split <;> omega
    · exact (apply_ite (view.bytes.item size) ..).symm
  | @input required front moved hmoved hspan hroom _ _ =>
    have hring := h.ring
    have hup := hfit _ (List.mem_cons_self ..)
    have hdown := hfit _ (List.mem_cons_of_mem _ (List.mem_singleton_self _))
    have hmove := ItemMove.item_apply hdown (ItemMove.size_apply hup hb) hi
    have hshift := fun i hi => ItemMove.item_apply hup hb (i := i) hi
    simp only [Nat.zero_le, true_and, Nat.zero_add, Nat.sub_zero] at hmove hshift
    refine ⟨?_, hmove.trans ?_⟩
    · simp only [origin]
      split
      · omega
      · split <;> omega
    · simp only [origin]
      split
      · -- what comes to the front lay past the run that was moved up
        rw [hshift _ (by omega), if_neg (by omega)]
      · rw [hshift i hi]
        split
        · rw [if_pos (by omega)]
        · rw [if_neg (by omega)]
  | @output multiple front kept force hpos hkept _ _ =>
    have hmove := ItemMove.item_apply (hfit _ (List.mem_singleton_self _)) hb hi
    have hlt := h.writeIndex_lt
    simp only [Nat.zero_le, true_and, Nat.zero_add, Nat.sub_zero] at hmove
    refine ⟨?_, hmove.trans ?_⟩
    · simp only [origin]
      split <;> omega
    · exact (apply_ite (view.bytes.item size) ..).symm

/-! ## One reader -/

namespace View.Finds

theorem consumed (hf : view.Finds capacity size reader content) (h : view.cursors.Ordered capacity)
    (hr : reader ∈ view.cursors.readers) (hi : items ≤ view.cursors.available capacity reader) :
    view.Finds capacity size (view.cursors.consumed capacity reader items) content := by
  intro k hk i hm
  have hlag : view.cursors.lag (view.cursors.consumed capacity reader items) =
      view.cursors.lag reader - items := by
    simp only [Cursors.lag, Cursors.consumed]
    omega
  have hleft : items + k < view.cursors.lag reader := by omega
  rw [hf _ hleft i (h.meets_of_consumed hr hi hleft hm), ← Nat.add_assoc]
  rfl

theorem refreshed (hf : view.Finds capacity size reader content) (h : view.cursors.Ordered capacity)
    (hr : reader ∈ view.cursors.readers) :
    View.Finds ⟨view.cursors.refreshed, view.bytes⟩ capacity size reader content := by
  intro k hk i hm
  rw [Cursors.lag_refreshed] at hk
  exact hf k hk i (h.meets_of_refreshed hr hk hm)

theorem settled {plan : Plan} (hf : view.Finds capacity size reader content)
    (h : view.cursors.Coherent capacity) (hb : view.bytes.size = capacity * size)
    (ha : plan.Admissible view.cursors capacity) (hr : reader ∈ view.cursors.readers) :
    View.Finds ⟨plan.settled view.cursors, plan.relocate size view.cursors.writeIndex view.bytes⟩
      capacity size
      { reader with readIndex := plan.landing view.cursors reader } content := by
  intro k hk i hm
  change k < view.cursors.lag reader at hk
  have hlt : i < capacity :=
    (plan.coherent_settled h ha).meets_lt (List.mem_map.mpr ⟨reader, hr, rfl⟩) hk hm
  rw [(plan.item_relocate h.toOrdered ha hb hlt).2]
  exact hf k hk _ (plan.meets_origin h ha hr hk hm)

/-- What is stored in the room is not met yet. -/
theorem stored (hf : view.Finds capacity size reader content) (h : view.cursors.Coherent capacity)
    (hb : view.bytes.size = capacity * size) (hroom : view.cursors.Room capacity items)
    (hdata : data.size ≤ items * size) (hr : reader ∈ view.cursors.readers) :
    View.Finds ⟨view.cursors, view.bytes.splice (view.cursors.writeIndex * size) data⟩ capacity size
      reader content := by
  intro k hk i hm
  obtain ⟨hlt, hmet⟩ := h.meets_of_wrote hroom hr (Nat.lt_add_right items hk) hm
  rw [if_pos hk] at hmet
  exact (Bytes.item_splice_of_not hb hdata hroom.end_le hlt hmet.2).trans (hf k hk i hm)

/-- The reader goes on with what the writer has moved over. -/
theorem wrote (hf : view.Finds capacity size reader content) (h : view.cursors.Coherent capacity)
    (hroom : view.cursors.Room capacity items) (hr : reader ∈ view.cursors.readers) :
    View.Finds ⟨view.cursors.wrote capacity items, view.bytes⟩ capacity size reader fun j =>
      if j < view.cursors.written + reader.lookBack then content j
      else view.bytes.item size
        (view.cursors.writeIndex + (j - (view.cursors.written + reader.lookBack))) := by
  intro k hk i hm
  have hread := (h.placed reader hr).read_le
  have hlag : view.cursors.lag reader = view.cursors.written + reader.lookBack - reader.itemsRead :=
    rfl
  rw [Cursors.Coherent.lag_wrote hread] at hk
  obtain ⟨_, hmet⟩ := h.meets_of_wrote hroom hr hk hm
  split at hmet
  · exact (hf k ‹_› i hmet.1).trans (if_pos (by omega)).symm
  · refine Eq.trans ?_ (if_neg (by omega)).symm
    exact congrArg (view.bytes.item size) (by omega)

/-- What is left are the items that the reader finds. -/
theorem left (hf : view.Finds capacity size reader content) (h : view.cursors.Ordered capacity)
    (hb : view.bytes.size = capacity * size) (hr : reader ∈ view.cursors.readers) :
    (view.left capacity size reader).size = view.cursors.lag reader * size ∧
      ∀ k < view.cursors.lag reader, (view.left capacity size reader).item size k =
        content (reader.itemsRead + k) := by
  obtain ⟨hring, hspan, hround, hwrap⟩ := h.ring
  obtain ⟨hlag, _, hend⟩ := h.available_spec hr
  -- what is not in the run is met at the front, right behind the run
  have hrest : view.cursors.available capacity reader < view.cursors.lag reader →
      view.cursors.span capacity ≤ reader.readIndex + view.cursors.available capacity reader ∧
        reader.readIndex + view.cursors.lag reader =
          view.cursors.writeIndex + view.cursors.span capacity := by
    unfold Cursors.available
    by_cases hw : view.cursors.Wrapped reader
    · have := (h.wrapped_iff hr).mp hw
      rw [if_pos hw]
      omega
    · have := (h.not_wrapped_iff hr).mp hw
      rw [if_neg hw]
      omega
  unfold View.left
  -- only its bounds matter now
  generalize view.cursors.available capacity reader = run at hlag hend hrest ⊢
  have hfirst : reader.readIndex + run ≤ capacity := by omega
  have hsecond : reader.readIndex + run - view.cursors.span capacity +
      (view.cursors.lag reader - run) ≤ capacity := by
    omega
  have hrun := Bytes.size_slice_items hfirst hb
  refine ⟨?_, fun k hk => ?_⟩
  · rw [Array.size_append, hrun, Bytes.size_slice_items hsecond hb, ← Nat.add_mul,
      Nat.add_sub_cancel' hlag]
  · rw [Bytes.item_append hrun]
    split
    · rw [Bytes.item_slice hfirst hb ‹_›]
      exact hf k hk _ (.inl ⟨rfl, by omega⟩)
    · rw [Bytes.item_slice hsecond hb (by omega)]
      exact hf k hk _ (.inr (by omega))

end View.Finds

namespace View

/-- A reader that meets every item once finds something. -/
theorem finds_of_fold
    (h : ∀ k < view.cursors.lag reader, ∀ i, view.cursors.Meets capacity reader k i →
      i = view.cursors.fold capacity (reader.readIndex + k)) :
    ∃ content, view.Finds capacity size reader content := by
  refine ⟨fun j => view.bytes.item size
    (view.cursors.fold capacity (reader.readIndex + (j - reader.itemsRead))), ?_⟩
  intro k hk i hm
  dsimp only
  rw [h k hk i hm, Nat.add_sub_cancel_left]

theorem finds_of_no_tail (ht : view.cursors.tail = none) :
    ∃ content, view.Finds capacity size reader content := by
  apply finds_of_fold
  intro k hk i hm
  simp only [Cursors.Meets, Cursors.wrapEnd, Cursors.span, ht] at hm
  simp only [Cursors.fold, Cursors.span, ht]
  split <;> omega

theorem finds_of_not_wrapped (h : view.cursors.Ordered capacity)
    (hr : reader ∈ view.cursors.readers) (hw : ¬ view.cursors.Wrapped reader) :
    ∃ content, view.Finds capacity size reader content := by
  apply finds_of_fold
  intro k hk i hm
  have := h.ring.1
  have := (h.not_wrapped_iff hr).mp hw
  unfold Cursors.Meets at hm
  rw [Cursors.fold, if_pos (by omega)]
  omega

namespace Legible

theorem replaced {other : Reader} (hl : view.Legible capacity size)
    (hr : reader ∈ view.cursors.readers) (hid : other.id = reader.id)
    (ho : ∃ content, view.Finds capacity size other content) :
    View.Legible ⟨view.cursors.replace other, view.bytes⟩ capacity size := by
  intro r hm
  rcases (Cursors.mem_replace hr _ hid).mp hm with rfl | ⟨hold, _⟩
  · exact ho
  · exact hl r hold

theorem refreshed (hl : view.Legible capacity size) (h : view.cursors.Ordered capacity) :
    View.Legible ⟨view.cursors.refreshed, view.bytes⟩ capacity size := by
  intro r hr
  rw [Cursors.readers_refreshed] at hr
  obtain ⟨content, hf⟩ := hl r hr
  exact ⟨content, hf.refreshed h hr⟩

theorem stored (hl : view.Legible capacity size) (h : view.cursors.Coherent capacity)
    (hb : view.bytes.size = capacity * size) (hroom : view.cursors.Room capacity items)
    (hdata : data.size ≤ items * size) :
    View.Legible ⟨view.cursors, view.bytes.splice (view.cursors.writeIndex * size) data⟩
      capacity size := by
  intro r hr
  obtain ⟨content, hf⟩ := hl r hr
  exact ⟨content, hf.stored h hb hroom hdata hr⟩

theorem wrote (hl : view.Legible capacity size) (h : view.cursors.Coherent capacity)
    (hroom : view.cursors.Room capacity items ∨ view.cursors.readers = []) :
    View.Legible ⟨view.cursors.wrote capacity items, view.bytes⟩ capacity size := by
  intro r hr
  change r ∈ view.cursors.readers at hr
  rcases hroom with hroom | hnone
  · obtain ⟨content, hf⟩ := hl r hr
    exact ⟨_, hf.wrote h hroom hr⟩
  · simp [hnone] at hr

theorem raised {lookBack delay : Nat} (hl : view.Legible capacity size)
    (h : view.cursors.Ordered capacity) :
    View.Legible ⟨view.cursors.raised lookBack delay, view.bytes⟩ capacity size := by
  intro r hr
  by_cases ht : view.cursors.tail = none
  · exact finds_of_no_tail (Cursors.tail_raised.trans ht)
  · have he : view.cursors.raised lookBack delay = view.cursors.withMaxima lookBack delay :=
      if_neg fun hg => ht (h.tail_eq_none hg.2)
    rw [he] at hr ⊢
    exact hl r hr

/-- Whoever comes while there is a tail window comes behind the writer. -/
theorem joined {lookBack delay : Nat} (hl : view.Legible capacity size)
    (h : view.cursors.Coherent capacity) (hb : lookBack < capacity)
    (ha : view.cursors.Admits lookBack) :
    View.Legible ⟨view.cursors.joined capacity lookBack delay, view.bytes⟩ capacity size := by
  intro r hr
  by_cases ht : view.cursors.tail = none
  · exact finds_of_no_tail (Cursors.tail_raised.trans ht)
  rcases List.mem_append.mp hr with hm | hm
  · have hraised : View.Legible ⟨view.cursors.raised lookBack delay, view.bytes⟩ capacity size :=
      hl.raised h.toOrdered
    exact hraised r hm
  · have he : view.cursors.raised lookBack delay = view.cursors.withMaxima lookBack delay :=
      if_neg fun hg => ht (h.tail_eq_none hg.2)
    have hjoined := (h.joined hb ha delay).toOrdered
    apply finds_of_not_wrapped hjoined hr
    rw [hjoined.not_wrapped_iff hr, List.mem_singleton.mp hm]
    have := ha.2 ht
    simp only [Cursors.lag, Cursors.joined, Cursors.newcomer, he, Cursors.behind,
      Cursors.withMaxima, if_pos this]
    omega

end Legible

end View

variable {terms : Terms} {sent : Sent} {after : View}

/-- Every motion that tells what it sends. -/
theorem Motion.legible (h : view.Sound capacity size) (hl : view.Legible capacity size)
    (hm : Motion terms capacity size view sent after) (hs : sent ≠ none) :
    after.Legible capacity size := by
  obtain ⟨hcoh, _, _, hsize⟩ := h
  cases hm with
  | relocate ha =>
    intro r hr
    obtain ⟨reader, hm, rfl⟩ := List.mem_map.mp hr
    obtain ⟨content, hf⟩ := hl reader hm
    exact ⟨content, hf.settled hcoh hsize ha hm⟩
  | write hroom _ hdata =>
    have hstored := hl.stored hcoh hsize hroom (Nat.le_of_eq hdata)
    exact hstored.wrote hcoh (.inl hroom)
  | skip _ _ => exact absurd rfl hs
  | consume hr hi =>
    obtain ⟨content, hf⟩ := hl _ hr
    have hreplaced := hl.replaced hr (by rfl) ⟨content, hf.consumed hcoh.toOrdered hr hi⟩
    exact hreplaced.refreshed (hcoh.consume hr hi)
  | detach id =>
    have hwithout : View.Legible ⟨view.cursors.without id, view.bytes⟩ capacity size :=
      fun r hr => hl r (List.eraseP_sublist.subset hr)
    exact hwithout.refreshed (hcoh.without id)
  | raise _ _ _ _ => exact hl.raised hcoh.toOrdered
  | join hb _ ha _ _ => exact hl.joined hcoh hb ha
  | @declare reader delay hr _ =>
    obtain ⟨content, hf⟩ := hl reader hr
    have hreplaced := @View.Legible.replaced _ _ view reader
      { reader with sampleDelay := delay } hl hr rfl ⟨content, hf⟩
    exact hreplaced.raised (hcoh.declared hr delay).toOrdered
  | spoil _ => exact absurd rfl hs

theorem Path.legible {start : View} (h : start.Sound capacity size)
    (hl : start.Legible capacity size) (hp : Path terms capacity size start sent view)
    (hs : sent ≠ none) : view.Legible capacity size := by
  induction hp with
  | refl => exact hl
  | @tail sent data mid view path motion ih =>
    have hsent : sent ≠ none := fun hn => hs (by rw [hn]; rfl)
    have hdata : data ≠ none := fun hn => hs (by rw [hn, Sent.andThen_none])
    exact motion.legible (path.sound h) (ih hsent) hdata

end StreamBuffer
