import StreamBuffer.Proofs.Contents
import StreamBuffer.Proofs.Safety

/-!
# The stream through a flat buffer

A reader sees its look-back as zeros and then all that was written. The bytes carry this stream for
every reader along its way on the ring, and where a tail window holds items twice they carry them
at both places; every motion of a run keeps that.
-/

namespace StreamBuffer

/-- The stream of a reader: zeros to look back at, then what was written. -/
def preloaded (lookBack size : Nat) (stream : Bytes) : Bytes :=
  Bytes.zeroed (lookBack * size) ++ stream

namespace View

/-- Along its way the reader finds the next items of its stream, before the end of its run and,
once it came round, at the front. -/
def Holds (view : View) (capacity size : Nat) (stream : Bytes) (reader : Reader) : Prop :=
  ∀ j < view.cursors.lag reader,
    (reader.readIndex + j < view.cursors.wrapEnd capacity →
      view.bytes.item size (reader.readIndex + j) =
        (preloaded reader.lookBack size stream).item size (reader.itemsRead + j)) ∧
    (view.cursors.span capacity ≤ reader.readIndex + j →
      view.bytes.item size (reader.readIndex + j - view.cursors.span capacity) =
        (preloaded reader.lookBack size stream).item size (reader.itemsRead + j))

structure Carries (view : View) (capacity size : Nat) (stream : Bytes) : Prop where
  stream_size : stream.size = view.cursors.written * size
  fresh : view.cursors.written = 0 → ∀ i < capacity, view.bytes.item size i = Bytes.zeroed size
  held : ∀ reader ∈ view.cursors.readers, view.Holds capacity size stream reader

end View

variable {terms : Terms} {capacity size lookBack : Nat} {view after : View} {stream data : Bytes}
variable {k : Nat}

theorem size_preloaded {written : Nat} (hs : stream.size = written * size) :
    (preloaded lookBack size stream).size = (lookBack + written) * size := by
  simp only [preloaded, Array.size_append, Bytes.size_zeroed, hs, Nat.add_mul]

theorem item_preloaded (h : k < lookBack) :
    (preloaded lookBack size stream).item size k = Bytes.zeroed size := by
  rw [preloaded, Bytes.item_append (Bytes.size_zeroed _), if_pos h, Bytes.item_zeroed h]

theorem item_preloaded_append {written : Nat} (hs : stream.size = written * size) :
    (preloaded lookBack size (stream ++ data)).item size k =
      if k < lookBack + written then (preloaded lookBack size stream).item size k
      else data.item size (k - (lookBack + written)) := by
  rw [← Bytes.item_append (size_preloaded hs)]
  simp only [preloaded, Array.append_assoc]

namespace View

section Meets

variable {reader : Reader} {items : Nat}

theorem holds_iff_finds : view.Holds capacity size stream reader ↔
    view.Finds capacity size reader ((preloaded reader.lookBack size stream).item size) := by
  constructor
  · intro hh k hk i hm
    obtain ⟨hin, hround⟩ := hh k hk
    rcases hm with ⟨rfl, hlt⟩ | hm
    · exact hin hlt
    · rw [← hround (by omega), hm, Nat.add_sub_cancel_left]
  · intro hf k hk
    exact ⟨fun hlt => hf k hk _ (.inl ⟨rfl, hlt⟩),
      fun hle => hf k hk _ (.inr (Nat.add_sub_cancel' hle).symm)⟩

theorem holds_of_fresh (view : View) (h : view.cursors.Ordered capacity)
    (hw : view.cursors.written = 0)
    (hz : ∀ i < capacity, view.bytes.item size i = Bytes.zeroed size)
    (hr : reader ∈ view.cursors.readers) : view.Holds capacity size stream reader := by
  refine holds_iff_finds.mpr fun k hk i hm => ?_
  have hlt : reader.itemsRead + k < reader.lookBack := by
    unfold Cursors.lag at hk
    omega
  rw [item_preloaded hlt]
  exact hz i (h.meets_lt hr hk hm)

theorem Holds.consumed (h : view.cursors.Ordered capacity)
    (hr : reader ∈ view.cursors.readers) (hi : items ≤ view.cursors.available capacity reader)
    (hh : view.Holds capacity size stream reader) :
    view.Holds capacity size stream (view.cursors.consumed capacity reader items) :=
  holds_iff_finds.mpr ((holds_iff_finds.mp hh).consumed h hr hi)

end Meets

theorem Carries.refreshed (h : view.cursors.Ordered capacity)
    (hc : view.Carries capacity size stream) :
    View.Carries ⟨view.cursors.refreshed, view.bytes⟩ capacity size stream := by
  refine ⟨by rw [Cursors.written_refreshed]; exact hc.stream_size, ?_, ?_⟩
  · rw [Cursors.written_refreshed]
    exact hc.fresh
  intro reader hr
  rw [Cursors.readers_refreshed] at hr
  exact holds_iff_finds.mpr ((holds_iff_finds.mp (hc.held reader hr)).refreshed h hr)

/-! ## The writer -/

theorem Holds.written (h : view.cursors.Coherent capacity) (hb : view.bytes.size = capacity * size)
    {items : Nat} (hroom : view.cursors.Room capacity items) (hdata : data.size = items * size)
    (hs : stream.size = view.cursors.written * size) {reader : Reader}
    (hr : reader ∈ view.cursors.readers) (hh : view.Holds capacity size stream reader) :
    View.Holds ⟨view.cursors.wrote capacity items,
      view.bytes.splice (view.cursors.writeIndex * size) data⟩
      capacity size (stream ++ data) reader := by
  have hread := (h.placed reader hr).read_le
  have hend := hroom.end_le
  have hlag : view.cursors.lag reader = view.cursors.written + reader.lookBack - reader.itemsRead :=
    rfl
  have hstored := (holds_iff_finds.mp hh).stored h hb hroom (Nat.le_of_eq hdata) hr
  refine holds_iff_finds.mpr fun k hk i hm => ?_
  rw [hstored.wrote h hroom hr k hk i hm, item_preloaded_append hs]
  rw [Cursors.Coherent.lag_wrote hread] at hk
  dsimp only
  split
  · rw [if_pos (by omega)]
  · rw [if_neg (by omega), Bytes.item_splice hb hdata hend (by omega), if_pos (by omega)]
    exact congrArg (data.item size) (by omega)

theorem Holds.settled {plan : Plan} (h : view.cursors.Coherent capacity)
    (hb : view.bytes.size = capacity * size) (ha : plan.Admissible view.cursors capacity)
    {reader : Reader} (hr : reader ∈ view.cursors.readers)
    (hh : view.Holds capacity size stream reader) :
    View.Holds ⟨plan.settled view.cursors, plan.relocate size view.cursors.writeIndex view.bytes⟩
      capacity size stream { reader with readIndex := plan.landing view.cursors reader } :=
  holds_iff_finds.mpr ((holds_iff_finds.mp hh).settled h hb ha hr)

/-! ## All readers -/

namespace Carries

variable {lookBack delay items : Nat} {reader other : Reader}

theorem relocated {plan : Plan} (h : view.cursors.Coherent capacity)
    (hb : view.bytes.size = capacity * size) (ha : plan.Admissible view.cursors capacity)
    (hc : view.Carries capacity size stream) :
    View.Carries ⟨plan.settled view.cursors, plan.relocate size view.cursors.writeIndex view.bytes⟩
      capacity size stream := by
  refine ⟨hc.stream_size, fun hw i hi => ?_, fun r hr => ?_⟩
  · obtain ⟨hlt, he⟩ := plan.item_relocate h.toOrdered ha hb hi
    exact he.trans (hc.fresh hw _ hlt)
  · obtain ⟨reader, hm, rfl⟩ := List.mem_map.mp hr
    exact (hc.held reader hm).settled h hb ha hm

theorem written (h : view.cursors.Coherent capacity) (hb : view.bytes.size = capacity * size)
    (hroom : view.cursors.Room capacity items) (hdata : data.size = items * size)
    (hc : view.Carries capacity size stream) :
    View.Carries ⟨view.cursors.wrote capacity items,
      view.bytes.splice (view.cursors.writeIndex * size) data⟩
      capacity size (stream ++ data) := by
  refine ⟨?_, fun hw i hi => ?_,
    fun r hr => (hc.held r hr).written h hb hroom hdata hc.stream_size hr⟩
  · simp only [Array.size_append, hc.stream_size, hdata, Cursors.wrote, Nat.add_mul]
  · have hw' : view.cursors.written + items = 0 := hw
    rw [Bytes.item_splice hb hdata hroom.end_le hi, if_neg (by omega)]
    exact hc.fresh (by omega) i hi

theorem replaced (hr : reader ∈ view.cursors.readers) (hid : other.id = reader.id)
    (hh : view.Holds capacity size stream other) (hc : view.Carries capacity size stream) :
    View.Carries ⟨view.cursors.replace other, view.bytes⟩ capacity size stream := by
  refine ⟨hc.stream_size, hc.fresh, fun r hm => ?_⟩
  rcases (Cursors.mem_replace hr _ hid).mp hm with rfl | ⟨hold, _⟩
  · exact hh
  · exact hc.held r hold

theorem without (id : Nat) (hc : view.Carries capacity size stream) :
    View.Carries ⟨view.cursors.without id, view.bytes⟩ capacity size stream :=
  ⟨hc.stream_size, hc.fresh, fun r hr => hc.held r (List.eraseP_sublist.subset hr)⟩

theorem raised (h : view.cursors.Coherent capacity) (hl : lookBack < capacity)
    (hu : view.cursors.Undisturbed lookBack) (hc : view.Carries capacity size stream) :
    View.Carries ⟨view.cursors.raised lookBack delay, view.bytes⟩ capacity size stream := by
  refine ⟨?_, ?_, fun r hr => ?_⟩
  · rw [Cursors.written_raised]
    exact hc.stream_size
  · rw [Cursors.written_raised]
    exact hc.fresh
  by_cases hw : view.cursors.written = 0
  · exact holds_of_fresh ⟨view.cursors.raised lookBack delay, view.bytes⟩
      (h.raised hl hu delay).toOrdered (by rwa [Cursors.written_raised]) (hc.fresh hw) hr
  · have he : view.cursors.raised lookBack delay = view.cursors.withMaxima lookBack delay :=
      if_neg fun hg => hw hg.2
    rw [he] at hr ⊢
    exact hc.held r hr

theorem joined (h : view.cursors.Coherent capacity) (hl : lookBack < capacity)
    (ha : view.cursors.Admits lookBack) (hw : view.cursors.written = 0)
    (hc : view.Carries capacity size stream) :
    View.Carries ⟨view.cursors.joined capacity lookBack delay, view.bytes⟩ capacity
      size stream := by
  have hw' : (view.cursors.joined capacity lookBack delay).written = view.cursors.written :=
    Cursors.written_raised
  refine ⟨?_, fun _ => hc.fresh hw, fun r hr => holds_of_fresh
    ⟨view.cursors.joined capacity lookBack delay, view.bytes⟩ (h.joined hl ha delay).toOrdered
    (hw'.trans hw) (hc.fresh hw) hr⟩
  rw [hw']
  exact hc.stream_size

end Carries

end View

/-- Every motion that tells what it sends adds that to the stream. -/
theorem Motion.carries {sent : Sent}
    (ht : ∀ cursors lookBack, terms.attach cursors lookBack → cursors.Fresh)
    (h : view.Sound capacity size) (hc : view.Carries capacity size stream)
    (hm : Motion terms capacity size view sent after) (hs : sent = some data) :
    after.Carries capacity size (stream ++ data) := by
  obtain ⟨hcoh, _, _, hsize⟩ := h
  have hnothing : Sent.nothing = some data → stream ++ data = stream := fun he => by
    rw [← Option.some.inj he, Array.append_empty]
  cases hm with
  | relocate ha =>
    rw [hnothing hs]
    exact hc.relocated hcoh hsize ha
  | write hroom _ hdata =>
    cases hs
    exact hc.written hcoh hsize hroom hdata
  | skip _ _ => cases hs
  | consume hr hi =>
    rw [hnothing hs]
    have hreader := (hc.held _ hr).consumed hcoh.toOrdered hr hi
    have hreplaced := View.Carries.replaced hr (by rfl) hreader hc
    exact View.Carries.refreshed (hcoh.consume hr hi) hreplaced
  | detach id =>
    rw [hnothing hs]
    exact (hc.without id).refreshed (hcoh.without id)
  | raise hl hu _ _ =>
    rw [hnothing hs]
    exact hc.raised hcoh hl hu
  | join hl hterms ha _ _ =>
    rw [hnothing hs]
    exact hc.joined hcoh hl ha (ht _ _ hterms).1
  | @declare reader delay hr _ =>
    rw [hnothing hs]
    have hreader : view.Holds capacity size stream { reader with sampleDelay := delay } :=
      hc.held reader hr
    have hreplaced := View.Carries.replaced hr (by rfl) hreader hc
    exact View.Carries.raised (hcoh.declared hr delay) (Nat.zero_lt_of_lt hcoh.writeIndex_lt)
      (fun hl => absurd hl (Nat.not_lt_zero _)) hreplaced
  | spoil _ => cases hs

theorem Path.carries {start : View} {sent : Sent}
    (ht : ∀ cursors lookBack, terms.attach cursors lookBack → cursors.Fresh)
    (h : start.Sound capacity size) (hc : start.Carries capacity size #[])
    (hp : Path terms capacity size start sent view) (hs : sent = some stream) :
    view.Carries capacity size stream := by
  induction hp generalizing stream with
  | refl =>
    cases hs
    exact hc
  | @tail sent data mid view path motion ih =>
    cases sent with
    | none => cases hs
    | some before =>
      cases data with
      | none => cases hs
      | some data =>
        cases hs
        exact motion.carries ht (path.sound h) (ih rfl) rfl

/-! ## Runs -/

section Runs

variable {site start : Site} {sent : Sent} {call : Call}

/-- A call that was answered tells what it brought, if it moved no writer over unknown items. -/
theorem Call.brings_some (size : Nat) (answer : Answer)
    (hw : ∀ items source, call ≠ .write items source) (ha : ∀ items, call ≠ .advance items) :
    ∃ data, call.brings size answer = some data := by
  cases call with
  | write items source => exact absurd rfl (hw items source)
  | advance items => exact absurd rfl (ha items)
  | produce items multiple source => cases answer <;> exact ⟨_, rfl⟩
  | _ => exact ⟨_, rfl⟩

theorem Run.sent_some (h : start.Sound) (hc : start.buffer.storage.context = .hostToHost)
    (hr : Run (fun site call => call.Respects .early site ∧ ∀ items, call ≠ .advance items)
      start sent site) :
    ∃ stream, sent = some stream := by
  induction hr with
  | refl => exact ⟨_, rfl⟩
  | @tail sent site call run hcall ih =>
    have hmoves := (run.mono fun _ _ ha => ha.1).moves Terms.early_places h
    obtain ⟨answer, after, he⟩ :=
      call.answers Terms.early_places (hmoves.sound h) (hmoves.context_eq.trans hc) hcall.1
    have hwrite : ∀ items source, call ≠ .write items source := fun items source hw => by
      rw [hw] at hcall
      exact hcall.1
    obtain ⟨before, rfl⟩ := ih
    obtain ⟨data, hd⟩ := call.brings_some site.buffer.geometry.itemSize answer hwrite hcall.2
    refine ⟨before ++ data, ?_⟩
    unfold Call.sent
    rw [he]
    dsimp only
    rw [hd]
    rfl

theorem Site.fresh_carries (hn : start.buffer.cursors = {})
    (hz : start.readable = .zeroed start.buffer.geometry.bytes) :
    start.view.Carries start.buffer.geometry.capacity start.buffer.geometry.itemSize #[] := by
  have hc : start.view.cursors = {} := hn
  refine ⟨?_, fun _ i hi => ?_, ?_⟩
  · rw [hc, Nat.zero_mul]
    rfl
  · change start.readable.item _ i = _
    rw [hz]
    exact Bytes.item_zeroed hi
  · rw [hc]
    exact nofun

theorem Site.peek_eq {reader : Reader} {items : Nat}
    (h : reader.readIndex + items ≤ site.buffer.geometry.capacity) :
    site.peek reader items = site.readable.slice (reader.readIndex * site.buffer.geometry.itemSize)
      (items * site.buffer.geometry.itemSize) := by
  unfold Site.peek
  dsimp only
  rw [show min items (site.buffer.geometry.capacity - reader.readIndex) = items by omega]
  rfl

/-- What a reader finds in one run are the next items of its stream. -/
theorem View.Carries.peek_eq {reader : Reader} (h : site.Sound)
    (hc : site.view.Carries site.buffer.geometry.capacity site.buffer.geometry.itemSize stream)
    (hr : reader ∈ site.buffer.cursors.readers) {items : Nat}
    (hi : items ≤ site.buffer.cursors.available site.buffer.geometry.capacity reader) :
    (site.peek reader items).size = items * site.buffer.geometry.itemSize ∧
      site.peek reader items =
        (preloaded reader.lookBack site.buffer.geometry.itemSize stream).slice
        (reader.itemsRead * site.buffer.geometry.itemSize)
          (items * site.buffer.geometry.itemSize) := by
  have hring := h.coherent.ring
  obtain ⟨hlag, _, hend⟩ := h.coherent.available_spec hr
  have hread := (h.coherent.placed reader hr).read_le
  have hrun : reader.readIndex + items ≤ site.buffer.geometry.capacity := by omega
  have hstream : reader.itemsRead + items ≤ reader.lookBack + site.buffer.cursors.written := by
    unfold Cursors.lag at hlag
    omega
  have hbytes : site.readable.size =
      site.buffer.geometry.capacity * site.buffer.geometry.itemSize :=
    h.size_readable
  have hpreloaded : (preloaded reader.lookBack site.buffer.geometry.itemSize stream).size =
      (reader.lookBack + site.buffer.cursors.written) * site.buffer.geometry.itemSize :=
    size_preloaded hc.stream_size
  have hpeek := Site.peek_eq hrun
  have hsize : (site.peek reader items).size = items * site.buffer.geometry.itemSize := by
    rw [hpeek, Bytes.size_slice_items hrun hbytes]
  -- both are compared item by item
  refine ⟨hsize, Bytes.eq_of_items hsize (Bytes.size_slice_items hstream hpreloaded)
    fun i hlt => ?_⟩
  rw [hpeek, Bytes.item_slice hrun hbytes hlt, Bytes.item_slice hstream hpreloaded hlt]
  exact ((hc.held reader hr) i (by change i < site.buffer.cursors.lag reader; omega)).1
    (by change _ < site.buffer.cursors.wrapEnd _; omega)

variable {backend : Backend} {request : Request} {id : Nat} {machine allocated : Machine}
variable {buffer : Buffer}

/-- **Integrity of the stream.** Whatever whole production steps a run on the host consists of, and
whatever else was called between them, all readers find the next items of their streams, in
order. -/
theorem readers_see_stream (hr : backend.Ready machine.devices) (hflat : request.mapping = .single)
    (hhost : request.owner.context = .hostToHost)
    (ha : Buffer.allocate backend request id machine = .ok buffer allocated)
    (hrun : Run (fun site call => call.Respects .early site ∧ ∀ items, call ≠ .advance items)
      ⟨allocated, buffer⟩ sent site) :
    ∃ stream, sent = some stream ∧
      stream.size = site.buffer.cursors.written * site.buffer.geometry.itemSize ∧
      ∀ reader ∈ site.buffer.cursors.readers, ∃ supply, site.buffer.supply reader = .ok supply ∧
        (site.peek reader supply).size = supply * site.buffer.geometry.itemSize ∧
        site.peek reader supply =
          (preloaded reader.lookBack site.buffer.geometry.itemSize stream).slice
          (reader.itemsRead * site.buffer.geometry.itemSize)
            (supply * site.buffer.geometry.itemSize) := by
  obtain ⟨hsound, hnew, hprovides⟩ := Buffer.allocate_sound hr hflat ha
  obtain ⟨stream, rfl⟩ := hrun.sent_some hsound (hprovides.context_eq.trans hhost)
  have hmoves := (hrun.mono fun _ _ ha => ha.1).moves Terms.early_places hsound
  have h := hmoves.sound hsound
  have hcarries := hmoves.path.carries (fun _ _ hf => hf) hsound.view
    (Site.fresh_carries hnew hprovides.readable_eq) rfl
  rw [← hmoves.geometry_eq] at hcarries
  refine ⟨stream, rfl, hcarries.stream_size, fun reader hm => ?_⟩
  exact ⟨_, Site.supply_eq h hm, hcarries.peek_eq h hm (Nat.le_refl _)⟩

/-- Of a run on the heap: a reader that looks one item back has consumed it and one of three
more. -/
theorem readers_see_stream_heap :
    ∃ site, Run (fun site call => call.Respects .early site ∧ ∀ items, call ≠ .advance items)
        (Site.onHeap 4 1) (some #[7, 8, 9]) site ∧
      ∀ reader ∈ site.buffer.cursors.readers, ∃ supply, site.buffer.supply reader = .ok supply ∧
        site.peek reader supply =
          (preloaded reader.lookBack 1 #[7, 8, 9]).slice (reader.itemsRead * 1) (supply * 1) := by
  have hready : Backend.Ready .heap ({} : Machine).devices := trivial
  have hallocate := Buffer.allocate_onHeap 4 1 1 (by decide)
  have hstart : Run (fun site call => call.Respects .early site ∧ ∀ items, call ≠ .advance items)
      (Site.onHeap 4 1) .nothing _ := .refl
  have hattached := hstart.tail (.attach 2 0) ⟨⟨by decide, by decide, rfl, nofun⟩, nofun⟩
  have hwritten := hattached.tail (.produce 3 1 fun i => 7 + i.toUInt8)
    ⟨⟨by decide, by decide⟩, nofun⟩
  have hrun := hwritten.tail (.read 0 2) ⟨⟨_, 4, rfl, rfl, by decide⟩, nofun⟩
  obtain ⟨stream, hsent, _, hreaders⟩ := readers_see_stream hready rfl rfl hallocate hrun
  have hstream : stream = #[7, 8, 9] := (Option.some.inj hsent).symm.trans (by decide)
  subst hstream
  refine ⟨_, hsent ▸ hrun, fun reader hm => ?_⟩
  obtain ⟨supply, hs, _, he⟩ := hreaders reader hm
  exact ⟨supply, hs, he⟩

end Runs

end StreamBuffer
