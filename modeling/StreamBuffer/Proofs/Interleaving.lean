import StreamBuffer.Proofs.Asides
import StreamBuffer.Proofs.Contents
import StreamBuffer.Proofs.Stream

/-!
# Calls between the calls of the producer

A producer asks for room, stores, and moves on; in between other stages make calls of their own.
All readers still find what was unread before, and after it what lies where the writer stands when
it moves on. That is what was stored, unless a reader was helped at the end of the region meanwhile:
then the writer was moved up, over what was stored.
-/

namespace StreamBuffer

variable {terms : Terms} {capacity size count : Nat} {view mid after : View} {reader other : Reader}

/-! ## Asides -/

/-- What is true of a view after asides. From the writer on the region is untouched. -/
structure View.Beside (capacity size : Nat) (view after : View) : Prop where
  written_eq : after.cursors.written = view.cursors.written
  maxLookBack_eq : after.cursors.maxLookBack = view.cursors.maxLookBack
  writeIndex_le : view.cursors.writeIndex ≤ after.cursors.writeIndex
  kept : ∀ i < capacity, after.cursors.writeIndex ≤ i →
    after.bytes.item size i = view.bytes.item size i
  follows : ∀ reader ∈ after.cursors.readers, ∃ old ∈ view.cursors.readers,
    old.id = reader.id ∧ old.lookBack = reader.lookBack ∧ old.itemsRead ≤ reader.itemsRead ∧
      ∀ content, view.Finds capacity size old content → after.Finds capacity size reader content

namespace View.Beside

theorem refl (view : View) : view.Beside capacity size view :=
  ⟨rfl, rfl, Nat.le_refl _, fun _ _ _ => rfl,
    fun reader hr => ⟨reader, hr, rfl, rfl, Nat.le_refl _, fun _ hf => hf⟩⟩

theorem trans (h : view.Beside capacity size mid) (hn : mid.Beside capacity size after) :
    view.Beside capacity size after := by
  refine ⟨hn.written_eq.trans h.written_eq, hn.maxLookBack_eq.trans h.maxLookBack_eq,
    Nat.le_trans h.writeIndex_le hn.writeIndex_le, fun i hi hle => ?_, fun reader hr => ?_⟩
  · rw [hn.kept i hi hle, h.kept i hi (Nat.le_trans hn.writeIndex_le hle)]
  · obtain ⟨old, ho, hid, hlook, hread, hf⟩ := hn.follows reader hr
    obtain ⟨first, hfirst, hid', hlook', hread', hf'⟩ := h.follows old ho
    exact ⟨first, hfirst, hid'.trans hid, hlook'.trans hlook, Nat.le_trans hread' hread,
      fun content hc => hf content (hf' content hc)⟩

theorem refreshed (h : view.cursors.Ordered capacity) :
    view.Beside capacity size ⟨view.cursors.refreshed, view.bytes⟩ := by
  refine ⟨Cursors.written_refreshed, Cursors.maxLookBack_refreshed,
    Nat.le_of_eq Cursors.writeIndex_refreshed.symm, fun _ _ _ => rfl, fun reader hr => ?_⟩
  rw [Cursors.readers_refreshed] at hr
  exact ⟨reader, hr, rfl, rfl, Nat.le_refl _, fun _ hf => hf.refreshed h hr⟩

theorem replaced (hr : reader ∈ view.cursors.readers) (hid : other.id = reader.id)
    (hlook : other.lookBack = reader.lookBack) (hread : reader.itemsRead ≤ other.itemsRead)
    (hf : ∀ content, view.Finds capacity size reader content →
      view.Finds capacity size other content) :
    view.Beside capacity size ⟨view.cursors.replace other, view.bytes⟩ := by
  refine ⟨rfl, rfl, Nat.le_refl _, fun _ _ _ => rfl, fun r hm => ?_⟩
  rcases (Cursors.mem_replace hr _ hid).mp hm with rfl | ⟨hold, _⟩
  · exact ⟨reader, hr, hid.symm, hlook.symm, hread, hf⟩
  · exact ⟨r, hold, rfl, rfl, Nat.le_refl _, fun _ hf => hf⟩

theorem without (id : Nat) : view.Beside capacity size ⟨view.cursors.without id, view.bytes⟩ :=
  ⟨rfl, rfl, Nat.le_refl _, fun _ _ _ => rfl,
    fun r hr => ⟨r, List.eraseP_sublist.subset hr, rfl, rfl, Nat.le_refl _, fun _ hf => hf⟩⟩

theorem raised (delay : Nat) :
    view.Beside capacity size ⟨view.cursors.raised 0 delay, view.bytes⟩ := by
  rw [Cursors.raised_zero]
  exact ⟨rfl, Nat.max_eq_left (Nat.zero_le _), Nat.le_refl _, fun _ _ _ => rfl,
    fun r hr => ⟨r, hr, rfl, rfl, Nat.le_refl _, fun _ hf => hf⟩⟩

/-- The writer is moved up by as many items as come to the front. -/
theorem unblocked {plan : Plan} (h : view.Sound capacity size) (hk : plan.kind = .input)
    (ha : plan.Admissible view.cursors capacity) : view.Beside capacity size
      ⟨plan.settled view.cursors, plan.relocate size view.cursors.writeIndex view.bytes⟩ := by
  have hmove := fun i hi => (plan.item_relocate h.coherent.toOrdered ha h.size_eq (i := i) hi).2
  have hfollows : ∀ reader ∈ (plan.settled view.cursors).readers, ∃ old ∈ view.cursors.readers,
      old.id = reader.id ∧ old.lookBack = reader.lookBack ∧ old.itemsRead ≤ reader.itemsRead ∧
        ∀ content, view.Finds capacity size old content →
          View.Finds
            ⟨plan.settled view.cursors, plan.relocate size view.cursors.writeIndex view.bytes⟩
            capacity size reader content := by
    intro landed hm
    obtain ⟨reader, hr, rfl⟩ := List.mem_map.mp hm
    exact ⟨reader, hr, rfl, rfl, Nat.le_refl _, fun _ hf => hf.settled h.coherent h.size_eq ha hr⟩
  cases ha with
  | history | output => cases hk
  | @input required front moved hmoved hspan hroom hfront hat =>
    refine ⟨rfl, rfl, Nat.le_add_right .., fun i hi hle => ?_, hfollows⟩
    simp only [Plan.settled] at hle
    rw [hmove i hi]
    simp only [Plan.origin]
    rw [if_neg (by omega), if_neg (by omega)]

/-- Where the writer is going to write, only the producer has. -/
theorem newest (hb : view.Beside capacity size after) (hv : view.bytes.size = capacity * size)
    (ha : after.bytes.size = capacity * size) (hfree : after.cursors.Room capacity count) :
    after.bytes.slice (after.cursors.writeIndex * size) (count * size) =
      view.bytes.slice (after.cursors.writeIndex * size) (count * size) := by
  have hend := hfree.end_le
  apply Bytes.eq_of_items (Bytes.size_slice_items hend ha) (Bytes.size_slice_items hend hv)
  intro i hi
  rw [Bytes.item_slice hend ha hi, Bytes.item_slice hend hv hi]
  exact hb.kept _ (by omega) (Nat.le_add_right ..)

end View.Beside

theorem Aside.beside (ha : Aside capacity size view after) (h : view.Sound capacity size) :
    view.Beside capacity size after := by
  have hcoh := h.coherent
  cases ha with
  | rest => exact .refl view
  | @consume reader items hr hi =>
    have hread : reader.itemsRead ≤ reader.itemsRead + items := Nat.le_add_right ..
    have hreplaced : view.Beside capacity size
        ⟨view.cursors.replace (view.cursors.consumed capacity reader items), view.bytes⟩ :=
      .replaced hr rfl rfl hread fun _ hf => hf.consumed hcoh.toOrdered hr hi
    exact hreplaced.trans (.refreshed (hcoh.consume hr hi))
  | detach id =>
    have hwithout : view.Beside capacity size ⟨view.cursors.without id, view.bytes⟩ := .without id
    exact hwithout.trans (.refreshed (hcoh.without id))
  | @declare reader delay hr _ =>
    have hreplaced : view.Beside capacity size
        ⟨view.cursors.replace { reader with sampleDelay := delay }, view.bytes⟩ :=
      .replaced hr rfl rfl (Nat.le_refl _) fun _ hf => hf
    exact hreplaced.trans (.raised delay)
  | unblock hk ha => exact .unblocked h hk ha

/-! ## On the host -/

namespace Site

variable {geometry : Geometry} {granted : Nat} {site last : Site} {stop : Stop}

def Legible (site : Site) : Prop :=
  site.view.Legible site.buffer.geometry.capacity site.buffer.geometry.itemSize

def left (site : Site) (reader : Reader) : Bytes :=
  site.view.left site.buffer.geometry.capacity site.buffer.geometry.itemSize reader

structure Plain (geometry : Geometry) (granted : Nat) (site : Site) : Prop
    extends Poised geometry .hostToHost granted site where
  legible : site.Legible

namespace Plain

theorem sees (h : site.Plain geometry granted) :
    site.view.Sound geometry.capacity geometry.itemSize := by
  rw [← h.geometry_eq]
  exact h.view

theorem tells (h : site.Plain geometry granted) :
    site.view.Legible geometry.capacity geometry.itemSize := by
  rw [← h.geometry_eq]
  exact h.legible

theorem fits (h : site.Plain geometry granted) :
    site.buffer.cursors.Room geometry.capacity granted := by
  rw [← h.geometry_eq]
  exact h.room

theorem writeOffset_eq (h : site.Plain geometry granted) :
    site.buffer.writeOffset = site.buffer.cursors.writeIndex * geometry.itemSize := by
  rw [← h.geometry_eq]
  rfl

theorem left_eq (h : site.Plain geometry granted) (reader : Reader) :
    site.left reader = site.view.left geometry.capacity geometry.itemSize reader := by
  rw [← h.geometry_eq]
  rfl

theorem unrefused (h : site.Plain geometry granted) :
    ¬ site.buffer.storage.Refuses site.machine.devices stop :=
  h.toSolid.unrefused h.context_eq

theorem moved {sent : Sent} (h : site.Plain geometry granted) (hm : site.Moves terms sent last)
    (hs : sent ≠ none) (hr : last.buffer.cursors.Room last.buffer.geometry.capacity count) :
    last.Plain geometry count := by
  refine ⟨h.keep hm.toKeeps (hm.sound h.toSound) hr, ?_⟩
  unfold Legible
  rw [hm.geometry_eq]
  exact hm.path.legible h.view h.legible hs

/-- Room, once it was granted, ends in the region and before all wrapped readers. -/
theorem space (h : site.Plain geometry granted) : Site.space.Ensures site
    (fun room mid => mid.Plain geometry
      (min room (mid.buffer.geometry.capacity - mid.buffer.cursors.writeIndex)) ∧
      site.buffer.cursors.Relocates mid.buffer.cursors ∧ room ≤ mid.buffer.geometry.capacity ∧
      (site.buffer.cursors.readers ≠ [] →
        mid.buffer.cursors.Room mid.buffer.geometry.capacity room))
    fun _ _ => False := by
  have hspec : site.Takes .early Site.space _ := space_spec h.toSound
  apply (h.toPoised.space.both hspec).mono
  · rintro room mid ⟨hp, sent, hm, hs, hc, hroom, hle⟩
    rw [hm.geometry_eq]
    exact ⟨h.moved hm (hs ▸ nofun) (hm.geometry_eq ▸ hp.room), hc, hle, hroom⟩
  · exact fun _ _ hs => h.unrefused hs.2.refuses

theorem move {items : Nat} (h : site.Plain geometry granted)
    (hi : items ≤ granted ∨ site.buffer.cursors.readers = [] ∧
      items ≤ site.buffer.geometry.capacity)
    (hcount : site.buffer.cursors.written + items + site.buffer.cursors.maxLookBack < Word.limit) :
    (advance items).Ensures site (fun _ after => after.Plain geometry (granted - items) ∧
      site.Turns (site.buffer.cursors.wrote site.buffer.geometry.capacity items) after)
        fun _ _ => False := by
  apply (h.toPoised.move hi hcount).mono
  · rintro _ after ⟨hp, ht⟩
    refine ⟨⟨hp, ?_⟩, ht⟩
    unfold Legible
    rw [ht.view_eq, ht.geometry_eq]
    exact h.legible.wrote h.coherent (hi.imp (fun hle => h.room.mono hle) And.left)
  · exact fun _ _ hf => hf

theorem store {data : Bytes} (h : site.Plain geometry granted)
    (hdata : data.size ≤ granted * site.buffer.geometry.itemSize) :
    (Site.store data).Ensures site (fun _ after => after.Plain geometry granted ∧
      site.Recasts (site.readable.splice site.buffer.writeOffset data) after) fun _ _ => False := by
  have hsize := Nat.mul_le_mul_right site.buffer.geometry.itemSize h.room.end_le
  rw [Nat.add_mul] at hsize
  have hfits : site.buffer.writeOffset + data.size ≤ site.buffer.geometry.bytes :=
    Nat.le_trans (Nat.add_le_add_left hdata _) hsize
  apply (store_spec h.toSolid hfits).mono
  · rintro _ after ⟨hr, _⟩
    rw [h.context_eq] at hr
    refine ⟨⟨h.toPoised.recast hr, ?_⟩, hr⟩
    unfold Legible
    rw [hr.view_eq, hr.geometry_eq]
    exact h.legible.stored h.coherent h.view.size_eq h.room hdata
  · exact fun _ _ hf => hf

theorem post {items : Nat} (h : site.Plain geometry granted) (hi : items ≤ granted) :
    (Site.post items).Ensures site (fun _ after => after.Plain geometry granted)
      fun _ _ => False := by
  have hend := h.room.end_le
  apply (post_spec h.toSolid items (by omega)).mono
  · intro _ after hr
    rw [h.context_eq] at hr
    refine ⟨h.toPoised.recast hr, ?_⟩
    unfold Legible
    rw [hr.view_eq, hr.geometry_eq]
    exact h.legible
  · exact fun _ _ hb => h.unrefused hb.refuses

end Plain

end Site

section Plays

variable {geometry : Geometry} {granted : Nat} {start site : Site} {act : Act} {call : Call}

theorem Site.Plain.grow (h : site.Plain geometry granted) {items : Nat}
    (hcount : site.buffer.cursors.written + items + site.buffer.cursors.maxLookBack < Word.limit) :
    (Call.advance items).perform.Ensures site (fun _ after => after.Legible) fun _ _ => False := by
  unfold Call.perform
  apply Action.Ensures.bind h.space
  rintro room mid ⟨hm, hc, hle, hroom⟩
  have hadvance : (Site.advance (min items room)).Ensures mid (fun _ after => after.Legible)
      fun _ _ => False := by
    apply (hm.move ?_ ?_).mono (fun _ _ hd => hd.1.legible) fun _ _ hf => hf
    · by_cases hn : site.buffer.cursors.readers = []
      · exact .inr ⟨hc.readers_eq_nil_iff.mpr hn, by omega⟩
      · have := (hroom hn).end_le
        exact .inl (by omega)
    · rw [hc.written_eq, hc.maxLookBack_eq]
      omega
  exact Action.Ensures.bind hadvance fun _ _ hd => .pure hd

theorem Call.legible (hp : terms.Places) (h : site.Plain geometry granted)
    (hr : call.Respects terms site) :
    (call.after site).Legible := by
  by_cases hgrow : ∃ items, call = .advance items
  · obtain ⟨items, rfl⟩ := hgrow
    exact @Act.after_of (.call (.advance items)) _ _
      ((h.grow hr).sure fun _ _ hd => hd)
  · have hm := call.moves hp h.toSound hr
    unfold Site.Legible
    rw [hm.geometry_eq]
    refine hm.path.legible h.view h.legible ?_
    obtain ⟨answer, after, he⟩ := call.answers hp h.toSound h.context_eq hr
    have hwrite : ∀ items source, call ≠ .write items source := by
      rintro items source rfl
      exact hr
    obtain ⟨data, hd⟩ :=
      call.brings_some site.buffer.geometry.itemSize answer hwrite fun items hi => hgrow ⟨items, hi⟩
    unfold Call.sent
    rw [he]
    dsimp only
    rw [hd]
    exact nofun

theorem Act.plain (hp : terms.Places) (h : site.Plain geometry granted)
    (hr : act.Respects terms granted site) :
    (act.after site).Plain geometry (act.grants granted site) := by
  refine ⟨act.poised hp h.toPoised hr, ?_⟩
  cases act with
  | call call => exact call.legible hp h hr
  | store data =>
    apply Act.after_of
    apply (h.store hr).sure_bind
    exact fun _ _ hd => .pure hd.1.legible
  | post items =>
    apply Act.after_of
    apply (h.post hr).sure_bind
    exact fun _ _ hd => .pure hd.legible
  | move items =>
    apply Act.after_of
    apply (h.move hr.1 hr.2).sure_bind
    exact fun _ _ hd => .pure hd.1.legible
  | fault device on =>
    have hview : ((Act.fault device on).after site).view = site.view :=
      congrArg (View.mk site.buffer.cursors) (h.backed.setFaulty device on).2
    unfold Site.Legible
    rw [hview]
    exact h.legible

theorem Site.Plain.play (hp : terms.Places) (h : start.Plain geometry 0)
    (hplay : Play (Act.Respects terms) start granted site) : site.Plain geometry granted := by
  induction hplay with
  | refl => exact h
  | tail act _ hr ih => exact act.plain hp ih hr

theorem Call.beside (hp : terms.Places) (h : site.Plain geometry granted)
    (hs : call.sparesRoom = true) (hr : call.Respects terms site) :
    (call.after site).Plain geometry granted ∧
      site.view.Beside geometry.capacity geometry.itemSize (call.after site).view := by
  have hplain : (call.after site).Plain geometry ((Act.call call).grants granted site) :=
    @Act.plain _ _ _ _ (.call call) hp h hr
  rw [Act.grants_of_spares hs] at hplain
  refine ⟨hplain, ?_⟩
  have hbeside : ∀ after, site.Spares after →
      site.view.Beside geometry.capacity geometry.itemSize after.view := by
    intro after ha
    rw [← h.geometry_eq]
    exact ha.aside.beside h.view
  apply @Act.after_of (.call call) site
    fun after => site.view.Beside geometry.capacity geometry.itemSize after.view
  exact (call.perform_spares h.toSound hs hr).mono (fun _ after ha => hbeside after ha)
    fun _ _ he => he ▸ .refl _

/-- What the other stages call keeps the room and goes by beside it. -/
theorem Run.beside {sent : Sent} (hp : terms.Places) (h : start.Plain geometry granted)
    (hrun : Run (fun site call => call.sparesRoom = true ∧ call.Respects terms site)
      start sent site) :
    site.Plain geometry granted ∧
    start.view.Beside geometry.capacity geometry.itemSize site.view := by
  induction hrun with
  | refl => exact ⟨h, .refl _⟩
  | tail call _ hcall ih =>
    obtain ⟨hsite, hbeside⟩ := ih
    obtain ⟨hafter, hnext⟩ := call.beside hp hsite hcall.1 hcall.2
    exact ⟨hafter, hbeside.trans hnext⟩

end Plays

/-! ## A step in pieces -/

/-- When the writer moves on, a reader finds what was left to it before and then what lies where the
writer has stood. -/
theorem View.Beside.delivers {last : View} {data : Bytes} (h : view.Sound capacity size)
    (hl : view.Legible capacity size) (hroom : view.cursors.Room capacity count)
    (hdata : data.size ≤ count * size)
    (hb : View.Beside capacity size
      ⟨view.cursors, view.bytes.splice (view.cursors.writeIndex * size) data⟩ last)
    (hlast : last.Sound capacity size) (hfree : last.cursors.Room capacity count)
    (hr : reader ∈ last.cursors.readers) :
    ∃ old ∈ view.cursors.readers, old.id = reader.id ∧ old.itemsRead ≤ reader.itemsRead ∧
      ∃ taken, taken.size = (reader.itemsRead - old.itemsRead) * size ∧
        view.left capacity size old ++ last.bytes.slice (last.cursors.writeIndex * size)
          (count * size) =
          taken ++ View.left ⟨last.cursors.wrote capacity count, last.bytes⟩ capacity
            size reader := by
  obtain ⟨old, ho, hid, hlook, hread, hfollows⟩ := hb.follows reader hr
  obtain ⟨content, hfirst⟩ := hl old ho
  have hfinds := hfollows content (hfirst.stored h.coherent h.size_eq hroom hdata ho)
  obtain ⟨hsize, hitem⟩ := hfirst.left h.coherent.toOrdered h.size_eq ho
  have hwrote := (hlast.coherent.wrote hfree).toOrdered
  obtain ⟨hsize', hitem'⟩ := (hfinds.wrote hlast.coherent hfree hr).left hwrote hlast.size_eq hr
  have hplaced := (hlast.coherent.placed reader hr).read_le
  have hwritten : last.cursors.written = view.cursors.written := hb.written_eq
  -- both sides are compared item by item: first that they are equally many
  have hlag : view.cursors.lag old = view.cursors.written + old.lookBack - old.itemsRead := rfl
  have hahead : (last.cursors.wrote capacity count).lag reader =
      view.cursors.lag old + count - (reader.itemsRead - old.itemsRead) := by
    rw [Cursors.Coherent.lag_wrote hplaced]
    unfold Cursors.lag
    omega
  have hnewest := Bytes.size_slice_items hfree.end_le hlast.size_eq
  have htotal :
      (view.left capacity size old ++ last.bytes.slice (last.cursors.writeIndex * size)
        (count * size)).size =
      (view.cursors.lag old + count) * size := by
    rw [Array.size_append, hsize, hnewest, Nat.add_mul]
  have hless : reader.itemsRead - old.itemsRead ≤ view.cursors.lag old + count := by omega
  rw [hahead] at hsize'
  -- what is left now is the end of what was left with the new items behind it
  obtain ⟨taken, htaken, he⟩ := Bytes.exists_append htotal hless hsize' fun k hk => by
    rw [← hahead] at hk
    rw [hitem' k hk, Bytes.item_append hsize]
    split
    · rw [if_pos (by omega), hitem _ (by omega)]
      exact congrArg content (by omega)
    · rw [if_neg (by omega), Bytes.item_slice hfree.end_le hlast.size_eq (by omega)]
      exact congrArg (last.bytes.item size) (by omega)
  exact ⟨old, ho, hid, hread, taken, htaken, he⟩

/-- What was stored lies where the writer stands, if it was not moved. -/
theorem View.Beside.still {last : View} {data : Bytes} (h : view.Sound capacity size)
    (hroom : view.cursors.Room capacity count) (hdata : data.size = count * size)
    (hb : View.Beside capacity size
      ⟨view.cursors, view.bytes.splice (view.cursors.writeIndex * size) data⟩ last)
    (hlast : last.Sound capacity size) (hfree : last.cursors.Room capacity count)
    (hstill : last.cursors.writeIndex = view.cursors.writeIndex) :
    last.bytes.slice (last.cursors.writeIndex * size) (count * size) = data := by
  have hend := Nat.mul_le_mul_right size hroom.end_le
  rw [Nat.add_mul, ← hdata, ← h.size_eq] at hend
  have hsize : (view.bytes.splice (view.cursors.writeIndex * size) data).size = capacity * size :=
    (Bytes.size_splice hend).trans h.size_eq
  rw [hb.newest hsize hlast.size_eq hfree, hstill, ← hdata]
  exact Bytes.slice_splice hend

variable {backend : Backend} {request : Request} {id granted room n : Nat}
variable {machine allocated : Machine}
variable {buffer : Buffer} {site mid stored last : Site} {sent : Sent} {data : Bytes}

theorem Buffer.allocate_plain (hr : backend.Ready machine.devices)
    (hflat : request.mapping = .single) (hhost : request.owner.context = .hostToHost)
    (ha : Buffer.allocate backend request id machine = .ok buffer allocated) :
    Site.Plain buffer.geometry 0 ⟨allocated, buffer⟩ := by
  obtain ⟨hsound, hfresh, hprovides⟩ := Buffer.allocate_sound hr hflat ha
  refine ⟨⟨hsound, rfl, hprovides.context_eq.trans hhost, hsound.noRoom⟩, fun reader hm => ?_⟩
  have hnone : buffer.cursors.readers = [] := by rw [hfresh]
  exact absurd hm (hnone ▸ List.not_mem_nil)

/-- **Interleaving.** After a production step with calls of the other stages inside, all readers
that remain have what they had not read before, unchanged, and behind it the items that lie where
the writer stood at last. They are those that were stored, if the writer stood there from the
start. -/
theorem interleaved_step_delivers (hr : backend.Ready machine.devices)
    (hflat : request.mapping = .single) (hhost : request.owner.context = .hostToHost)
    (ha : Buffer.allocate backend request id machine = .ok buffer allocated)
    (hplay : Play (Act.Respects .admitted) ⟨allocated, buffer⟩ granted site)
    (hreaders : site.buffer.cursors.readers ≠ []) (hs : Site.space site = .ok room mid)
    (hn : n ≤ room) (hdata : data.size = n * buffer.geometry.itemSize)
    (hstore : Site.store data mid = .ok ⟨⟩ stored)
    (hrun : Run (fun site call => call.sparesRoom = true ∧ call.Respects .admitted site)
      stored sent last)
    (hcount : mid.buffer.cursors.written + n + mid.buffer.cursors.maxLookBack < Word.limit) :
    ∃ after newest, Site.advance n last = .ok ⟨⟩ after ∧
      newest = stored.readable.slice last.buffer.writeOffset (n * buffer.geometry.itemSize) ∧
      mid.buffer.cursors.writeIndex ≤ last.buffer.cursors.writeIndex ∧
      (last.buffer.cursors.writeIndex = mid.buffer.cursors.writeIndex → newest = data) ∧
      ∀ reader ∈ after.buffer.cursors.readers, ∃ old ∈ mid.buffer.cursors.readers,
      old.id = reader.id ∧ old.itemsRead ≤ reader.itemsRead ∧
        ∃ taken, taken.size = (reader.itemsRead - old.itemsRead) * buffer.geometry.itemSize ∧
          mid.left old ++ newest = taken ++ after.left reader := by
  have hstart := Buffer.allocate_plain hr hflat hhost ha
  have hsite := hstart.play Terms.admitted_places hplay
  obtain ⟨hmid, _, _, hfree⟩ := hsite.space.of_ok hs
  -- the room that was told covers what is stored
  have hroom := (hfree hreaders).mono hn
  have hgiven : mid.Plain buffer.geometry n :=
    ⟨hmid.keep hmid.toSound.keeps hmid.toSound hroom, hmid.legible⟩
  have hgeometry := hgiven.geometry_eq
  obtain ⟨hstored, hrecasts⟩ :=
    (hgiven.store (by rw [hgeometry]; exact Nat.le_of_eq hdata)).of_ok hstore
  obtain ⟨hlast, hbeside⟩ := hrun.beside Terms.admitted_places hstored
  have hsees := hstored.sees
  rw [hrecasts.view_eq, hgiven.writeOffset_eq] at hbeside hsees
  -- asides write nothing and declare nothing, so the counters still fit
  have hmoves : last.buffer.cursors.written + n + last.buffer.cursors.maxLookBack < Word.limit := by
    have hwritten : last.buffer.cursors.written = mid.buffer.cursors.written := hbeside.written_eq
    have hback : last.buffer.cursors.maxLookBack = mid.buffer.cursors.maxLookBack :=
      hbeside.maxLookBack_eq
    rw [hwritten, hback]
    exact hcount
  obtain ⟨_, after, he, hafter, ht⟩ := (hlast.move (.inl (Nat.le_refl n)) hmoves).finishes
  have hview := ht.view_eq
  rw [hlast.geometry_eq] at hview
  have hnewest := hbeside.newest hsees.size_eq hlast.sees.size_eq hlast.fits
  refine ⟨after, last.readable.slice last.buffer.writeOffset (n * buffer.geometry.itemSize), he, ?_,
    hbeside.writeIndex_le, fun hstill => ?_, fun reader hm => ?_⟩
  · rw [hrecasts.readable_eq, hlast.writeOffset_eq, hgiven.writeOffset_eq]
    exact hnewest
  · rw [hlast.writeOffset_eq]
    exact hbeside.still hgiven.sees hgiven.fits hdata hlast.sees hlast.fits hstill
  · have hread : reader ∈ last.buffer.cursors.readers := by
      rw [ht.cursors_eq] at hm
      exact hm
    rw [hafter.left_eq, hview, hlast.writeOffset_eq]
    simp only [hgiven.left_eq]
    exact hbeside.delivers hgiven.sees hgiven.tells hgiven.fits
      (Nat.le_of_eq hdata) hlast.sees hlast.fits hread

def Site.turned : Site :=
  [.call (.attach 1 0), .call (.produce 6 1 fun i => i.toUInt8), .call (.read 0 5),
    .call (.produce 2 1 fun i => 6 + i.toUInt8)].foldl (fun site act => Act.after act site)
      (Site.onHeap 8 1)

theorem Site.turned_play : Play (Act.Respects .admitted) (Site.onHeap 8 1) 0 .turned := by
  have hstart : Play (Act.Respects .admitted) (Site.onHeap 8 1) 0 _ := .refl
  have hattached := hstart.tail (.call (.attach 1 0))
    ⟨⟨by decide, by decide, by decide⟩, by decide, nofun, nofun⟩
  have hwritten := hattached.tail (.call (.produce 6 1 fun i => i.toUInt8)) ⟨by decide, by decide⟩
  have hread := hwritten.tail (.call (.read 0 5)) ⟨_, 6, rfl, rfl, by decide⟩
  exact hread.tail (.call (.produce 2 1 fun i => 6 + i.toUInt8)) ⟨by decide, by decide⟩

def Site.stocked : Site := (Act.store #[170, 187]).after .turned

/-- The reader takes one of its three items before the writer moves on. -/
theorem interleaved_step_delivers_heap :
    Play (Act.Respects .admitted) (Site.onHeap 8 1) 0 .turned ∧ Site.space .turned = .ok 5 .turned ∧
      Site.store #[170, 187] .turned = .ok ⟨⟩ .stocked ∧
      Run (fun site call => call.sparesRoom = true ∧ call.Respects .admitted site) .stocked .nothing
        ((Call.read 0 1).after .stocked) ∧
      ∃ after, Site.advance 2 ((Call.read 0 1).after .stocked) = .ok ⟨⟩ after ∧
        ∀ reader ∈ after.buffer.cursors.readers, ∃ old ∈ Site.turned.buffer.cursors.readers,
        old.id = reader.id ∧ ∃ taken, taken.size = reader.itemsRead - old.itemsRead ∧
            Site.turned.left old ++ #[170, 187] = taken ++ after.left reader := by
  have hready : Backend.Ready .heap ({} : Machine).devices := trivial
  have hallocate := Buffer.allocate_onHeap 8 1 1 (by decide)
  have hspace : Site.space .turned = .ok 5 .turned := rfl
  have hstore : Site.store #[170, 187] .turned = .ok ⟨⟩ .stocked := rfl
  have hrun : Run (fun site call => call.sparesRoom = true ∧ call.Respects .admitted site)
      .stocked .nothing
      ((Call.read 0 1).after .stocked) := .tail (.read 0 1) .refl ⟨rfl, _, 3, rfl, rfl, by decide⟩
  obtain ⟨after, newest, he, _, _, hnewest, hreaders⟩ :=
    interleaved_step_delivers hready rfl rfl hallocate
    Site.turned_play (by decide) hspace (show 2 ≤ 5 by decide) rfl hstore hrun (by decide)
  have hdata : newest = #[170, 187] := hnewest (by decide)
  subst hdata
  refine ⟨Site.turned_play, hspace, hstore, hrun, after, he, fun reader hm => ?_⟩
  obtain ⟨old, ho, hid, _, taken, hsize, hleft⟩ := hreaders reader hm
  exact ⟨old, ho, hid, taken, hsize.trans (Nat.mul_one _), hleft⟩

/-- The reader is helped at the end of the region before the writer moves on: it is given two items
that it took before, and what was stored is lost. -/
theorem interleaved_step_loses :
    Play (Act.Respects .admitted) (Site.onHeap 8 1) 0 .turned ∧ Site.space .turned = .ok 5 .turned ∧
      Site.store #[170, 187] .turned = .ok ⟨⟩ .stocked ∧
      Run (fun site call => call.sparesRoom = true ∧ call.Respects .admitted site) .stocked .nothing
        ((Call.unblockInput 0 4).after .stocked) ∧
      ∃ after, Site.advance 2 ((Call.unblockInput 0 4).after .stocked) = .ok ⟨⟩ after ∧
        ∃ old reader, Site.turned.buffer.cursors.readers = [old] ∧
        after.buffer.cursors.readers = [reader] ∧
          reader.itemsRead = old.itemsRead ∧ Site.turned.left old = #[5, 6, 7] ∧
          after.left reader = #[5, 6, 7, 3, 4] ∧
          Site.turned.left old ++ #[170, 187] ≠ after.left reader := by
  have hrun : Run (fun site call => call.sparesRoom = true ∧ call.Respects .admitted site)
      .stocked .nothing
      ((Call.unblockInput 0 4).after .stocked) := .tail (.unblockInput 0 4) .refl ⟨rfl, _, rfl⟩
  have hadvance : Site.advance 2 ((Call.unblockInput 0 4).after .stocked) =
      .ok ⟨⟩ ((Act.move 2).after ((Call.unblockInput 0 4).after .stocked)) := rfl
  have hbefore : Site.turned.left ⟨0, 5, 5, 0, 0⟩ = #[5, 6, 7] := by decide +kernel
  have hafter : ((Act.move 2).after ((Call.unblockInput 0 4).after .stocked)).left ⟨0, 0, 5, 0, 0⟩ =
      #[5, 6, 7, 3, 4] := by
    decide +kernel
  refine ⟨Site.turned_play, rfl, rfl, hrun, _, hadvance, ⟨0, 5, 5, 0, 0⟩,
    ⟨0, 0, 5, 0, 0⟩, by decide, by decide, rfl, hbefore, hafter, ?_⟩
  rw [hbefore, hafter]
  decide

end StreamBuffer
