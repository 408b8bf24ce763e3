import StreamBuffer.Proofs.Cursors.Strides
import StreamBuffer.Proofs.Retry

/-!
# Beside the producer

While the producer holds the room that it was granted, other stages read, leave, declare delays and
wait. An `Aside` is what any of their calls does to a buffer. None of them takes room away, and so a
producer that keeps to its room stays within it in any play.
-/

namespace StreamBuffer

/-- What a call that is not the producer's does. -/
inductive Aside (capacity size : Nat) : View → View → Prop where
  | rest {view : View} : Aside capacity size view view
  | consume {view : View} {reader : Reader} {items : Nat} (hr : reader ∈ view.cursors.readers)
      (hi : items ≤ view.cursors.available capacity reader) :
      Aside capacity size view
        ⟨(view.cursors.replace (view.cursors.consumed capacity reader items)).refreshed, view.bytes⟩
  | detach {view : View} (id : Nat) :
      Aside capacity size view ⟨(view.cursors.without id).refreshed, view.bytes⟩
  | declare {view : View} {reader : Reader} {delay : Nat} (hr : reader ∈ view.cursors.readers)
      (hdelay : delay + capacity < Word.limit) :
      Aside capacity size view
        ⟨(view.cursors.replace { reader with sampleDelay := delay }).raised 0 delay, view.bytes⟩
  | unblock {view : View} {plan : Plan} (hk : plan.kind = .input)
      (ha : plan.Admissible view.cursors capacity) :
      Aside capacity size view
        ⟨plan.settled view.cursors, plan.relocate size view.cursors.writeIndex view.bytes⟩

variable {terms : Terms} {capacity size count : Nat} {view after : View}

theorem Aside.path (ha : Aside capacity size view after) :
    Path terms capacity size view .nothing after := by
  cases ha with
  | rest => exact .refl
  | consume hr hi => exact .single (.consume hr hi)
  | detach id => exact .single (.detach id)
  | declare hr hdelay => exact .single (.declare hr hdelay)
  | unblock _ ha => exact .single (.relocate ha)

/-! ## Room -/

namespace Cursors

variable {cursors : Cursors} {items : Nat} {reader : Reader}

theorem Room.refreshed (h : cursors.Room capacity count) :
    cursors.refreshed.Room capacity count := by
  unfold Cursors.refreshed
  split
  · exact h
  · exact ⟨h.end_le, h.before⟩

theorem Room.without (h : cursors.Room capacity count) (id : Nat) :
    (cursors.without id).Room capacity count :=
  ⟨h.end_le, fun reader hr => h.before reader (List.eraseP_sublist.subset hr)⟩

theorem Room.replace (h : cursors.Room capacity count) {other : Reader}
    (hr : reader ∈ cursors.readers) (hid : other.id = reader.id)
    (ho : cursors.Wrapped other → cursors.writeIndex + count ≤ other.readIndex) :
    (cursors.replace other).Room capacity count := by
  refine ⟨h.end_le, fun r hm hw => ?_⟩
  rcases (mem_replace hr _ hid).mp hm with rfl | ⟨hold, _⟩
  · exact ho hw
  · exact h.before r hold hw

/-- Who has yet to come round had to before, and has not passed the end. -/
theorem Ordered.wrapped_of_consumed (h : cursors.Ordered capacity) (hr : reader ∈ cursors.readers)
    (hi : items ≤ cursors.available capacity reader)
    (hw : cursors.Wrapped (cursors.consumed capacity reader items)) :
    cursors.Wrapped reader ∧
    (cursors.consumed capacity reader items).readIndex = reader.readIndex + items := by
  obtain ⟨hring, _, hround, _⟩ := h.ring
  obtain ⟨hlag, _, hfits⟩ := h.available_spec hr
  have hleft : cursors.lag (cursors.consumed capacity reader items) =
      cursors.lag reader - items := by
    simp only [lag, consumed]
    omega
  have hread : (cursors.consumed capacity reader items).readIndex =
    cursors.fold capacity (reader.readIndex + items) := rfl
  unfold Wrapped at hw
  rw [hread, hleft] at hw
  rw [hread]
  by_cases hwr : cursors.Wrapped reader
  · have := (h.wrapped_iff hr).mp hwr
    by_cases hspan : reader.readIndex + items < cursors.span capacity
    · exact ⟨hwr, fold_of_lt hspan⟩
    · rw [fold, if_neg hspan] at hw
      omega
  · have := (h.not_wrapped_iff hr).mp hwr
    rw [available, if_neg hwr] at hi
    rw [fold_of_lt (by omega)] at hw
    omega

theorem Room.consume (h : cursors.Room capacity count) (hc : cursors.Ordered capacity)
    (hr : reader ∈ cursors.readers) (hi : items ≤ cursors.available capacity reader) :
    (cursors.replace (cursors.consumed capacity reader items)).Room capacity count := by
  have hid : (cursors.consumed capacity reader items).id = reader.id := rfl
  apply h.replace hr hid
  intro hw
  obtain ⟨hwrapped, hread⟩ := hc.wrapped_of_consumed hr hi hw
  have := h.before reader hr hwrapped
  omega

/-- What is taken to the front was behind the room, and its place is taken from there. -/
theorem Room.unblock {plan : Plan} (h : cursors.Room capacity count)
    (hc : cursors.Coherent capacity) (hk : plan.kind = .input)
    (ha : plan.Admissible cursors capacity) :
    (plan.settled cursors).Room capacity count := by
  have hring := hc.ring
  cases ha with
  | history | output => cases hk
  | @input required front moved hmoved hspan hroom hfront hat =>
    obtain ⟨first, hfm, hfw, hfr⟩ := hat
    have := h.before first hfm hfw
    refine ⟨by simp only [Plan.settled]; omega, fun landed hm hw => ?_⟩
    -- nobody has to come round any more
    obtain ⟨reader, hr, rfl⟩ := List.mem_map.mp hm
    rw [Plan.wrapped_settled rfl] at hw
    simp only [Plan.settled, Plan.landing] at hw ⊢
    by_cases hwr : cursors.Wrapped reader
    · have := (hc.wrapped_iff hr).mp hwr
      rw [if_pos hwr] at hw
      omega
    · have := (hc.not_wrapped_iff hr).mp hwr
      rw [if_neg hwr] at hw
      omega

theorem raised_zero (cursors : Cursors) (delay : Nat) :
    cursors.raised 0 delay = cursors.withMaxima 0 delay :=
  if_neg fun h => Nat.not_lt_zero _ h.1

end Cursors

theorem Aside.room (ha : Aside capacity size view after) (h : view.cursors.Coherent capacity)
    (hroom : view.cursors.Room capacity count) : after.cursors.Room capacity count := by
  cases ha with
  | rest => exact hroom
  | consume hr hi => exact (hroom.consume h.toOrdered hr hi).refreshed
  | detach id => exact (hroom.without id).refreshed
  | @declare reader delay hr _ =>
    have hdeclared : (view.cursors.replace { reader with sampleDelay := delay }).Room
        capacity count :=
      hroom.replace hr (by rfl) fun hw => hroom.before reader hr hw
    rw [Cursors.raised_zero]
    exact ⟨hdeclared.end_le, hdeclared.before⟩
  | unblock hk ha => exact hroom.unblock h hk ha

/-! ## Calls -/

namespace Site

variable {site after : Site} {id : Nat} {reader : Reader} {cursors : Cursors}

structure Spares (site after : Site) : Prop extends Keeps site after where
  aside : Aside site.buffer.geometry.capacity site.buffer.geometry.itemSize site.view after.view

theorem Turns.spares (ht : site.Turns cursors after) (h : site.Sound)
    (ha : Aside site.buffer.geometry.capacity site.buffer.geometry.itemSize site.view
      ⟨cursors, site.readable⟩) :
    site.Spares after := ⟨ht.keeps h, ht.view_eq ▸ ha⟩

theorem Same.spares (hs : site.Same after) (h : site.Sound) : site.Spares after :=
  Turns.spares hs h .rest

theorem Spares.sound (hs : site.Spares after) (h : site.Sound) : after.Sound :=
  have hm : site.Moves .early .nothing after := ⟨hs.toKeeps, hs.aside.path⟩
  hm.sound h

theorem Sound.enclosed (h : site.Sound) :
    site.Enclosed site.buffer.geometry site.buffer.storage.context := by
  refine ⟨h.toSolid, rfl, rfl, h.coherent.writeIndex_lt, fun reader hr => ?_,
    h.coherent.maxLookBack_lt, fun tail ht => ?_⟩
  · have := h.coherent.readIndex_lt hr
    have := h.coherent.ring
    omega
  · obtain ⟨hstart, hstop, _, hw, _⟩ := h.coherent.window tail ht
    omega

theorem unblockInput_spares (h : site.Sound) (hr : site.buffer.cursors.reader? id = some reader)
    (required : Nat) :
    (unblockInput id required).Ensures site (fun _ after => site.Spares after)
      fun _ after => after = site := by
  obtain ⟨hm, _⟩ := Cursors.mem_of_reader? hr
  obtain ⟨decision, hd, hplan⟩ :=
    Cursors.planInput_eq h.coherent.toOrdered h.counted h.capacity_lt hm required
  have hspares : (unblockInput id required).Ensures site (fun _ after => site.Spares after)
      fun stop _ =>
      ∃ error, stop = .error error := by
    apply unblockInput_follows h hr hd
    cases decision with
    | idle => exact Same.spares (.refl site) h
    | blocked event => exact Same.spares ⟨rfl, rfl, rfl, rfl⟩ h
    | planned plan =>
      apply Action.Ensures.bind ((carryOut_views h (hplan plan rfl)).mono (fun _ _ hv => hv) _)
      · rintro _ mid ⟨hk, hv⟩
        refine Action.Ensures.pure ⟨hk, ?_⟩
        rw [hv]
        exact .unblock (Cursors.kind_of_planInput hd) (hplan plan rfl)
      · rintro stop _ ⟨_, number, _, hrefuses⟩
        cases hrefuses <;> exact ⟨_, rfl⟩
  apply (hspares.both (unblockInput_untouched h.enclosed id required)).mono
  · exact fun _ _ hd => hd.1
  · rintro stop after ⟨⟨error, he⟩, hu⟩
    exact hu error he

end Site

theorem Call.perform_spares {call : Call} {site : Site} (h : site.Sound)
    (hs : call.sparesRoom = true) (hr : call.Respects terms site) :
    call.perform.Ensures site (fun _ after => site.Spares after) fun _ after => after = site := by
  have hides : ∀ {α} {action : Action Site α} {f : α → Answer}, site.Hides action →
      (action >>= fun a => pure (f a)).Ensures site (fun _ after => site.Spares after)
        fun _ after => after = site :=
    fun hh => hh.sure_bind fun _ _ hs => .pure (hs.spares h)
  cases call with
  | detach id =>
    obtain ⟨reader, hr⟩ := hr
    have hturns := Site.detach_turns (h.counted.countable h.coherent.toOrdered) hr
    apply hturns.sure_bind
    exact fun _ _ ht => .pure (ht.spares h (.detach id))
  | read id items =>
    obtain ⟨reader, supply, hr, hsupply, hi⟩ := hr
    obtain ⟨hm, _⟩ := Cursors.mem_of_reader? hr
    rw [Site.supply_eq h hm] at hsupply
    cases hsupply
    apply (Site.read_consumes h hr hi).sure_bind
    exact fun _ _ ht => .pure (ht.spares h (.consume hm hi))
  | supply id =>
    obtain ⟨reader, hr⟩ := hr
    exact .ok_bind (Site.supply_run h hr) (.pure (Site.Same.spares (.refl site) h))
  | declareDelay id delay =>
    obtain ⟨⟨reader, hr⟩, hdelay⟩ := hr
    apply (Site.declareDelay_turns h hr).sure_bind
    exact fun _ _ ht => .pure (ht.spares h (.declare (Cursors.mem_of_reader? hr).1 hdelay))
  | unblockInput id required =>
    obtain ⟨reader, hr⟩ := hr
    exact Action.Ensures.bind (Site.unblockInput_spares h hr required) fun _ _ hs => .pure hs
  | isInputBlocked id required =>
    obtain ⟨reader, hr⟩ := hr
    exact hides (Site.isInputBlocked_spec h hr)
  | isInputBlockedAt required readIndex => exact hides (Site.isInputBlockedAt_spec h)
  | tag new => exact Site.Same.spares ⟨rfl, rfl, rfl, rfl⟩ h
  | untag old consumer => exact Site.Same.spares ⟨rfl, rfl, rfl, rfl⟩ h
  | prune time => exact hides (Site.prune_hides h.delayed time)
  | tags id start stop consumer =>
    obtain ⟨reader, hr, ht⟩ := hr
    exact hides (Site.tags_hides hr ht)
  | setDone done => exact Site.Same.spares ⟨rfl, rfl, rfl, rfl⟩ h
  | _ => cases hs

/-! ## The granted room -/

structure Site.Poised (geometry : Geometry) (context : Context) (granted : Nat) (site : Site) : Prop
    extends Sound site where
  geometry_eq : site.buffer.geometry = geometry
  context_eq : site.buffer.storage.context = context
  room : site.buffer.cursors.Room site.buffer.geometry.capacity granted

section Poised

variable {geometry : Geometry} {context : Context} {start site after : Site} {granted : Nat}
variable {act : Act} {bytes : Bytes}

theorem Site.Sound.poised (h : site.Sound) :
    site.Poised site.buffer.geometry site.buffer.storage.context 0 :=
  ⟨h, rfl, rfl, h.noRoom⟩

namespace Site.Poised

theorem keep (h : site.Poised geometry context granted) (hk : site.Keeps after) (hs : after.Sound)
    (hr : after.buffer.cursors.Room after.buffer.geometry.capacity count) :
    after.Poised geometry context count :=
  ⟨hs, hk.geometry_eq.trans h.geometry_eq, hk.context_eq.trans h.context_eq, hr⟩

theorem recast (h : site.Poised geometry context granted) (hr : site.Recasts bytes after) :
    after.Poised geometry context granted := by
  apply h.keep hr.keeps ((hr.spoils h.toSound .early).sound h.toSound)
  rw [hr.cursors_eq, hr.geometry_eq]
  exact h.room

theorem spare (h : site.Poised geometry context granted) (hs : site.Spares after) :
    after.Poised geometry context granted := by
  apply h.keep hs.toKeeps (hs.sound h.toSound)
  rw [hs.geometry_eq]
  exact hs.aside.room h.coherent h.room

theorem move {items : Nat} (h : site.Poised geometry context granted)
    (hi : items ≤ granted ∨ site.buffer.cursors.readers = [] ∧
      items ≤ site.buffer.geometry.capacity)
    (hcount : site.buffer.cursors.written + items + site.buffer.cursors.maxLookBack < Word.limit) :
    (advance items).Ensures site (fun _ after => after.Poised geometry context (granted - items) ∧
      site.Turns (site.buffer.cursors.wrote site.buffer.geometry.capacity items) after)
        fun _ _ => False := by
  have hend := h.room.end_le
  have hskip : site.buffer.cursors.Room site.buffer.geometry.capacity items ∨
      site.buffer.cursors.readers = [] :=
    hi.imp (fun hle => h.room.mono hle) And.left
  have hroom : (site.buffer.cursors.wrote site.buffer.geometry.capacity items).Room
      site.buffer.geometry.capacity
      (granted - items) := by
    by_cases hle : items ≤ granted
    · have hgranted : items + (granted - items) = granted := Nat.add_sub_cancel' hle
      exact Cursors.Room.wrote (hgranted.symm ▸ h.room) h.coherent
    · obtain ⟨hnone, _⟩ := hi.resolve_left hle
      have hlt := Nat.mod_lt (site.buffer.cursors.writeIndex + items)
        (Nat.zero_lt_of_lt h.coherent.writeIndex_lt)
      refine ⟨by simp only [Cursors.wrote]; omega, fun reader hr => ?_⟩
      simp [Cursors.wrote, hnone] at hr
  apply (advance_spec h.toSound items (by omega) hcount).mono
  · intro _ after ht
    have hm : site.Moves .early none after := ht.moves h.toSound (.skip hskip hcount)
    refine ⟨h.keep hm.toKeeps (hm.sound h.toSound) ?_, ht⟩
    rw [ht.cursors_eq, ht.geometry_eq]
    exact hroom
  · exact fun _ _ hf => hf

theorem fault (h : site.Poised geometry context granted) (device : Nat) (on : Bool) :
    (site.withDevices (site.machine.devices.setFaulty device on)).Poised geometry
      context granted := by
  obtain ⟨hbacked, hreadable⟩ := h.backed.setFaulty device on
  have hview : (site.withDevices (site.machine.devices.setFaulty device on)).view = site.view :=
    congrArg (View.mk site.buffer.cursors) hreadable
  refine ⟨⟨⟨h.measured, hbacked⟩, h.flat, ?_⟩, h.geometry_eq, h.context_eq, h.room⟩
  rw [hview]
  exact h.view

/-- What is granted ends in the region and before all wrapped readers. -/
theorem space (h : site.Poised geometry context granted) : Site.space.Ensures site
    (fun room after => after.Poised geometry context
      (min room (after.buffer.geometry.capacity - after.buffer.cursors.writeIndex)))
    fun _ after => after.Poised geometry context 0 := by
  have hspace : site.Takes .early Site.space _ := space_spec h.toSound
  apply Action.Ensures.mono hspace
  · rintro room after ⟨sent, hm, _, hc, hroom, _⟩
    have hafter := hm.sound h.toSound
    have hlt := hafter.coherent.writeIndex_lt
    refine h.keep hm.toKeeps hafter ⟨by omega, fun reader hr hw => ?_⟩
    have hreaders : site.buffer.cursors.readers ≠ [] := fun hn => by
      rw [hc.readers_eq_nil_iff.mpr hn] at hr
      cases hr
    have := (hroom hreaders).before reader hr hw
    omega
  · rintro stop after hs
    obtain ⟨sent, hm⟩ := hs.moves
    exact h.keep hm.toKeeps (hm.sound h.toSound) (hm.sound h.toSound).noRoom

end Site.Poised

theorem Act.grants_of_spares {call : Call} (hs : call.sparesRoom = true) :
    (Act.call call).grants granted site = granted := by
  cases call <;> first | rfl | cases hs

theorem Act.grants_of_takes {call : Call} (hs : call.sparesRoom = false) (hn : call ≠ .space) :
    (Act.call call).grants granted site = 0 := by
  cases call <;> first | exact absurd rfl hn | rfl | cases hs

theorem Act.poised (hp : terms.Places) (h : site.Poised geometry context granted)
    (hr : act.Respects terms granted site) :
    (act.after site).Poised geometry context (act.grants granted site) := by
  have hend := h.room.end_le
  have hsize := Nat.mul_le_mul_right site.buffer.geometry.itemSize hend
  rw [Nat.add_mul] at hsize
  cases act with
  | call call =>
    by_cases hspace : call = .space
    · subst hspace
      unfold Act.after Act.grants Act.perform Call.perform
      dsimp only
      cases he : Site.space site with
      | ok room after =>
        rw [Action.bind_of_ok _ he]
        exact h.space.of_ok he
      | error stop after =>
        rw [Action.bind_of_error _ he]
        exact h.space.of_error he
    · cases hs : call.sparesRoom with
      | true =>
        rw [grants_of_spares hs]
        apply Act.after_of
        exact (call.perform_spares h.toSound hs hr).mono (fun _ _ hd => h.spare hd)
          fun _ _ he => he ▸ h
      | false =>
        rw [grants_of_takes hs hspace]
        -- calls of the producer use up the room
        have hm := call.moves hp h.toSound hr
        exact h.keep hm.toKeeps (hm.sound h.toSound) (hm.sound h.toSound).noRoom
  | store data =>
    have hdata : site.buffer.writeOffset + data.size ≤ site.buffer.geometry.bytes :=
      Nat.le_trans (Nat.add_le_add_left hr _) hsize
    apply Act.after_of
    apply (Site.store_spec h.toSolid hdata).sure_bind
    exact fun _ _ hd => .pure (h.recast hd.1)
  | post items =>
    have hitems : items ≤ granted := hr
    -- published or refused, only what readers see may differ
    have hpost := (Site.post_spec h.toSolid items (by omega)).mono (fun _ _ hd => h.recast hd)
      fun _ _ hb => by
      obtain ⟨_, hrecasts⟩ := hb.recasts
      exact h.recast hrecasts
    apply Act.after_of
    exact Action.Ensures.bind hpost fun _ _ hd => .pure hd
  | move items =>
    apply Act.after_of
    apply (h.move hr.1 hr.2).sure_bind
    exact fun _ _ hd => .pure hd.1
  | fault device on => exact h.fault device on

/-- A producer that keeps to the terms stays in its room, whatever happens beside it. -/
theorem Play.poised (hp : terms.Places) (h : start.Sound)
    (hplay : Play (Act.Respects terms) start granted site) :
    site.Poised start.buffer.geometry start.buffer.storage.context granted := by
  induction hplay with
  | refl => exact h.poised
  | tail act _ hr ih => exact act.poised hp ih hr

end Poised

end StreamBuffer
