import StreamBuffer.Proofs.Asides
import StreamBuffer.Proofs.Cursors.Inversion
import StreamBuffer.Proofs.Transitions

/-!
# Buffers without look-back

As long as nobody looks back, no history is ever copied, and a flat buffer is a ring with its seam
at the end of the region. What is left to a reader then tells how far the writer is ahead of it, how
much it finds in one run, and how much room it leaves: the cursors are equal when a reader has
nothing left and when it has a whole round left, and the counts tell the two apart.
-/

namespace StreamBuffer

def Terms.forward : Terms := ⟨fun _ lookBack => lookBack = 0, fun _ lookBack => lookBack = 0⟩

theorem Terms.forward_places : Terms.forward.Places where
  attach _ hl := by
    cases hl
    exact ⟨fun hlt => absurd hlt (Nat.not_lt_zero _), fun _ => Nat.zero_le _⟩
  raise _ hl := by
    cases hl
    exact fun hlt => absurd hlt (Nat.not_lt_zero _)

def Limits.forward : Limits where
  write _ _ := True
  read _ _ _ := True
  declare _ lookBack _ := lookBack = 0
  madeUp := True

namespace Cursors

/-- Nobody ever looked back, and no run of items lies at two places. -/
structure Forward (cursors : Cursors) : Prop where
  maxLookBack_eq : cursors.maxLookBack = 0
  tail_eq : cursors.tail = none

variable {cursors others : Cursors} {capacity lookBack delay most : Nat} {reader : Reader}
variable {geometry : Geometry}
variable {limits : Limits} {plan : Plan} {event : Event} {events : List Event}

/-! ## Places and counts -/

/-- The run of a reader ends where it has caught up with the writer, or at the end of the region. -/
theorem Ordered.available_eq_min (h : cursors.Ordered capacity) (ht : cursors.tail = none)
    (hr : reader ∈ cursors.readers) :
    cursors.available capacity reader = min (cursors.lag reader) (capacity - reader.readIndex) := by
  have hlt := h.writeIndex_lt
  have hend : cursors.wrapEnd capacity = capacity := by unfold wrapEnd; rw [ht]
  unfold available
  split
  · have hplace := (h.wrapped_iff hr).mp ‹_›
    rw [span_of_no_tail ht] at hplace
    omega
  · have hplace := (h.not_wrapped_iff hr).mp ‹_›
    omega

/-- The writer is as many places ahead on the ring as the reader has items left. -/
theorem Ordered.writeIndex_eq_mod (h : cursors.Ordered capacity) (ht : cursors.tail = none)
    (hr : reader ∈ cursors.readers) :
    cursors.writeIndex = (reader.readIndex + cursors.lag reader) % capacity := by
  have hlt := h.writeIndex_lt
  rcases h.along_of_no_tail ht hr with ha | ⟨_, _, ha⟩
  · rw [ha, Nat.mod_eq_of_lt hlt]
  · rw [ha, Nat.add_mod_right, Nat.mod_eq_of_lt hlt]

theorem Forward.lag_eq (hf : cursors.Forward) (h : cursors.Ordered capacity)
    (hr : reader ∈ cursors.readers) :
    cursors.lag reader = cursors.written - reader.itemsRead := by
  have := h.lookBack_le reader hr
  have := hf.maxLookBack_eq
  unfold lag
  omega

/-! ## Transitions -/

namespace Forward

theorem of_eq (hf : cursors.Forward) (hl : others.maxLookBack = cursors.maxLookBack)
    (ht : others.tail = cursors.tail ∨ others.tail = none) : others.Forward :=
  ⟨hl.trans hf.maxLookBack_eq, ht.elim (fun he => he.trans hf.tail_eq) id⟩

theorem refresh (hf : cursors.Forward) (he : cursors.refreshTail = .ok others) :
    others.Forward := by
  rcases refreshTail_eq_ok he with rfl | rfl
  · exact hf
  · exact hf.of_eq rfl (.inr rfl)

theorem raise (hf : cursors.Forward) (he : cursors.raise geometry 0 delay = .ok (others, events)) :
    others.Forward := by
  rcases raise_eq_ok he with rfl | ⟨_, hlt, _⟩
  · exact hf.of_eq (Nat.max_eq_left (Nat.zero_le _)) (.inl rfl)
  · exact absurd hlt (Nat.not_lt_zero _)

theorem not_needsHistory (hf : cursors.Forward) : cursors.needsHistory geometry ≠ .ok true := by
  intro he
  obtain ⟨room, _, he⟩ := bind_eq_ok.mp he
  split at he
  · rename_i hdue
    have hlookBack := hf.maxLookBack_eq
    simp [hasHistory, hlookBack] at hdue
  · cases he

end Forward

theorem Movement.forward (hm : cursors.Movement .forward geometry others) (hf : cursors.Forward) :
    others.Forward := by
  cases hm with
  | write _ he =>
    rw [advanceWriter_eq_ok he]
    exact hf.of_eq rfl (.inl rfl)
  | read _ _ he =>
    obtain ⟨readIndex, _, rfl⟩ := advanceReader_eq_ok he
    exact hf.of_eq rfl (.inl rfl)
  | refresh he => exact hf.refresh he
  | @attach history _ _ _ hd he =>
    obtain ⟨_, raised, _, readIndex, hraise, _, rfl⟩ := attach_eq_ok he
    have hnumbered : Forward { cursors with nextReader := cursors.nextReader + 1 } :=
      hf.of_eq rfl (.inl rfl)
    rw [show history - 1 = 0 from hd] at hraise
    exact (hnumbered.raise hraise).of_eq rfl (.inl rfl)
  | @raise history _ _ _ hd he =>
    rw [show history - 1 = 0 from hd] at he
    exact hf.raise he
  | @detach id _ he =>
    have hwithout : (cursors.without id).Forward := hf.of_eq rfl (.inl rfl)
    exact hwithout.refresh (detach_eq_ok he)
  | @declare reader delay _ _ _ he =>
    have hdeclared : (cursors.replace { reader with sampleDelay := delay }).Forward :=
      hf.of_eq rfl (.inl rfl)
    exact hdeclared.raise he

theorem tail_of_settle (hk : plan.kind ≠ .history)
    (he : plan.settle cursors = .ok (others, event)) :
    others.tail = cursors.tail ∨ others.tail = none := by
  -- Only a copy of history leaves a tail window.
  cases plan with
  | history => exact absurd rfl hk
  | input =>
    obtain ⟨readers, _, he⟩ := bind_eq_ok.mp he
    obtain ⟨writeIndex, _, he⟩ := bind_eq_ok.mp he
    cases he
    exact .inr rfl
  | output =>
    obtain ⟨readers, _, he⟩ := bind_eq_ok.mp he
    cases he
    exact .inl rfl

theorem Relocated.forward (hr : cursors.Relocated limits geometry others) (hf : cursors.Forward) :
    others.Forward := by
  cases hr with
  | stay => exact hf
  | @settle plan _ _ _ hd he =>
    have hkind : plan.kind ≠ .history := by
      cases hd with
      | history hneeded => exact absurd hneeded hf.not_needsHistory
      | input _ _ hplan | wish _ hplan => exact kind_of_planInput hplan ▸ nofun
      | output hplan =>
        obtain ⟨front, kept, rfl, _⟩ := planOutput_eq_ok hplan
        exact nofun
    exact hf.of_eq (Plan.settle_eq_ok he).maxLookBack_eq (tail_of_settle hkind he)

end Cursors

/-! ## Plays -/

variable {site start after : Site} {granted most : Nat} {act : Act}

theorem Call.within_forward {call : Call} (h : call.Respects .forward site) :
    call.Within .forward site := by
  cases call with
  | attach history delay => exact h.2.2
  | raiseHistory history delay => exact h.2
  | declareDelay => rfl
  | write | unblockInputAt => exact h.elim
  | advance | produce => exact fun _ _ _ => trivial
  | read => exact fun _ _ => trivial
  | _ => trivial

theorem Act.within_forward (h : act.Respects .forward granted site) : act.Within .forward site := by
  cases act with
  | call call => exact call.within_forward h
  | _ => trivial

theorem Play.forward (hf : start.buffer.cursors.Forward)
    (hplay : Play (Act.Respects .forward) start granted site) :
    site.buffer.cursors.Forward := by
  induction hplay with
  | refl => exact hf
  | tail act _ hr ih =>
    exact (act.passes (act.within_forward hr)).keeps (fun _ hr => hr.forward ih)
      fun _ _ hm => hm.forward

theorem Site.space_forward (h : site.Sound) (hf : site.buffer.cursors.Forward)
    (hm : site.buffer.cursors.Longest most) : space.Ensures site
      (fun room after => site.Same after ∧
        room = site.buffer.geometry.capacity - max site.buffer.cursors.writeIndex most)
          fun _ _ => False := by
  obtain ⟨reader, hr, _⟩ := hm.attained
  unfold space
  refine .get_bind ?_
  dsimp only
  rw [if_neg (by simpa using List.ne_nil_of_mem hr)]
  apply Action.Ensures.bind (pruneBehindReaders_hides h.delayed)
  intro _ mid hsame
  obtain ⟨needed, hneeded, _⟩ := Cursors.needsHistory_eq h.coherent.toOrdered h.counted
  have hroom := h.coherent.flatRoom_of_no_tail
    (h.counted.countable h.coherent.toOrdered) hf.tail_eq hm
  rw [h.flat]
  unfold flatSpace
  refine .get_bind ?_
  dsimp only
  rw [hsame.cursors_eq, hsame.geometry_eq]
  refine .lift_bind hneeded ?_
  -- No history has to be copied before there is room, so the storage does not matter.
  cases needed with
  | true => exact absurd hneeded hf.not_needsHistory
  | false =>
    refine .get_bind (.lift ?_ ⟨hsame, rfl⟩)
    rw [hsame.cursors_eq]
    exact hroom

variable {backend : Backend} {request : Request} {id : Nat} {machine allocated : Machine}
variable {buffer : Buffer}

/-- **An exact ring.** Stages may come, go and wait at any time, but none looks back. What was
written and a reader did not consume is how far the writer is ahead of the reader on the ring; the
reader gets all of it that lies before the end of the region, and the producer gets all positions up
to the end of the region that the reader with most left does not hold. -/
theorem forward_buffer_is_ring (hr : backend.Ready machine.devices)
    (hflat : request.mapping = .single)
    (ha : Buffer.allocate backend request id machine = .ok buffer allocated)
    (hplay : Play (Act.Respects .forward) ⟨allocated, buffer⟩ granted site) :
    (∀ reader ∈ site.buffer.cursors.readers, reader.itemsRead ≤ site.buffer.cursors.written ∧
      site.buffer.supply reader = .ok (min (site.buffer.cursors.written - reader.itemsRead)
        (buffer.geometry.capacity - reader.readIndex)) ∧
      site.buffer.cursors.writeIndex =
        (reader.readIndex + (site.buffer.cursors.written - reader.itemsRead)) %
        buffer.geometry.capacity) ∧
    (site.buffer.cursors.readers ≠ [] → ∃ last ∈ site.buffer.cursors.readers,
      (∀ reader ∈ site.buffer.cursors.readers,
        site.buffer.cursors.written - reader.itemsRead ≤
          site.buffer.cursors.written - last.itemsRead) ∧
      ∃ after, Site.space site =
        .ok (min (buffer.geometry.capacity - site.buffer.cursors.writeIndex)
        (buffer.geometry.capacity - (site.buffer.cursors.written - last.itemsRead))) after ∧
        after.buffer.cursors = site.buffer.cursors) := by
  obtain ⟨hsound, hcursors, _⟩ := Buffer.allocate_sound hr hflat ha
  have hsite := hplay.poised Terms.forward_places hsound
  have hf : site.buffer.cursors.Forward :=
    hplay.forward (show buffer.cursors.Forward from hcursors ▸ ⟨rfl, rfl⟩)
  have h := hsite.coherent.toOrdered
  have hgeometry : site.buffer.geometry = buffer.geometry := hsite.geometry_eq
  rw [← hgeometry]
  refine ⟨fun reader hm => ?_, fun hne => ?_⟩
  · have hlag := hf.lag_eq h hm
    have hread := (h.placed reader hm).read_le
    have hlookBack := h.lookBack_le reader hm
    rw [hf.maxLookBack_eq] at hlookBack
    refine ⟨by omega, ?_, ?_⟩
    · rw [Site.supply_eq hsite.toSound hm, h.available_eq_min hf.tail_eq hm, hlag]
    · rw [← hlag]
      exact h.writeIndex_eq_mod hf.tail_eq hm
  · -- room ends at the reader that has most left
    obtain ⟨most, hmost⟩ := Cursors.exists_longest hne
    obtain ⟨last, hlast, rfl⟩ := hmost.attained
    have hle := hmost.le
    obtain ⟨room, after, he, hsame, hroom⟩ := (Site.space_forward hsite.toSound hf hmost).finishes
    rw [hf.lag_eq h hlast] at hroom hle
    refine ⟨last, hlast, fun reader hm => hf.lag_eq h hm ▸ hle reader hm, after, ?_,
      hsame.cursors_eq⟩
    rw [he, hroom]
    exact congrArg (fun count => EStateM.Result.ok count after) (by omega)

/-- Four items on the heap: the writer came round with three items unread, and a reader comes late.
One reader finds two of the three before the end of the region. -/
theorem forward_buffer_is_ring_heap :
    ∃ granted site, Play (Act.Respects .forward) (Site.onHeap 4 1) granted site ∧
      site.buffer.cursors.readers = [⟨0, 2, 2, 0, 0⟩, ⟨1, 1, 5, 0, 0⟩] ∧
      site.buffer.supply ⟨0, 2, 2, 0, 0⟩ = .ok 2 ∧ site.buffer.supply ⟨1, 1, 5, 0, 0⟩ = .ok 0 ∧
      site.buffer.cursors.writeIndex = (2 + 3) % 4 ∧ ∃ after, Site.space site = .ok 1 after := by
  have hready : Backend.Ready .heap ({} : Machine).devices := trivial
  have hallocate := Buffer.allocate_onHeap 4 1 1 (by decide)
  have hstart : Play (Act.Respects .forward) (Site.onHeap 4 1) 0 _ := .refl
  have hattached := hstart.tail (.call (.attach 1 0))
    ⟨⟨by decide, by decide, by decide⟩, by decide, rfl⟩
  have hthree := hattached.tail (.call (.advance 3)) (show _ < Word.limit by decide)
  have hread := hthree.tail (.call (.read 0 2)) ⟨_, 3, rfl, rfl, by decide⟩
  -- the fourth item fills the region, and the fifth is the first of the next round
  have hfour := hread.tail (.call (.advance 1)) (show _ < Word.limit by decide)
  have hfive := hfour.tail (.call (.advance 1)) (show _ < Word.limit by decide)
  have hplay := hfive.tail (.call (.attach 1 0)) ⟨⟨by decide, by decide, by decide⟩, by decide, rfl⟩
  obtain ⟨hreaders, hspace⟩ := forward_buffer_is_ring hready rfl hallocate hplay
  obtain ⟨last, hlast, hmost, after, he, _⟩ := hspace nofun
  obtain ⟨_, hfirst, hplace⟩ := hreaders ⟨0, 2, 2, 0, 0⟩ (by decide)
  obtain ⟨_, hsecond, _⟩ := hreaders ⟨1, 1, 5, 0, 0⟩ (by decide)
  refine ⟨_, _, hplay, rfl, hfirst, hsecond, hplace, after, ?_⟩
  rcases List.mem_cons.mp hlast with rfl | hlast
  · exact he
  · cases List.mem_singleton.mp hlast
    exact absurd (hmost ⟨0, 2, 2, 0, 0⟩ (by decide)) (by decide)

end StreamBuffer
