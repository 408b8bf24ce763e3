import StreamBuffer.Proofs.Interleaving

/-!
# Blocked stages are helped

A stage that is blocked asks for help. If help is given, all that is unread is in front of the
writer, for every reader and not only for the one that asked: what a reader had to come round for,
it finds in one run now. If it is not given, nothing differs.
-/

namespace StreamBuffer

/-! ## The cursors -/

/-- The same cursors at other places, and no tail window. -/
def Cursors.arranged (cursors : Cursors) (writeIndex : Nat) (place : Reader → Nat) : Cursors :=
  { cursors with
    writeIndex
    readers := cursors.readers.map fun reader => { reader with readIndex := place reader }
    tail := none }

namespace Plan.Admissible

variable {cursors : Cursors} {capacity : Nat} {plan : Plan} {reader : Reader}

theorem tail_settled (ha : plan.Admissible cursors capacity) (h : cursors.Coherent capacity)
    (hk : plan.kind ≠ .history) :
    (plan.settled cursors).tail = none := by
  cases ha with
  | history => exact absurd rfl hk
  | input => rfl
  | output hpos hkept hfront _ =>
    refine Decidable.byContradiction fun ht => ?_
    obtain ⟨reader, hr, hw⟩ := h.lagging ht
    exact (hfront reader hr).1 hw

/-- Nobody has to come round. -/
theorem landing_add_lag (ha : plan.Admissible cursors capacity) (h : cursors.Ordered capacity)
    (hk : plan.kind ≠ .history) (hr : reader ∈ cursors.readers) :
    plan.landing cursors reader + cursors.lag reader = (plan.settled cursors).writeIndex := by
  cases ha with
  | history => exact absurd rfl hk
  | input hmoved hspan hroom hfront _ =>
    simp only [landing, settled]
    split
    · have := (h.wrapped_iff hr).mp ‹_›
      have := hfront reader hr ‹_›
      omega
    · have := (h.not_wrapped_iff hr).mp ‹_›
      omega
  | output hpos hkept hfront _ =>
    obtain ⟨hw, hle⟩ := hfront reader hr
    have := (h.not_wrapped_iff hr).mp hw
    simp only [landing, settled]
    omega

theorem exists_at_front (ha : plan.Admissible cursors capacity) (hk : plan.kind ≠ .history) :
    ∃ reader ∈ cursors.readers, plan.landing cursors reader = 0 := by
  cases ha with
  | history => exact absurd rfl hk
  | input _ _ _ _ hat =>
    obtain ⟨reader, hr, hw, rfl⟩ := hat
    exact ⟨reader, hr, by simp only [landing, if_pos hw, Nat.sub_self]⟩
  | output _ _ _ hat =>
    obtain ⟨reader, hr, rfl⟩ := hat
    exact ⟨reader, hr, Nat.sub_self _⟩

theorem settled_eq_arranged (ha : plan.Admissible cursors capacity) (h : cursors.Coherent capacity)
    (hk : plan.kind ≠ .history) :
    plan.settled cursors =
      cursors.arranged (plan.settled cursors).writeIndex (plan.landing cursors) := by
  have ht := ha.tail_settled h hk
  unfold Cursors.arranged
  rw [← ht]
  rfl

theorem available_settled (ha : plan.Admissible cursors capacity) (h : cursors.Coherent capacity)
    (hk : plan.kind ≠ .history) (hr : reader ∈ cursors.readers) :
    (plan.settled cursors).available capacity
      { reader with readIndex := plan.landing cursors reader } = cursors.lag reader := by
  have hsettled := (plan.coherent_settled h ha).toOrdered
  have hm : { reader with readIndex := plan.landing cursors reader } ∈
      (plan.settled cursors).readers :=
    List.mem_map.mpr ⟨reader, hr, rfl⟩
  have hplace := ha.landing_add_lag h.toOrdered hk hr
  have hw := (hsettled.not_wrapped_iff hm).mpr hplace
  unfold Cursors.available
  rw [if_neg hw]
  exact Nat.sub_eq_of_eq_add' hplace.symm

end Plan.Admissible

/-! ## The bytes -/

section Views

variable {capacity size : Nat} {view : View} {plan : Plan} {reader : Reader} {content : Nat → Bytes}

/-- A relocation leaves to a reader what was left to it. -/
theorem View.Finds.left_settled (hf : view.Finds capacity size reader content)
    (h : view.cursors.Coherent capacity) (hb : view.bytes.size = capacity * size)
    (ha : plan.Admissible view.cursors capacity) (hr : reader ∈ view.cursors.readers) :
    View.left ⟨plan.settled view.cursors, plan.relocate size view.cursors.writeIndex view.bytes⟩
      capacity size
      { reader with readIndex := plan.landing view.cursors reader } =
        view.left capacity size reader := by
  have hm : { reader with readIndex := plan.landing view.cursors reader } ∈
      (plan.settled view.cursors).readers :=
    List.mem_map.mpr ⟨reader, hr, rfl⟩
  obtain ⟨hsize, hitem⟩ := hf.left h.toOrdered hb hr
  obtain ⟨hsize', hitem'⟩ := (hf.settled h hb ha hr).left (plan.coherent_settled h ha).toOrdered
    (plan.size_relocate h.toOrdered ha hb) hm
  exact Bytes.eq_of_items hsize' hsize fun k hk => (hitem' k hk).trans (hitem k hk).symm

theorem View.left_eq_run (hl : view.cursors.available capacity reader = view.cursors.lag reader) :
    view.left capacity size reader =
      view.bytes.slice (reader.readIndex * size) (view.cursors.lag reader * size) := by
  unfold View.left
  simp only [hl, Nat.sub_self, Nat.zero_mul]
  simp [Bytes.slice]

end Views

/-! ## On the host -/

namespace Site

variable {geometry : Geometry} {granted id required multiple : Nat} {force : Bool}
variable {site after : Site}

/-- All that was unread is in one run for every reader, and the longest run is all that is in front
of the writer. -/
structure Gathered (site after : Site) : Prop extends site.Keeps after where
  whole : ∃ place, after.buffer.cursors =
    site.buffer.cursors.arranged after.buffer.cursors.writeIndex place ∧
    ∀ reader ∈ site.buffer.cursors.readers, ∃ supply,
      after.buffer.supply { reader with readIndex := place reader } = .ok supply ∧
        reader.itemsRead + supply = site.buffer.cursors.written + reader.lookBack ∧
        supply ≤ after.buffer.cursors.writeIndex ∧
        (site.left reader).size = supply * site.buffer.geometry.itemSize ∧
        after.peek { reader with readIndex := place reader } supply = site.left reader
  longest : ∃ reader ∈ after.buffer.cursors.readers, after.buffer.supply reader =
    .ok after.buffer.cursors.writeIndex

structure Helped (site : Site) (moved : Bool) (after : Site) : Prop where
  gathered : moved = true → site.Gathered after
  same : moved = false → site.Same after

namespace Plain

theorem gathered {plan : Plan} (h : site.Plain geometry granted)
    (ha : plan.Admissible site.buffer.cursors site.buffer.geometry.capacity)
    (hk : plan.kind ≠ .history) (hkeeps : site.Keeps after)
    (hv : after.view =
      ⟨plan.settled site.buffer.cursors,
        plan.relocate site.buffer.geometry.itemSize site.buffer.cursors.writeIndex site.readable⟩) :
    site.Gathered after := by
  have hcursors : after.buffer.cursors = plan.settled site.buffer.cursors :=
    congrArg View.cursors hv
  have hpath : site.Moves .early .nothing after := ⟨hkeeps, hv ▸ .single (.relocate ha)⟩
  have hafter := hpath.sound h.toSound
  have hwindow := (plan.coherent_settled h.coherent ha).writeIndex_lt
  have hsupply : ∀ reader ∈ site.buffer.cursors.readers,
      after.buffer.supply { reader with readIndex := plan.landing site.buffer.cursors reader } =
        .ok (site.buffer.cursors.lag reader) := by
    intro reader hr
    have hm : { reader with readIndex := plan.landing site.buffer.cursors reader } ∈
        after.buffer.cursors.readers :=
      hcursors ▸ List.mem_map.mpr ⟨reader, hr, rfl⟩
    rw [supply_eq hafter hm, hcursors, hkeeps.geometry_eq, ha.available_settled h.coherent hk hr]
  refine ⟨hkeeps, ⟨plan.landing site.buffer.cursors, ?_, fun reader hr => ?_⟩, ?_⟩
  · rw [hcursors]
    exact ha.settled_eq_arranged h.coherent hk
  · have hplace := ha.landing_add_lag h.coherent.toOrdered hk hr
    -- what was left to it in two pieces is left to it in one
    obtain ⟨content, hf⟩ := h.legible reader hr
    have hleft := hf.left_settled h.coherent h.size_readable ha hr
    rw [View.left_eq_run (ha.available_settled h.coherent hk hr)] at hleft
    have hread := (h.coherent.placed reader hr).read_le
    refine ⟨_, hsupply reader hr, Nat.add_sub_cancel' hread, ?_,
      (hf.left h.coherent.toOrdered h.size_readable hr).1, ?_⟩
    · rw [hcursors]
      omega
    · have hend : plan.landing site.buffer.cursors reader + site.buffer.cursors.lag reader ≤
          after.buffer.geometry.capacity := by
        rw [hkeeps.geometry_eq]
        omega
      have hbytes : after.readable =
          plan.relocate site.buffer.geometry.itemSize site.buffer.cursors.writeIndex
          site.readable := congrArg View.bytes hv
      rw [peek_eq hend, hkeeps.geometry_eq, hbytes]
      exact hleft
  · -- the reader at the front has the longest run
    obtain ⟨reader, hr, h0⟩ := ha.exists_at_front hk
    have hplace := ha.landing_add_lag h.coherent.toOrdered hk hr
    refine ⟨_, hcursors ▸ List.mem_map.mpr ⟨reader, hr, rfl⟩, (hsupply reader hr).trans ?_⟩
    rw [hcursors, ← hplace, h0, Nat.zero_add]

theorem follow_helps {decision : Decision} (h : site.Plain geometry granted)
    (hd : ∀ plan, decision = .planned plan →
      plan.Admissible site.buffer.cursors site.buffer.geometry.capacity ∧ plan.kind ≠ .history) :
    (follow decision).Ensures site site.Helped fun _ _ => False := by
  cases decision with
  | idle => exact ⟨nofun, fun _ => .refl site⟩
  | blocked event => exact ⟨nofun, fun _ => ⟨rfl, rfl, rfl, rfl⟩⟩
  | planned plan =>
    obtain ⟨ha, hk⟩ := hd plan rfl
    have hcarried := (carryOut_views h.toSound ha).mono (fun _ _ hd => hd)
      fun _ _ hb => h.unrefused hb.refuses
    apply hcarried.bind
    rintro _ after ⟨hkeeps, hv⟩
    exact .pure ⟨fun _ => h.gathered ha hk hkeeps hv, nofun⟩

theorem unblockInput_helps {reader : Reader} (h : site.Plain geometry granted)
    (hr : site.buffer.cursors.reader? id = some reader) (required : Nat) :
    (unblockInput id required).Ensures site site.Helped fun _ _ => False := by
  obtain ⟨decision, hd, hplan⟩ := Cursors.planInput_eq h.coherent.toOrdered h.counted h.capacity_lt
    (Cursors.mem_of_reader? hr).1 required
  have hforward : ∀ plan, decision = .planned plan →
      plan.Admissible site.buffer.cursors site.buffer.geometry.capacity ∧ plan.kind ≠ .history := by
    intro plan he
    rw [Cursors.kind_of_planInput (he ▸ hd)]
    exact ⟨hplan plan he, nofun⟩
  exact unblockInput_follows h.toSound hr hd (h.follow_helps hforward)

theorem unblockOutput_helps (h : site.Plain geometry granted) (multiple : Nat) (force : Bool) :
    (unblockOutput multiple force).Ensures site site.Helped fun _ _ => False := by
  obtain ⟨decision, hd, hplan⟩ :=
    Cursors.planOutput_eq h.coherent.toOrdered h.counted multiple force
  have hforward : ∀ plan, decision = .planned plan →
      plan.Admissible site.buffer.cursors site.buffer.geometry.capacity ∧ plan.kind ≠ .history := by
    intro plan he
    obtain ⟨front, kept, rfl, _⟩ := Cursors.planOutput_eq_ok (he ▸ hd)
    exact ⟨hplan _ he, nofun⟩
  have hfollow := h.follow_helps hforward
  unfold unblockOutput
  apply Action.Ensures.ok_bind (isFlat_eq h.flat)
  exact .get_bind (.lift_bind hd hfollow)

end Plain

end Site

variable {backend : Backend} {request : Request} {id granted : Nat} {machine allocated : Machine}
variable {buffer : Buffer}
variable {site : Site}

/-- **Gathering.** On the host, a blocked reader or a blocked producer that is helped has all that
is unread gathered for all readers; one that is not helped finds nothing changed. -/
theorem blocked_stages_gather (hr : backend.Ready machine.devices)
    (hflat : request.mapping = .single) (hhost : request.owner.context = .hostToHost)
    (ha : Buffer.allocate backend request id machine = .ok buffer allocated)
    (hplay : Play (Act.Respects .admitted) ⟨allocated, buffer⟩ granted site) :
    (∀ id reader, site.buffer.cursors.reader? id = some reader → ∀ required, ∃ moved after,
      Site.unblockInput id required site = .ok moved after ∧ site.Helped moved after) ∧
    ∀ multiple force, ∃ moved after,
      Site.unblockOutput multiple force site = .ok moved after ∧ site.Helped moved after := by
  have hsite := (Buffer.allocate_plain hr hflat hhost ha).play Terms.admitted_places hplay
  exact ⟨fun id reader hr required => (hsite.unblockInput_helps hr required).finishes,
    fun multiple force => (hsite.unblockOutput_helps multiple force).finishes⟩

def Site.split : Site :=
  [.attach 1 0, .produce 8 1 fun i => i.toUInt8, .read 0 6,
    .produce 2 1 fun i => 8 + i.toUInt8].foldl
    (fun site call => Call.after call site) (Site.onHeap 8 1)

/-- On the heap: the reader is spared to come round. -/
theorem blocked_stages_gather_heap :
    Play (Act.Respects .admitted) (Site.onHeap 8 1) 0 .split ∧
    Site.split.buffer.supply ⟨0, 6, 6, 0, 0⟩ = .ok 2 ∧
      ∃ after, Site.unblockInput 0 4 .split = .ok true after ∧ Site.split.Gathered after := by
  have hready : Backend.Ready .heap ({} : Machine).devices := trivial
  have hallocate := Buffer.allocate_onHeap 8 1 1 (by decide)
  have hstart : Play (Act.Respects .admitted) (Site.onHeap 8 1) 0 _ := .refl
  have hattached := hstart.tail (.call (.attach 1 0))
    ⟨⟨by decide, by decide, by decide⟩, by decide, nofun, nofun⟩
  have hwritten := hattached.tail (.call (.produce 8 1 fun i => i.toUInt8)) ⟨by decide, by decide⟩
  have hread := hwritten.tail (.call (.read 0 6)) ⟨_, 8, rfl, rfl, by decide⟩
  have hplay : Play (Act.Respects .admitted) (Site.onHeap 8 1) 0 .split :=
    hread.tail (.call (.produce 2 1 fun i => 8 + i.toUInt8)) ⟨by decide, by decide⟩
  have hmoves :
      (match Site.unblockInput 0 4 .split with | .ok moved _ => moved | .error .. => false) =
        true := by
    decide +kernel
  obtain ⟨hinput, _⟩ := blocked_stages_gather hready rfl rfl hallocate hplay
  obtain ⟨moved, after, he, hh⟩ := hinput 0 ⟨0, 6, 6, 0, 0⟩ (by decide) 4
  rw [he] at hmoves
  subst hmoves
  exact ⟨hplay, rfl, after, he, hh.gathered rfl⟩

/-- A reader that looks two items back takes one of them, and longer look-back is declared before
anything is written: the reader is put back by all of its look-back. -/
def Site.redeclared : Site :=
  [.attach 3 0, .read 0 1, .raiseHistory 5 0].foldl (fun site call => Call.after call site)
    (Site.onHeap 8 1)

/-- Once the producer is helped the reader finds two items where one is left to it. -/
theorem gathering_counts_an_item_twice :
    Play (Act.Respects ⟨fun cursors _ => cursors.Fresh, fun _ _ => True⟩)
      (Site.onHeap 8 1) 0 .redeclared ∧
      ∃ after, Site.unblockOutput 1 true .redeclared = .ok true after ∧
        after.buffer.cursors.readers = [⟨0, 0, 1, 2, 0⟩] ∧ after.buffer.cursors.written = 0 ∧
        after.buffer.supply ⟨0, 0, 1, 2, 0⟩ = .ok 2 ∧ ¬ Site.redeclared.Gathered after := by
  have hstart : Play (Act.Respects ⟨fun cursors _ => cursors.Fresh, fun _ _ => True⟩)
      (Site.onHeap 8 1) 0 _ :=
    .refl
  have hattached := hstart.tail (.call (.attach 3 0))
    ⟨⟨by decide, by decide, by decide⟩, by decide, rfl, nofun⟩
  have hread := hattached.tail (.call (.read 0 1)) ⟨_, 2, rfl, rfl, by decide⟩
  have hplay : Play (Act.Respects ⟨fun cursors _ => cursors.Fresh, fun _ _ => True⟩)
      (Site.onHeap 8 1) 0
      .redeclared := hread.tail (.call (.raiseHistory 5 0))
        ⟨⟨by decide, by decide, by decide⟩, trivial⟩
  have hbefore : Site.redeclared.buffer.cursors.readers = [⟨0, 2, 1, 2, 0⟩] := by decide
  have hafter : ((Call.unblockOutput 1 true).after .redeclared).buffer.cursors.readers =
      [⟨0, 0, 1, 2, 0⟩] := by decide
  have hsupply : ((Call.unblockOutput 1 true).after .redeclared).buffer.supply ⟨0, 0, 1, 2, 0⟩ =
      .ok 2 := rfl
  refine ⟨hplay, (Call.unblockOutput 1 true).after .redeclared, rfl, hafter, rfl, hsupply,
    fun hgathered => ?_⟩
  obtain ⟨place, hcursors, hwhole⟩ := hgathered.whole
  have hplace :
      [({ id := 0, readIndex := 0, itemsRead := 1, lookBack := 2, sampleDelay := 0 } : Reader)] =
        [{ id := 0, readIndex := place ⟨0, 2, 1, 2, 0⟩, itemsRead := 1, lookBack := 2,
           sampleDelay := 0 }] := by
    have hreaders := congrArg Cursors.readers hcursors
    simp only [Cursors.arranged, hbefore] at hreaders
    exact hafter.symm.trans hreaders
  obtain ⟨supply, hfound, hcount, _⟩ := hwhole ⟨0, 2, 1, 2, 0⟩ (hbefore ▸ List.mem_singleton_self _)
  injection hplace with hfirst
  injection hfirst with _ hfront
  rw [← hfront] at hfound
  cases hsupply.symm.trans hfound
  exact absurd hcount (by decide)

end StreamBuffer
