import StreamBuffer.Proofs.Asides
import StreamBuffer.Proofs.Cursors.Foresight

/-!
# Room in a drained buffer

A producer waits for room until readers have consumed something. Once they have consumed all there
is, nobody will make room any more; what the producer gets then, at once or after data was moved to
the front, it gets from the buffer alone. A margin in the capacity makes sure that it gets a whole
multiple. Without the margin it may get nothing, and never will: this is told exactly by what is
stalled.
-/

namespace StreamBuffer

variable {site start after : Site} {terms : Terms} {geometry : Geometry}
variable {granted multiple room : Nat} {act : Act}

/-! ## Acts of early readers -/

theorem Call.within_early {call : Call} (h : call.Respects .early site) :
    call.Within .early site := by
  cases call with
  | attach history delay => exact fun _ => h.2.2.1
  | raiseHistory history delay => exact fun _ => h.2.1
  | declareDelay id delay => exact fun hl => absurd hl (Nat.not_lt_zero _)
  | write | unblockInputAt => exact h.elim
  | advance | produce => exact fun _ _ _ => trivial
  | read => exact fun _ _ => trivial
  | _ => trivial

theorem Act.within_early (h : act.Respects .early granted site) : act.Within .early site := by
  cases act with
  | call call => exact call.within_early h
  | move => trivial
  | _ => trivial

theorem Site.Passes.foreseen (hp : site.Passes .early after) (h : site.Sound)
    (hf : site.buffer.cursors.Foreseen) :
    after.buffer.cursors.Foreseen :=
  hp.keeps (fun _ hr => hr.foreseen hf h.coherent h.counted h.capacity_lt) fun _ _ hm => hm.foreseen

theorem Play.foreseen (h : start.Sound) (hf : start.buffer.cursors.Foreseen)
    (hplay : Play (Act.Respects .early) start granted site) : site.buffer.cursors.Foreseen := by
  induction hplay with
  | refl => exact hf
  | tail act hplay hr ih =>
    exact (act.passes (act.within_early hr)).foreseen (hplay.poised Terms.early_places h).toSound ih

namespace Site

/-! ## On the host -/

structure Hosted (geometry : Geometry) (site : Site) : Prop extends Sound site where
  geometry_eq : site.buffer.geometry = geometry
  context_eq : site.buffer.storage.context = .hostToHost

namespace Hosted

theorem moves {sent : Sent} (h : site.Hosted geometry) (hm : site.Moves terms sent after) :
    after.Hosted geometry :=
  ⟨hm.sound h.toSound, hm.geometry_eq.trans h.geometry_eq, hm.context_eq.trans h.context_eq⟩

theorem space {most : Nat} (h : site.Hosted geometry) (hm : site.buffer.cursors.Longest most) :
    ∃ room after, Site.space site = .ok room after ∧ after.Hosted geometry ∧
      site.buffer.cursors.Polled geometry room after.buffer.cursors := by
  obtain ⟨reader, hr, _⟩ := hm.attained
  have hspace : site.Takes .early Site.space _ := space_polls h.toSound (List.ne_nil_of_mem hr)
  obtain ⟨room, after, he, sent, hm, _, hp⟩ := hspace.answers h.toSound h.context_eq
  exact ⟨room, after, he, h.moves hm, h.geometry_eq ▸ hp⟩

theorem unblockOutput (h : site.Hosted geometry) (multiple : Nat) (force : Bool) :
    ∃ moved after, Site.unblockOutput multiple force site = .ok moved after ∧
    after.Hosted geometry ∧
      ∃ decision, site.buffer.cursors.planOutput geometry multiple force = .ok decision ∧
        site.buffer.cursors.Followed decision moved after.buffer.cursors := by
  have hspec : site.Takes .early (Site.unblockOutput multiple force) _ :=
    unblockOutput_spec h.toSound
  obtain ⟨moved, after, he, sent, hm, _, decision, hd, hf⟩ := hspec.answers h.toSound h.context_eq
  exact ⟨moved, after, he, h.moves hm, decision, h.geometry_eq ▸ hd, hf⟩

theorem wanted (h : site.Hosted geometry) :
    geometry.downstream - 1 + site.buffer.cursors.maxLookBack < Word.limit := by
  have := h.measured.twice_le
  have := h.measured.downstream_le
  have := h.coherent.maxLookBack_lt
  rw [← h.geometry_eq]
  omega

end Hosted

/-! ## Room -/

/-- The producer comes on: there is room at once, or once all that is unread was moved to the
front. -/
def Flows (site : Site) : Prop :=
  ∃ room after, Site.space site = .ok room after ∧ (0 < room ∨
    ∃ mid, Site.unblockOutput site.buffer.geometry.writeMultiple true after = .ok true mid ∧
      ∃ more last, Site.space mid = .ok more last ∧ 0 < more)

namespace Hosted

variable {most : Nat} (h : site.Hosted geometry) (hdry : site.buffer.cursors.Dry geometry.capacity)
  (hm : site.buffer.cursors.Longest most)

include h hm in
theorem space_of_choked (hc : site.buffer.cursors.Choked geometry) :
    ∃ after, Site.space site = .ok 0 after ∧
    after.Hosted geometry ∧ after.buffer.cursors = site.buffer.cursors := by
  obtain ⟨room, after, he, hafter, hp⟩ := h.space hm
  obtain ⟨rfl, hcursors⟩ := Cursors.Dry.polled_of_choked h.wanted hc hp
  exact ⟨after, he, hafter, hcursors⟩

include h hdry hm

theorem room_pos (hc : ¬ site.buffer.cursors.Choked geometry) :
    ∃ room after, Site.space site = .ok room after ∧ 0 < room := by
  obtain ⟨room, after, he, _, hp⟩ := h.space hm
  exact ⟨room, after, he, hdry.room_pos hm h.wanted hc hp⟩

/-- Unread look-back comes to the front. -/
theorem compact (multiple : Nat) {force : Bool} (hwish : force = true ∨
      0 < geometry.capacity - max site.buffer.cursors.writeIndex most ∧
        geometry.capacity - max site.buffer.cursors.writeIndex most < multiple)
    (hlt : most < site.buffer.cursors.writeIndex) :
    ∃ after, Site.unblockOutput multiple force site = .ok true after ∧ after.Hosted geometry ∧
      site.buffer.cursors.Compacted geometry.capacity most after.buffer.cursors := by
  obtain ⟨moved, after, he, hafter, decision, hd, hf⟩ := h.unblockOutput multiple force
  obtain ⟨plan, hplan, hcompacted⟩ := hdry.planOutput_planned hm hwish hlt
  cases hplan.symm.trans hd
  generalize hcursors : after.buffer.cursors = others at hf
  cases hf with
  | declined hn => exact absurd rfl (hn plan)
  | planned hsame =>
    cases hsame
    exact ⟨after, he, hafter, hcursors ▸ hcompacted⟩

theorem flows (hs : ¬ site.buffer.cursors.Stalled geometry) : site.Flows := by
  by_cases hc : site.buffer.cursors.Choked geometry
  · obtain ⟨hlt, hrelieved⟩ := hdry.relieved hm hc hs
    obtain ⟨after, he, hafter, hcursors⟩ := h.space_of_choked hm hc
    rw [← hcursors] at hdry hm hlt hrelieved
    obtain ⟨mid, hmid, hhosted, hcompacted⟩ :=
      hafter.compact hdry hm geometry.writeMultiple (.inl rfl) hlt
    refine ⟨0, after, he,
      .inr ⟨mid, ?_, hhosted.room_pos hcompacted.toDry hcompacted.longest (hrelieved _ hcompacted)⟩⟩
    rw [h.geometry_eq]
    exact hmid
  · obtain ⟨room, after, he, hpos⟩ := h.room_pos hdry hm hc
    exact ⟨room, after, he, .inl hpos⟩

theorem not_flows (hs : site.buffer.cursors.Stalled geometry) : ¬ site.Flows := by
  rintro ⟨room, after, he, hroom⟩
  obtain ⟨same, hsame, hafter, hcursors⟩ := h.space_of_choked hm (hs.choked hdry)
  cases he.symm.trans hsame
  rcases hroom with hpos | ⟨mid, hmid, more, last, hlast, hpos⟩
  · exact Nat.lt_irrefl 0 hpos
  rw [h.geometry_eq] at hmid
  rw [← hcursors] at hdry hm hs
  rcases Nat.lt_or_ge most after.buffer.cursors.writeIndex with hlt | hle
  · obtain ⟨other, hother, hhosted, hcompacted⟩ :=
      hafter.compact hdry hm geometry.writeMultiple (.inl rfl) hlt
    cases hmid.symm.trans hother
    have hstays := (hs.compacted hm hlt hcompacted).choked hcompacted.toDry
    obtain ⟨_, hnone, _⟩ := hhosted.space_of_choked hcompacted.longest hstays
    cases hlast.symm.trans hnone
    exact Nat.lt_irrefl 0 hpos
  · obtain ⟨moved, other, hother, _, decision, hd, hf⟩ :=
      hafter.unblockOutput geometry.writeMultiple true
    cases hmid.symm.trans hother
    generalize mid.buffer.cursors = others at hf
    cases hf with
    | planned hplan => exact hdry.planOutput_declined hm hle _ (hplan ▸ hd)

/-- A whole multiple, at once or once all that is unread was moved to the front. -/
theorem offers
    (hfront : site.buffer.cursors.written = 0 →
      site.buffer.cursors.writeIndex ≤ site.buffer.cursors.maxLookBack)
    (hfits : geometry.writeMultiple + (geometry.downstream - 1) + site.buffer.cursors.maxLookBack ≤
      geometry.capacity) :
    ∃ room after, Site.space site = .ok room after ∧ (geometry.writeMultiple ≤ room ∨
      site.buffer.cursors.maxLookBack = 0 ∧
      ∃ mid, Site.unblockOutput geometry.writeMultiple false after = .ok true mid ∧
        ∃ more last, Site.space mid = .ok more last ∧ geometry.writeMultiple ≤ more) := by
  obtain ⟨room, after, he, hafter, hp⟩ := h.space hm
  refine ⟨room, after, he, ?_⟩
  rcases hdry.offers hm h.wanted hfits hfront hp with hmultiple | ⟨hcursors, hl, hlt, hwish⟩
  · exact .inl hmultiple
  rw [← hcursors] at hdry hm hlt hwish hfits
  obtain ⟨mid, hmid, hhosted, hcompacted⟩ := hafter.compact hdry hm _ (.inr hwish) hlt
  have hplace := hcompacted.writeIndex_eq
  have hfirst : mid.buffer.cursors.writeIndex ≤ mid.buffer.cursors.maxLookBack :=
    hplace ▸ hcompacted.longest_le hcompacted.longest
  obtain ⟨more, last, hlast, _, hpolled⟩ := hhosted.space hcompacted.longest
  rw [← hcompacted.maxLookBack_eq] at hfits
  rcases hcompacted.offers hcompacted.longest hhosted.wanted hfits (fun _ => hfirst) hpolled with
    hmultiple | ⟨_, _, hbehind, _⟩
  · exact .inr ⟨hl, mid, hmid, more, last, hlast, hmultiple⟩
  · exact absurd hbehind (Nat.not_lt_of_le (Nat.le_of_eq hplace))

end Hosted

end Site

/-! ## Drained buffers -/

variable {backend : Backend} {request : Request} {id : Nat} {machine allocated : Machine}
variable {buffer : Buffer}

theorem Play.dry (hr : backend.Ready machine.devices) (hflat : request.mapping = .single)
    (hhost : request.owner.context = .hostToHost)
    (ha : Buffer.allocate backend request id machine = .ok buffer allocated)
    (hplay : Play (Act.Respects .early) ⟨allocated, buffer⟩ granted site)
    (hd : site.buffer.cursors.Drained) :
    site.Hosted buffer.geometry ∧ site.buffer.cursors.Foreseen ∧
    site.buffer.cursors.Dry buffer.geometry.capacity := by
  obtain ⟨hsound, hcursors, hprovides⟩ := Buffer.allocate_sound hr hflat ha
  have hnew : buffer.cursors.Foreseen := hcursors ▸ ⟨nofun, fun _ => Nat.zero_le _⟩
  have hsite := hplay.poised Terms.early_places hsound
  have hforeseen := hplay.foreseen hsound hnew
  have hdry := hforeseen.dry hsite.coherent hsite.counted hd
  rw [hsite.geometry_eq] at hdry
  have hcontext := hsite.context_eq.trans (hprovides.context_eq.trans hhost)
  exact ⟨⟨hsite.toSound, hsite.geometry_eq, hcontext⟩, hforeseen, hdry⟩

/-- **Drained buffers flow unless they are stalled.** On the host, with all readers attached before
the first movement and all that was written consumed, room comes to the producer exactly if the
buffer is not stalled; capacity for the longest look-back and a multiple more, written or read, is
enough for that. -/
theorem drained_buffer_flows_iff (hr : backend.Ready machine.devices)
    (hflat : request.mapping = .single) (hhost : request.owner.context = .hostToHost)
    (ha : Buffer.allocate backend request id machine = .ok buffer allocated)
    (hplay : Play (Act.Respects .early) ⟨allocated, buffer⟩ granted site)
    (hne : site.buffer.cursors.readers ≠ []) (hd : site.buffer.cursors.Drained) :
    (site.Flows ↔ ¬ site.buffer.cursors.Stalled buffer.geometry) ∧
    (site.buffer.cursors.maxLookBack +
      max buffer.geometry.downstream buffer.geometry.writeMultiple ≤
      buffer.geometry.capacity → site.Flows) := by
  obtain ⟨h, _, hdry⟩ := hplay.dry hr hflat hhost ha hd
  obtain ⟨most, hm⟩ := Cursors.exists_longest hne
  have hflows : site.Flows ↔ ¬ site.buffer.cursors.Stalled buffer.geometry :=
    ⟨fun hf hs => h.not_flows hdry hm hs hf, h.flows hdry hm⟩
  exact ⟨hflows, fun hfits => hflows.mpr fun hs => Nat.not_lt_of_le hfits (hs.capacity_lt hdry)⟩

/-- On the heap: the writer is at the end, all is consumed, and one item of look-back is copied to
the front. -/
theorem drained_buffer_flows_iff_heap :
    ∃ granted site, Play (Act.Respects .early) (Site.onHeap 8 1 4) granted site ∧
    site.buffer.cursors.Drained ∧
      site.buffer.cursors.writeIndex = 0 ∧ site.Flows ∧
      ¬ site.buffer.cursors.Stalled (Site.onHeap 8 1 4).buffer.geometry := by
  have hready : Backend.Ready .heap ({} : Machine).devices := trivial
  have hallocate := Buffer.allocate_onHeap 8 1 4 (by decide)
  have hstart : Play (Act.Respects .early) (Site.onHeap 8 1 4) 0 _ := .refl
  have hattached := hstart.tail (.call (.attach 2 0))
    ⟨⟨by decide, by decide, by decide⟩, by decide, rfl, nofun⟩
  have hwritten := hattached.tail (.call (.produce 7 1 fun _ => 7)) ⟨nofun, by decide⟩
  have hplay := hwritten.tail (.call (.read 0 7)) ⟨_, 8, rfl, rfl, by decide⟩
  obtain ⟨hiff, hfits⟩ := drained_buffer_flows_iff hready rfl rfl hallocate hplay nofun (by decide)
  have hflows := hfits (by decide)
  exact ⟨_, _, hplay, by decide, rfl, hflows, hiff.mp hflows⟩

/-- Four items are written in multiples of four, and a reader looks one item back. One item is
written and consumed, and room is asked for: the copy of look-back is made. Asked for once more,
there is none: the copy is all there is before the writer, and it is not made in place. -/
theorem drained_buffer_stalls :
    Buffer.allocate .heap { items := 4, itemSize := 1, producer := { outputMultiple := 4 } } 0 {} =
        .ok (Site.onHeap 4 1 4).buffer (Site.onHeap 4 1 4).machine ∧
      ∃ granted site, Play (Act.Respects .early) (Site.onHeap 4 1 4) granted site ∧
        site.buffer.cursors.readers ≠ [] ∧ site.buffer.cursors.Drained ∧ ¬ site.Flows := by
  have hstart : Play (Act.Respects .early) (Site.onHeap 4 1 4) 0 _ := .refl
  have hattached := hstart.tail (.call (.attach 2 0))
    ⟨⟨by decide, by decide, by decide⟩, by decide, rfl, nofun⟩
  have hwritten := hattached.tail (.call (.produce 1 1 fun _ => 7)) ⟨nofun, by decide⟩
  have hread := hwritten.tail (.call (.read 0 1)) ⟨_, 2, rfl, rfl, by decide⟩
  have hasked := hread.tail (.call .space) trivial
  refine ⟨rfl, _, _, hasked, nofun, by decide, ?_⟩
  rintro ⟨room, after, he, hroom⟩
  cases he
  rcases hroom with hpos | ⟨mid, hmid, _⟩
  · exact Nat.lt_irrefl 0 hpos
  · cases hmid

/-- **Drained buffers offer a multiple.** With capacity for a multiple, the copy of the longest
look-back and the granularity of reading, room for a whole multiple comes at once; or else nobody
ever looked back, and it comes once all that is unread was moved to the front. -/
theorem drained_buffer_offers_multiple (hr : backend.Ready machine.devices)
    (hflat : request.mapping = .single) (hhost : request.owner.context = .hostToHost)
    (ha : Buffer.allocate backend request id machine = .ok buffer allocated)
    (hplay : Play (Act.Respects .early) ⟨allocated, buffer⟩ granted site)
    (hne : site.buffer.cursors.readers ≠ []) (hd : site.buffer.cursors.Drained)
    (hfits : buffer.geometry.writeMultiple + (buffer.geometry.downstream - 1) +
      (site.buffer.cursors.maxHistory - 1) ≤ buffer.geometry.capacity) :
    ∃ room after, Site.space site = .ok room after ∧ (buffer.geometry.writeMultiple ≤ room ∨
      site.buffer.cursors.maxHistory = 1 ∧
        ∃ mid, Site.unblockOutput buffer.geometry.writeMultiple false after = .ok true mid ∧
          ∃ more last, Site.space mid = .ok more last ∧ buffer.geometry.writeMultiple ≤ more) := by
  obtain ⟨h, hforeseen, hdry⟩ := hplay.dry hr hflat hhost ha hd
  obtain ⟨most, hm⟩ := Cursors.exists_longest hne
  obtain ⟨room, after, he, hoffer⟩ := h.offers hdry hm hforeseen.front hfits
  exact ⟨room, after, he, hoffer.imp_right fun ⟨hl, hmore⟩ => ⟨congrArg (· + 1) hl, hmore⟩⟩

/-- On the heap: with two positions left of eight, six consumed items make way for a multiple of
four. -/
theorem drained_buffer_offers_multiple_heap :
    ∃ granted site after, Play (Act.Respects .early) (Site.onHeap 8 1 4) granted site ∧
      site.buffer.cursors.Drained ∧ Site.space site = .ok 2 after ∧
      ∃ mid, Site.unblockOutput 4 false after = .ok true mid ∧
      ∃ more last, Site.space mid = .ok more last ∧ 4 ≤ more := by
  have hready : Backend.Ready .heap ({} : Machine).devices := trivial
  have hallocate := Buffer.allocate_onHeap 8 1 4 (by decide)
  have hstart : Play (Act.Respects .early) (Site.onHeap 8 1 4) 0 _ := .refl
  have hattached := hstart.tail (.call (.attach 1 0))
    ⟨⟨by decide, by decide, by decide⟩, by decide, rfl, nofun⟩
  have hwritten := hattached.tail (.call (.produce 6 1 fun _ => 7)) ⟨nofun, by decide⟩
  have hplay := hwritten.tail (.call (.read 0 6)) ⟨_, 6, rfl, rfl, by decide⟩
  obtain ⟨room, after, he, hoffer⟩ :=
    drained_buffer_offers_multiple hready rfl rfl hallocate hplay nofun (by decide) (by decide)
  cases he
  exact ⟨_, _, _, hplay, by decide, rfl, (hoffer.resolve_left (by decide)).2⟩

end StreamBuffer
