import StreamBuffer.Proofs.Cursors.Circulation
import StreamBuffer.Proofs.LateReaders

/-!
# Conservation of items

In storage that is mapped twice the counts that a reader and the producer are given come from
positions on the ring. They are those of the items that were written and consumed, also for readers
that came late and after writes that no reader saw.
-/

namespace StreamBuffer

/-- **What callers owe** on storage that is mapped twice. Readers come at any time, and the producer
moves on by no more than the room that it would be told of now. -/
def Act.Fits (site : Site) : Act → Prop
  | call c => c.Respects .anytime site
  | move items => ∃ room after, Site.space site = .ok room after ∧ items ≤ room
  | store _ | post _ | fault .. => True

namespace Site

variable {start site after : Site} {granted : Nat}

theorem space_circular (hring : site.buffer.geometry.mapping = .double)
    (h : site.buffer.cursors.Circular site.buffer.geometry.capacity) : space.Ensures site
    (fun room after => site.Same after ∧ ∀ most, site.buffer.cursors.Longest most →
      room + 1 + most = site.buffer.geometry.capacity) fun _ _ => False := by
  have hpos := Nat.zero_lt_of_lt h.writeIndex_lt
  unfold space
  refine .get_bind ?_
  dsimp only
  split
  · rename_i hempty
    refine .lift (Word.sub_eq_ok hpos) ⟨.refl site, fun most hm => ?_⟩
    obtain ⟨reader, hr, _⟩ := hm.attained
    rw [List.isEmpty_iff.mp hempty] at hr
    cases hr
  rename_i hempty
  have hr : site.buffer.cursors.readers ≠ [] := by simpa using hempty
  obtain ⟨most, hm⟩ := Cursors.exists_longest hr
  obtain ⟨room, hroom, _⟩ := h.ringRoom_eq hm
  apply Action.Ensures.bind (pruneBehindReaders_hides h.delayed)
  intro _ mid hsame
  rw [hring]
  refine .lift hroom ⟨hsame, fun longest hlongest => ?_⟩
  obtain ⟨same, he, hsum⟩ := h.ringRoom_eq hlongest
  cases hroom.symm.trans he
  exact hsum

/-- Within the room every reader stays less than a round behind. -/
theorem lag_of_space (hring : site.buffer.geometry.mapping = .double)
    (h : site.buffer.cursors.Circular site.buffer.geometry.capacity) {room items : Nat}
    (he : space site = .ok room after) (hi : items ≤ room) :
    after.buffer.cursors = site.buffer.cursors ∧
      ∀ reader ∈ site.buffer.cursors.readers, site.buffer.cursors.lag reader + items <
        site.buffer.geometry.capacity := by
  obtain ⟨hsame, hroom⟩ := (space_circular hring h).of_ok he
  refine ⟨hsame.cursors_eq, fun reader hr => ?_⟩
  obtain ⟨most, hm⟩ := Cursors.exists_longest (List.ne_nil_of_mem hr)
  have := hroom most hm
  have := hm.le reader hr
  omega

theorem supply_circular (hring : site.buffer.geometry.mapping = .double)
    (h : site.buffer.cursors.Circular site.buffer.geometry.capacity) {reader : Reader}
    (hr : reader ∈ site.buffer.cursors.readers) :
    site.buffer.supply reader = .ok (site.buffer.cursors.lag reader) := by
  unfold Buffer.supply Cursors.supply
  rw [hring]
  exact h.distance_eq hr

end Site

variable {start site : Site} {granted : Nat} {act : Act}

theorem Call.within_ring {call : Call} (hring : site.buffer.geometry.mapping = .double)
    (h : site.buffer.cursors.Circular site.buffer.geometry.capacity)
    (hc : call.Respects .anytime site) :
    call.Within (.ring site.buffer.geometry.capacity) site := by
  cases call with
  | advance items =>
    -- the producer is within the room that the call itself asks for
    intro room mid he
    obtain ⟨hcursors, hlag⟩ := Site.lag_of_space hring h he (Nat.min_le_right items room)
    rw [hcursors]
    exact hlag
  | produce items multiple source =>
    intro room mid he
    obtain ⟨hcursors, hlag⟩ := Site.lag_of_space hring h he
      (show min items room - min items room % max multiple 1 ≤ room by omega)
    rw [hcursors]
    exact hlag
  | write items source => exact hc.elim
  | attach history delay => exact hc.1.2.2
  | raiseHistory history delay => exact hc.1.2.2
  | declareDelay id delay => exact hc.2
  | read id items =>
    obtain ⟨reader, supply, hr, hs, hi⟩ := hc
    intro other hother
    cases hr.symm.trans hother
    rw [Site.supply_circular hring h (Cursors.mem_of_reader? hr).1] at hs
    cases hs
    exact hi
  | unblockInputAt required available readIndex => exact hc.elim
  | _ => trivial

theorem Act.within_ring (hring : site.buffer.geometry.mapping = .double)
    (h : site.buffer.cursors.Circular site.buffer.geometry.capacity) (ha : act.Fits site) :
    act.Within (.ring site.buffer.geometry.capacity) site := by
  cases act with
  | call call => exact call.within_ring hring h ha
  | move items =>
    obtain ⟨room, after, he, hi⟩ := ha
    exact (Site.lag_of_space hring h he hi).2
  | _ => trivial

theorem Site.Passes.circular {after : Site}
    (hp : site.Passes (.ring site.buffer.geometry.capacity) after)
    (hring : site.buffer.geometry.mapping = .double)
    (h : site.buffer.cursors.Circular site.buffer.geometry.capacity) :
    after.buffer.cursors.Circular site.buffer.geometry.capacity := by
  refine hp.keeps (fun mid hrelocated => ?_) fun _ _ hm => hm.circular hring
  cases hrelocated with
  | stay => exact h
  | settle hflat => exact absurd (hring.symm.trans hflat) nofun

theorem Play.circular (hring : start.buffer.geometry.mapping = .double)
    (h : start.buffer.cursors.Circular start.buffer.geometry.capacity)
    (hplay : Play (fun _ => Act.Fits) start granted site) :
    site.buffer.geometry = start.buffer.geometry ∧
    site.buffer.cursors.Circular start.buffer.geometry.capacity := by
  induction hplay with
  | refl => exact ⟨rfl, h⟩
  | @tail granted site act _ hact ih =>
    obtain ⟨hgeometry, hcircular⟩ := ih
    rw [← hgeometry] at hring hcircular ⊢
    have hp := act.passes (act.within_ring hring hcircular hact)
    exact ⟨hp.geometry_eq, hp.circular hring hcircular⟩

variable {backend : Backend} {request : Request} {id : Nat} {machine allocated : Machine}
variable {buffer : Buffer}

/-- **Conservation of items.** What a reader is told it can take is all that was written and that it
did not consume, look-back included, and it is less than a round; the reader stands so far behind
the writer. What is not left to the reader with most left is room, but for one position. -/
theorem ring_conserves_items (hdouble : request.mapping = .double)
    (ha : Buffer.allocate backend request id machine = .ok buffer allocated)
    (hplay : Play (fun _ => Act.Fits) ⟨allocated, buffer⟩ granted site) :
    (∀ reader ∈ site.buffer.cursors.readers, ∃ supply, site.buffer.supply reader = .ok supply ∧
      reader.itemsRead + supply = site.buffer.cursors.written + reader.lookBack ∧
      supply ≤ buffer.geometry.capacity - 1 ∧
      reader.readIndex = (site.buffer.cursors.writeIndex + buffer.geometry.capacity - supply) %
      buffer.geometry.capacity) ∧
    (site.buffer.cursors.readers ≠ [] → ∃ room after, Site.space site = .ok room after ∧
      ∃ reader ∈ site.buffer.cursors.readers, ∃ most, site.buffer.supply reader = .ok most ∧
        (∀ other ∈ site.buffer.cursors.readers, ∀ supply, site.buffer.supply other = .ok supply →
          supply ≤ most) ∧
        room + 1 + most = buffer.geometry.capacity) := by
  obtain ⟨hgives, hface⟩ := Buffer.allocate_face ha
  have hcursors : buffer.cursors = {} := congrArg Site.Face.cursors hface
  have hcapacity : buffer.geometry.capacity < Word.limit :=
    Nat.lt_of_le_of_lt (Nat.le_mul_of_pos_right _ hgives.itemSize_pos) hgives.bytes_lt
  have hnew : Cursors.Circular {} buffer.geometry.capacity :=
    ⟨(Cursors.coherent_new hgives.capacity_pos).toOrdered, rfl, nofun, by simpa using hcapacity⟩
  obtain ⟨hgeometry, h⟩ := Play.circular (hgives.mapping_eq.trans hdouble) (hcursors ▸ hnew) hplay
  have hring : site.buffer.geometry.mapping = .double := hgeometry ▸ hgives.mapping_eq.trans hdouble
  change site.buffer.geometry = buffer.geometry at hgeometry
  change site.buffer.cursors.Circular buffer.geometry.capacity at h
  rw [← hgeometry] at h ⊢
  refine ⟨fun reader hr => ⟨_, Site.supply_circular hring h hr, ?_, ?_, h.readIndex_eq hr⟩,
    fun hne => ?_⟩
  · exact Nat.add_sub_cancel' (h.placed reader hr).read_le
  · exact Nat.le_sub_one_of_lt (h.lag_lt reader hr)
  · obtain ⟨most, hm⟩ := Cursors.exists_longest hne
    -- the room is what the reader with the longest lag leaves, less the free position
    obtain ⟨reader, hr, rfl⟩ := hm.attained
    obtain ⟨room, after, he, _, hroom⟩ := (Site.space_circular hring h).finishes
    refine ⟨room, after, he, reader, hr, _, Site.supply_circular hring h hr,
      fun other ho supply hs => ?_, hroom _ hm⟩
    cases (Site.supply_circular hring h ho).symm.trans hs
    exact hm.le other ho

def Site.onRing (items : Nat) : Site :=
  let request : Request := { items, itemSize := 1, mapping := .double }
  let geometry : Geometry := ⟨items, 1, 1, 1, .double⟩
  let machine := ({} : Machine).log (some request.owner.name) (.allocated "host" request geometry)
  { machine := { machine with journal := machine.journal.countAllocated }
    buffer := { id := 0, owner := request.owner, producer := request.producer.name, geometry,
                storage := ⟨.hostToHost, .single (.host (.zeroed .heap items))⟩ } }

/-- Of four positions three are written before anybody looks. Then a reader comes that looks back on
two items, and one more is written; no room is left. -/
theorem ring_conserves_items_heap :
    ∃ granted site, Play (fun _ => Act.Fits) (Site.onRing 4) granted site ∧
    site.buffer.cursors.writeIndex = 0 ∧ ∃ reader ∈ site.buffer.cursors.readers,
      site.buffer.supply reader = .ok 3 ∧ reader.readIndex = 1 ∧
      ∃ room after, Site.space site = .ok room after ∧ room + 1 + 3 = 4 := by
  have hallocate : Buffer.allocate .heap { items := 4, itemSize := 1, mapping := .double } 0 {} =
      .ok (Site.onRing 4).buffer (Site.onRing 4).machine := rfl
  have hstart : Play (fun _ => Act.Fits) (Site.onRing 4) 0 _ := .refl
  have hthree := hstart.tail (.move 3) ⟨_, _, rfl, by decide⟩
  have hattached := hthree.tail (.call (.attach 3 0))
    ⟨⟨by decide, by decide, by decide⟩, by decide, trivial⟩
  have hplay := hattached.tail (.move 1) ⟨_, _, rfl, by decide⟩
  obtain ⟨hsupply, hspace⟩ := ring_conserves_items rfl hallocate hplay
  obtain ⟨room, after, he, reader, hr, most, hmost, _, hsum⟩ := hspace nofun
  obtain rfl := List.mem_singleton.mp hr
  obtain ⟨supply, hs, hcount, _, hplace⟩ := hsupply _ hr
  have hthree : supply = 3 := Nat.add_left_cancel (show 3 + supply = 3 + 3 from hcount)
  cases hmost.symm.trans hs
  subst hthree
  exact ⟨_, _, hplay, rfl, _, hr, hs, hplace, room, after, he, hsum⟩

end StreamBuffer
