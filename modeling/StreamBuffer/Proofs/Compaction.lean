import StreamBuffer.Proofs.Cursors.Compaction
import StreamBuffer.Proofs.Polling

/-!
# Compaction gains room

A producer that is short of room has unread data brought to the front. Asked again, the buffer then
offers more than before, unless the producer is held back: look-back has to be copied to the front,
and would be copied over what the first reader has not read.
-/

namespace StreamBuffer

variable {geometry : Geometry} {granted multiple room : Nat} {force : Bool} {site mid after : Site}

namespace Site.Askable

theorem unblockOutput_compacts (h : site.Askable geometry) (multiple : Nat) (force : Bool) :
    (Site.unblockOutput multiple force).Ensures site
      (fun moved after => moved = true → after.Askable geometry ∧
      ∃ front kept, (Plan.output multiple force front kept).Admissible site.buffer.cursors
        geometry.capacity ∧
        after.buffer.cursors = (Plan.output multiple force front kept).settled site.buffer.cursors)
      fun _ _ => False := by
  obtain ⟨decision, hd, hplan⟩ := h.countable.planOutput_eq h.bounded.writeIndex_lt multiple force
  unfold unblockOutput
  refine .ok_bind (isFlat_eq (h.geometry_eq ▸ h.flat)) (.get_bind ?_)
  dsimp only
  rw [h.geometry_eq]
  refine .lift_bind hd ?_
  cases decision with
  | idle => exact nofun
  | blocked event => exact nofun
  | planned plan =>
    obtain ⟨front, kept, rfl, _⟩ := Cursors.planOutput_eq_ok hd
    have ha := hplan _ rfl
    apply Action.Ensures.bind
      (h.carryOut_settles (Cursors.contained_of_planOutput hd) (Plan.settle_output ha))
    rintro _ after ⟨henclosed, hcursors⟩
    refine .pure fun _ => ⟨⟨henclosed, h.flat, ?_, ?_⟩, front, kept, ha, hcursors⟩
    · rw [hcursors]
      exact (ha.cleared h.countable).countable
    · rw [hcursors]
      exact h.delayed

theorem gains (h : site.Askable geometry) (hs : Site.space site = .ok room mid)
    (hc : Site.unblockOutput multiple force mid = .ok true after) :
    ∃ more last, Site.space after = .ok more last ∧
      (mid.buffer.cursors.Held geometry → room = 0 ∧ more = 0) ∧
      (¬ mid.buffer.cursors.Held geometry → ¬ mid.buffer.cursors.Undone geometry room →
        room < more) := by
  have hr : site.buffer.cursors.readers ≠ [] := by
    intro hn
    obtain ⟨_, hnone, _⟩ := (space_enclosed h.toEnclosed).of_ok hs
    obtain ⟨_, rfl⟩ := hnone hn
    obtain ⟨_, front, kept, ha, _⟩ := (h.unblockOutput_compacts multiple force).of_ok hc rfl
    exact ha.readers_ne hn
  obtain ⟨hmid, _, hbefore, _⟩ := (h.space_asked hr).of_ok hs
  obtain ⟨hafter, front, kept, ha, hcursors⟩ :=
    (hmid.unblockOutput_compacts multiple force).of_ok hc rfl
  have hreaders : after.buffer.cursors.readers ≠ [] := by
    rw [hcursors]
    exact fun hn => ha.readers_ne (List.map_eq_nil_iff.mp hn)
  obtain ⟨more, last, hlast, _, _, hagain, _⟩ := (hafter.space_asked hreaders).finishes
  rw [hcursors] at hagain
  exact ⟨more, last, hlast,
    hbefore.gains hmid.countable hmid.bounded.writeIndex_lt hmid.wanted ha hagain⟩

end Site.Askable

variable {backend : Backend} {request : Request} {id : Nat} {machine allocated : Machine}
variable {buffer : Buffer}

/-- **Compaction gains room.** On the host, a producer that asked for room and was helped is offered
more when it asks again, unless it is held back; then there is no room, before and after. Nothing is
said of look-back that is copied, or is to be copied, where there is no more than that. -/
theorem compaction_gains_room (hr : backend.Ready machine.devices)
    (hflat : request.mapping = .single) (hhost : request.owner.context = .hostToHost)
    (ha : Buffer.allocate backend request id machine = .ok buffer allocated)
    (hplay : Play (fun _ site act => act.InRegion site) ⟨allocated, buffer⟩ granted site)
    (hcount : site.buffer.cursors.Countable)
    (hdelay : site.buffer.cursors.maxDelay + buffer.geometry.capacity < Word.limit)
    (hs : Site.space site = .ok room mid)
    (hc : Site.unblockOutput multiple force mid = .ok true after) :
    ∃ more last, Site.space after = .ok more last ∧
      (mid.buffer.cursors.Held buffer.geometry → room = 0 ∧ more = 0) ∧
      (¬ mid.buffer.cursors.Held buffer.geometry →
        ¬ mid.buffer.cursors.Undone buffer.geometry room → room < more) := by
  have h := Buffer.allocate_askable hr hflat hhost ha hplay hcount hdelay
  exact h.gains hs hc

def Site.ahead : Site :=
  [.attach 2 0, .produce 2 1 fun i => i.toUInt8, .read 0 2].foldl
    (fun site call => Call.after call site) (Site.onHeap 8 1 4)

/-- On the heap: five positions are left of eight, and seven once the item was brought to the
front. -/
theorem compaction_gains_room_heap :
    Play (fun _ site act => act.InRegion site) (Site.onHeap 8 1 4) 0 .ahead ∧
      ∃ mid after, Site.space .ahead = .ok 5 mid ∧ Site.unblockOutput 6 false mid = .ok true after ∧
        ¬ mid.buffer.cursors.Held (Site.onHeap 8 1 4).buffer.geometry ∧
        ¬ mid.buffer.cursors.Undone (Site.onHeap 8 1 4).buffer.geometry 5 ∧
        ∃ more last, Site.space after = .ok more last ∧ 5 < more := by
  have hready : Backend.Ready .heap ({} : Machine).devices := trivial
  have hallocate := Buffer.allocate_onHeap 8 1 4 (by decide)
  have hstart : Play (fun _ site act => act.InRegion site) (Site.onHeap 8 1 4) 0 _ := .refl
  have hattached := hstart.tail (.call (.attach 2 0)) trivial
  have hwritten := hattached.tail (.call (.produce 2 1 fun i => i.toUInt8)) trivial
  have hplay : Play (fun _ site act => act.InRegion site) (Site.onHeap 8 1 4) 0 .ahead :=
    hwritten.tail (.call (.read 0 2)) trivial
  have hspace : Site.space .ahead = .ok 5 ((Call.space).after .ahead) := rfl
  have hmoved : Site.unblockOutput 6 false ((Call.space).after .ahead) =
      .ok true ((Call.unblockOutput 6 false).after ((Call.space).after .ahead)) := rfl
  obtain ⟨more, last, hlast, _, hgains⟩ :=
    compaction_gains_room hready rfl rfl hallocate hplay (by decide) (by decide) hspace hmoved
  have hnot : ¬ ((Call.space).after .ahead).buffer.cursors.DueBehind
      (Site.onHeap 8 1 4).buffer.geometry :=
    fun hd => absurd hd.ended (by decide)
  have hheld : ¬ ((Call.space).after .ahead).buffer.cursors.Held
      (Site.onHeap 8 1 4).buffer.geometry :=
    fun hh => hnot hh.toDueBehind
  have hundone : ¬ ((Call.space).after .ahead).buffer.cursors.Undone
      (Site.onHeap 8 1 4).buffer.geometry 5 := by
    rintro (⟨hd, _⟩ | ⟨hd, _⟩) <;> exact hnot hd
  exact ⟨hplay, _, _, hspace, hmoved, hheld, hundone, more, last, hlast, hgains hheld hundone⟩

def Site.crowded : Site :=
  [.attach 3 0, .produce 4 1 fun i => i.toUInt8, .read 0 1].foldl
    (fun site call => Call.after call site) (Site.onHeap 8 1 4)

/-- The look-back would be copied to where the reader stands, before the five items were brought to
the front and after. -/
theorem compaction_gains_nothing :
    Play (Act.Respects .early) (Site.onHeap 8 1 4) 0 .crowded ∧
      ∃ mid after last, Site.space .crowded = .ok 0 mid ∧
      Site.unblockOutput 4 false mid = .ok true after ∧
        Site.space after = .ok 0 last ∧ after.buffer.cursors.writeIndex = 5 := by
  have hstart : Play (Act.Respects .early) (Site.onHeap 8 1 4) 0 _ := .refl
  have hattached := hstart.tail (.call (.attach 3 0))
    ⟨⟨by decide, by decide, by decide⟩, by decide, rfl, nofun⟩
  have hwritten := hattached.tail (.call (.produce 4 1 fun i => i.toUInt8)) ⟨by decide, by decide⟩
  have hplay : Play (Act.Respects .early) (Site.onHeap 8 1 4) 0 .crowded :=
    hwritten.tail (.call (.read 0 1)) ⟨_, 6, rfl, rfl, by decide⟩
  refine ⟨hplay, (Call.space).after .crowded, ?_⟩
  refine ⟨(Call.unblockOutput 4 false).after ((Call.space).after .crowded), ?_⟩
  exact ⟨(Call.space).after ((Call.unblockOutput 4 false).after ((Call.space).after .crowded)), rfl,
    rfl, rfl, rfl⟩

end StreamBuffer
