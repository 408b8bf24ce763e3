import StreamBuffer.Proofs.Cursors.Polling
import StreamBuffer.Proofs.Drainage
import StreamBuffer.Proofs.Retry

/-!
# Polling

Stages ask for room without wanting any yet. To ask may copy look-back to the front, but to ask
again does nothing more, in all states that callers can bring about. It may be answered in another
way, though: where the copy is all there is before the writer and no multiple fits behind it, the
first answer is the room behind the copy, and the second is that there is none.
-/

namespace StreamBuffer

variable {geometry : Geometry} {granted multiple room more : Nat} {site mid after : Site}

namespace Site

/-- What it takes to ask a buffer on the host for room. The cursors may be anywhere in the
region. -/
structure Askable (geometry : Geometry) (site : Site) :
    Prop extends site.Enclosed geometry .hostToHost where
  flat : geometry.mapping = .single
  countable : site.buffer.cursors.Countable
  delayed : site.buffer.cursors.maxDelay + geometry.capacity < Word.limit

namespace Askable

theorem same (h : site.Askable geometry) (hs : site.Same after) : after.Askable geometry := by
  obtain ⟨henclosed, hflat, hcount, hdelay⟩ := h
  refine ⟨henclosed.same hs, hflat, ?_, ?_⟩ <;> rw [hs.cursors_eq] <;> assumption

theorem wanted (h : site.Askable geometry) :
    geometry.downstream - 1 + site.buffer.cursors.maxLookBack < Word.limit := by
  have hmeasured := h.measured
  rw [h.geometry_eq] at hmeasured
  have := hmeasured.downstream_le
  have := hmeasured.twice_le
  have := h.bounded.maxLookBack_lt
  omega

theorem carryOut_settles {plan : Plan} {others : Cursors} {event : Event}
    (h : site.Askable geometry)
    (hc : plan.Contained site.buffer.cursors geometry.capacity geometry.capacity)
    (hs : plan.settle site.buffer.cursors = .ok (others, event)) :
    (carryOut plan).Ensures site
      (fun _ after => after.Enclosed geometry .hostToHost ∧ after.buffer.cursors = others)
      fun _ _ => False := by
  have hfit : ∀ move ∈ plan.moves site.buffer.cursors.writeIndex,
      move.Fits site.buffer.geometry.capacity := by
    intro move hm
    rw [h.geometry_eq]
    exact (hc.moves h.bounded move hm).resolve_right fun hover => Nat.lt_irrefl _ hover.1
  have hdone : (carryOut plan).Ensures site (fun _ after => after.buffer.cursors = others)
      fun _ _ => False := by
    unfold carryOut
    apply Action.Ensures.get_bind
    apply Action.Ensures.bind ((moveAll_spec h.toSolid hfit).mono (fun _ _ hd => hd)
      fun _ _ hb => h.toSolid.unrefused h.context_eq hb.refuses)
    intro _ mid hd
    exact .lift_bind hs rfl
  exact ((carryOut_confines h.toEnclosed hc).both hdone).mono (fun _ _ hd => hd) fun _ _ hf => hf.2

theorem flatSpace_asked (h : site.Askable geometry) :
    flatSpace.Ensures site (fun room after => after.Askable geometry ∧
      (site.buffer.cursors.readers ≠ [] → after.buffer.cursors.readers ≠ []) ∧
      site.buffer.cursors.Asked geometry room after.buffer.cursors ∧
      (¬ site.buffer.cursors.Copies geometry → site.Same after)) fun _ _ => False := by
  obtain ⟨needed, hneeded, hdue⟩ := h.countable.needsHistory_eq h.bounded.writeIndex_lt
  unfold flatSpace
  refine .get_bind ?_
  dsimp only
  rw [h.geometry_eq]
  refine .lift_bind hneeded ?_
  cases needed with
  | false =>
    obtain ⟨room, he, _⟩ := h.countable.flatRoom_eq h.bounded.writeIndex_lt
    exact .get_bind
      (.lift he ⟨h, id, .direct (fun hd => nomatch hdue.mpr hd) he, fun _ => .refl site⟩)
  | true =>
    -- look-back is due: it is copied, or the copy is declined and there is no room
    have hd := hdue.mp rfl
    obtain ⟨decision, hdecision, hplan⟩ := h.countable.planHistory_eq h.wanted
    refine .lift_bind hdecision ?_
    cases decision with
    | idle =>
      refine .ok_bind rfl (.pure ⟨h, id, .declined hd fun ⟨_, plan, hp⟩ => ?_, fun _ => .refl site⟩)
      exact nomatch hdecision.symm.trans hp
    | blocked event =>
      have hsame : site.Same
          { site with machine := site.machine.log site.buffer.owner.name event } :=
        ⟨rfl, rfl, rfl, rfl⟩
      refine .ok_bind rfl
        (.pure ⟨h.same hsame, id, .declined hd fun ⟨_, plan, hp⟩ => ?_, fun _ => hsame⟩)
      exact nomatch hdecision.symm.trans hp
    | planned plan =>
      obtain ⟨start, stop, rfl, _⟩ := hplan plan rfl
      obtain ⟨others, event, hs, hcount, hdelay, hreaders⟩ := h.countable.settle_history start stop
      have hfollow : (follow (.planned (.history start stop _))).Ensures site
          (fun moved mid => moved = true ∧ mid.Enclosed geometry .hostToHost ∧
            mid.buffer.cursors = others)
          fun _ _ => False :=
        Action.Ensures.bind (h.carryOut_settles (h.bounded.planHistory hdecision) hs)
          fun _ _ hd => .pure ⟨rfl, hd⟩
      apply Action.Ensures.bind hfollow
      rintro _ mid ⟨rfl, hm, rfl⟩
      obtain ⟨room, he, _⟩ := hcount.flatRoom_eq hm.bounded.writeIndex_lt
      refine .get_bind (.lift he ⟨⟨hm, h.flat, hcount, ?_⟩, hreaders,
        .copied hd hdecision hs he, fun hn => absurd ⟨hd, _, hdecision⟩ hn⟩)
      rw [hdelay]
      exact h.delayed

/-- Room is given by the cursors, wherever they are, and they stay if nothing is copied. -/
theorem space_asked (h : site.Askable geometry) (hr : site.buffer.cursors.readers ≠ []) :
    Site.space.Ensures site
      (fun room after => after.Askable geometry ∧ after.buffer.cursors.readers ≠ [] ∧
      site.buffer.cursors.Asked geometry room after.buffer.cursors ∧
      (¬ site.buffer.cursors.Copies geometry → site.Same after)) fun _ _ => False := by
  unfold Site.space
  refine .get_bind ?_
  dsimp only
  rw [if_neg (by simpa using hr), h.geometry_eq, h.flat]
  have hdelay := h.delayed
  rw [← h.geometry_eq] at hdelay
  apply Action.Ensures.bind (pruneBehindReaders_hides hdelay)
  intro _ mid hsame
  apply (h.same hsame).flatSpace_asked.mono
  · rintro room after ⟨ha, hreaders, hasked, hrest⟩
    rw [hsame.cursors_eq] at hreaders hasked hrest
    exact ⟨ha, hreaders hr, hasked, fun hn => hsame.trans (hrest hn)⟩
  · exact fun _ _ hf => hf

end Askable

/-- What two polls in a row and a poll of the producer's readiness say of each other. -/
structure Polls (site : Site) (geometry : Geometry) (room : Nat) (mid : Site) (more : Nat)
    (after : Site) : Prop where
  first : Site.space site = .ok room mid
  second : Site.space mid = .ok more after
  same : mid.Same after
  /-- There is no other way for the answers to differ. -/
  answers : more = room ↔ ¬ (0 < room ∧ mid.buffer.cursors.Choked geometry)
  choked : mid.buffer.cursors.Choked geometry → more = 0
  ready : ∀ multiple, ∃ told, isOutputBlocked multiple site = .ok told mid ∧
    (told = true ↔ room < max multiple 1) ∧
    ((told = true ↔ more < max multiple 1) ↔
      ¬ (max multiple 1 ≤ room ∧ mid.buffer.cursors.Choked geometry))

theorem Askable.polls (h : site.Askable geometry) (hr : site.buffer.cursors.readers ≠ []) :
    ∃ room mid more after, site.Polls geometry room mid more after ∧
      (geometry.downstream - 1 + site.buffer.cursors.maxLookBack +
        geometry.writeMultiple ≤ geometry.capacity → more = room) := by
  obtain ⟨room, mid, hfirst, hm, hreaders, hasked, _⟩ := (h.space_asked hr).finishes
  obtain ⟨more, after, hsecond, _, _, hagain, hrest⟩ := (hm.space_asked hreaders).finishes
  obtain ⟨hchoked, hfree⟩ := hasked.answers_again hagain h.wanted
  have hflat : site.buffer.geometry.mapping = .single := h.geometry_eq ▸ h.flat
  refine ⟨room, mid, more, after, ⟨hfirst, hsecond, hrest (hasked.not_copies h.wanted), ?_, hchoked,
    fun multiple => ⟨decide (room < max multiple 1), ?_, decide_eq_true_iff, ?_⟩⟩, ?_⟩
  · by_cases hc : mid.buffer.cursors.Choked geometry
    · simp only [hchoked hc, hc, and_true]
      omega
    · simp only [hfree hc, hc, and_false, not_false_eq_true]
  · rw [isOutputBlocked_eq hflat]
    exact Action.bind_of_ok _ hfirst
  · rw [decide_eq_true_iff]
    by_cases hc : mid.buffer.cursors.Choked geometry
    · simp only [hchoked hc, hc, and_true]
      omega
    · simp only [hfree hc, hc, and_false, not_false_eq_true]
  · intro hfits
    rcases Nat.eq_zero_or_pos room with h0 | hpos
    · by_cases hc : mid.buffer.cursors.Choked geometry
      · rw [hchoked hc, h0]
      · exact hfree hc
    · exact hfree (hasked.not_choked hpos hfits)

end Site

variable {backend : Backend} {request : Request} {id : Nat} {machine allocated : Machine}
variable {buffer : Buffer}

/-- Wherever its callers bring it, a buffer on the host can be asked for room while the counters
fit. -/
theorem Buffer.allocate_askable (hr : backend.Ready machine.devices)
    (hflat : request.mapping = .single) (hhost : request.owner.context = .hostToHost)
    (ha : Buffer.allocate backend request id machine = .ok buffer allocated)
    (hplay : Play (fun _ site act => act.InRegion site) ⟨allocated, buffer⟩ granted site)
    (hcount : site.buffer.cursors.Countable)
    (hdelay : site.buffer.cursors.maxDelay + buffer.geometry.capacity < Word.limit) :
    site.Askable buffer.geometry := by
  have hdelivers := Buffer.allocate_delivers hr ha
  have henclosed := hdelivers.enclosed.play hplay
  rw [hhost] at henclosed
  exact ⟨henclosed, hdelivers.gives.mapping_eq.trans hflat, hcount, hdelay⟩

/-- **Polling.** On the host, with any reader attached and whatever was called before, asking for
room a second time changes nothing, and the answers agree unless the first one left the cursors
choked with some room: then the second is that there is none. A region that holds the copy and a
multiple more excludes it. -/
theorem polls_agree_unless_choked (hr : backend.Ready machine.devices)
    (hflat : request.mapping = .single) (hhost : request.owner.context = .hostToHost)
    (ha : Buffer.allocate backend request id machine = .ok buffer allocated)
    (hplay : Play (fun _ site act => act.InRegion site) ⟨allocated, buffer⟩ granted site)
    (hne : site.buffer.cursors.readers ≠ []) (hcount : site.buffer.cursors.Countable)
    (hdelay : site.buffer.cursors.maxDelay + buffer.geometry.capacity < Word.limit) :
    ∃ room mid more after, site.Polls buffer.geometry room mid more after ∧
      (buffer.geometry.downstream - 1 + site.buffer.cursors.maxLookBack +
        buffer.geometry.writeMultiple ≤ buffer.geometry.capacity → more = room) := by
  have h := Buffer.allocate_askable hr hflat hhost ha hplay hcount hdelay
  exact h.polls hne

def Site.consumed : Site :=
  [.attach 2 0, .produce 7 1 fun i => i.toUInt8, .read 0 7].foldl
    (fun site call => Call.after call site) (Site.onHeap 8 1 4)

theorem polls_agree_unless_choked_heap :
    Play (fun _ site act => act.InRegion site) (Site.onHeap 8 1 4) 0 .consumed ∧
      ∃ mid after, Site.consumed.Polls (Site.onHeap 8 1 4).buffer.geometry 7 mid 7 after := by
  have hready : Backend.Ready .heap ({} : Machine).devices := trivial
  have hallocate := Buffer.allocate_onHeap 8 1 4 (by decide)
  have hstart : Play (fun _ site act => act.InRegion site) (Site.onHeap 8 1 4) 0 _ := .refl
  have hattached := hstart.tail (.call (.attach 2 0)) trivial
  have hwritten := hattached.tail (.call (.produce 7 1 fun i => i.toUInt8)) trivial
  have hplay : Play (fun _ site act => act.InRegion site) (Site.onHeap 8 1 4) 0 .consumed :=
    hwritten.tail (.call (.read 0 7)) trivial
  obtain ⟨room, mid, more, after, hpolls, hfits⟩ :=
    polls_agree_unless_choked hready rfl rfl hallocate hplay
    (by decide) (by decide) (by decide)
  have hroom : Site.space .consumed = .ok 7 ((Call.space).after .consumed) := rfl
  injection hroom.symm.trans hpolls.first with h7 _
  subst h7
  rw [hfits (by decide)] at hpolls
  exact ⟨hplay, mid, after, hpolls⟩

def Site.brief : Site :=
  [.attach 2 0, .produce 1 1 fun _ => 7, .read 0 1].foldl (fun site call => Call.after call site)
    (Site.onHeap 4 1 4)

/-- There is room for three items, and then there is none. -/
theorem polls_disagree :
    Play (Act.Respects .early) (Site.onHeap 4 1 4) 0 .brief ∧
      ∃ mid after, Site.space .brief = .ok 3 mid ∧ Site.space mid = .ok 0 after ∧
        Site.isOutputBlocked 1 .brief = .ok false mid := by
  have hstart : Play (Act.Respects .early) (Site.onHeap 4 1 4) 0 _ := .refl
  have hattached := hstart.tail (.call (.attach 2 0))
    ⟨⟨by decide, by decide, by decide⟩, by decide, rfl, nofun⟩
  have hwritten := hattached.tail (.call (.produce 1 1 fun _ => 7)) ⟨by decide, by decide⟩
  have hplay : Play (Act.Respects .early) (Site.onHeap 4 1 4) 0 .brief :=
    hwritten.tail (.call (.read 0 1)) ⟨_, 2, rfl, rfl, by decide⟩
  exact ⟨hplay, (Call.space).after .brief, (Call.space).after ((Call.space).after .brief), rfl, rfl,
    rfl⟩

end StreamBuffer
