import StreamBuffer.Proofs.Counting

/-!
# How long buffers last

Readers keep their buffer alive, and a buffer keeps a table of its readers that does not keep them.

`buffers_last_while_referred`: whatever is allocated, attached and dropped, in whatever order, a
buffer is live exactly as long as its handle or one of its readers is there; its table lists the
readers that are left, and identities are given out in order, each of them once.
-/

namespace StreamBuffer

namespace Platform

variable {notes more : List Note} {platform after : Platform} {slot : Nat} {live : LiveBuffer}

def Tends (notes : List Note) (platform : Platform) (slot : Nat) : Prop :=
  slot < platform.buffers.next →
    ((platform.buffers.get? slot).isSome ↔ .handleDropped slot ∉ notes ∨ remaining notes slot ≠ [])

structure Tended (notes : List Note) (platform : Platform) :
    Prop extends Counted notes platform where
  tends : ∀ slot, Tends notes platform slot

theorem Counted.swept_tended (h : Counted notes platform)
    (hg : platform.buffers.get? slot = some live)
    (htends : ∀ other, other ≠ slot → Tends notes platform other) :
    Tended notes (platform.swept slot) := by
  have hreferred := h.isReferred_iff hg
  cases hu : platform.isReferred slot live with
  | true =>
    rw [swept_of_referred hg hu]
    refine ⟨h, fun other => ?_⟩
    by_cases hother : other = slot
    · intro _
      rw [hother, hg, ← hreferred, hu]
      exact iff_of_true rfl rfl
    · exact htends other hother
  | false =>
    rw [swept_of_unreferred hg hu]
    refine ⟨h.released_counted hg, fun other hlt => ?_⟩
    have hlt : other < platform.buffers.next := Table.next_remove ▸ hlt
    change ((platform.buffers.remove slot).get? other).isSome ↔ _
    rw [Table.get?_remove]
    by_cases hother : other = slot
    · rw [if_pos hother, hother, ← hreferred, hu]
      exact iff_of_false Bool.false_ne_true Bool.false_ne_true
    · rw [if_neg hother]
      exact htends other hother hlt

/-- What became of a buffer with one drop: it is live if something still refers to it, and otherwise
its release was reported, once. -/
structure Settled (notes : List Note) (platform : Platform) (slot : Nat) (after : Platform) :
    Prop where
  live_iff : (after.buffers.get? slot).isSome ↔ Referred notes slot
  kept : Referred notes slot →
    after.machine.journal.count .released = platform.machine.journal.count .released
  released : ¬ Referred notes slot →
    after.machine.journal.count .released = platform.machine.journal.count .released + 1

theorem Counted.swept_settled {mid : Platform} (h : Counted notes mid)
    (hg : mid.buffers.get? slot = some live)
    (hc : mid.machine.journal.count .released = platform.machine.journal.count .released) :
    Settled notes platform slot (mid.swept slot) := by
  have hreferred := h.referred_iff_isReferred hg
  cases hu : mid.isReferred slot live with
  | true =>
    have hthere : Referred notes slot := hreferred.mpr hu
    rw [swept_of_referred hg hu]
    exact ⟨by simp [hg, hthere], fun _ => hc, fun hgone => absurd hthere hgone⟩
  | false =>
    have hgone : ¬ Referred notes slot := by
      rw [hreferred, hu]
      exact Bool.false_ne_true
    rw [swept_of_unreferred hg hu]
    refine ⟨iff_of_false ?_ hgone, fun hthere => absurd hthere hgone, fun _ => ?_⟩
    · change ¬ ((mid.buffers.remove slot).get? slot).isSome
      simp
    · rw [← hc]
      exact congrArg Prod.snd (tally_released mid slot live)

namespace Tended

theorem start : Tended [] {} where
  allocated_eq := rfl
  nextBuffer_eq := rfl
  tidy slot live hg := by simp [Table.get?] at hg
  unborn slot _ := ⟨List.not_mem_nil, rfl⟩
  fresh slot := rfl
  remaining_eq slot := rfl
  dropped_lt reader hm := absurd hm List.not_mem_nil
  live_eq := rfl
  releases_eq := rfl
  tends slot hlt := absurd hlt (Nat.not_lt_zero slot)

theorem of_same (h : Tended notes platform) (hb : after.buffers = platform.buffers)
    (hr : after.readers = platform.readers) (hn : after.nextBuffer = platform.nextBuffer)
    (ht : after.machine.tally = platform.machine.tally) : Tended notes after :=
  ⟨h.toCounted.of_same hb hr hn ht, fun slot => by simpa only [Tends, hb] using h.tends slot⟩

theorem returns (h : Tended notes platform) (place : Nat) :
    Tended (notes ++ [.returned place]) platform := by
  refine ⟨h.toCounted.returns place, fun slot => ?_⟩
  have hremaining : remaining (notes ++ [.returned place]) slot = remaining notes slot :=
    remaining_append_unread ⟨fun _ => rfl, by simp⟩
  simpa [Tends, hremaining] using h.tends slot

theorem allocates (h : Tended notes platform) {buffer : Buffer} {machine : Machine}
    (hg : platform.machine.Gains buffer.storage.runs machine)
    (hid : buffer.id = platform.nextBuffer) (hc : buffer.cursors = {}) :
    Tended (notes ++ [.allocated platform.buffers.next buffer.id]) { platform with
      machine := { machine with journal := machine.journal.countAllocated }
      buffers := platform.buffers.push { buffer, held := true }
      nextBuffer := platform.nextBuffer + 1 } := by
  refine ⟨h.toCounted.allocates hg hid hc, fun slot hlt => ?_⟩
  have hremaining : remaining (notes ++ [.allocated platform.buffers.next buffer.id]) slot =
      remaining notes slot :=
    remaining_append_unread ⟨fun _ => rfl, by simp⟩
  rw [hremaining, Table.get?_push]
  by_cases hslot : slot = platform.buffers.next
  · rw [if_pos hslot]
    exact iff_of_true rfl (.inl (by simpa using (h.unborn slot hslot.ge).1))
  · rw [if_neg hslot]
    have hlt : slot < platform.buffers.next + 1 := Table.next_push ▸ hlt
    simpa using h.tends slot (by omega)

theorem attaches (h : Tended notes platform) {cursors : Cursors} {site : Site}
    (hg : platform.buffers.get? slot = some live) (hj : live.buffer.cursors.Joined cursors)
    (ht : Site.Turned ⟨platform.machine, live.buffer⟩ cursors site) :
    Tended (notes ++ [.attached platform.readers.next slot live.buffer.cursors.nextReader])
      { platform with
        machine := site.machine
        buffers := platform.buffers.set slot { live with buffer := site.buffer }
        readers := platform.readers.push ⟨slot, live.buffer.cursors.nextReader⟩ } := by
  refine ⟨h.toCounted.attaches hg hj ht, fun other hlt => ?_⟩
  have hlt : other < platform.buffers.next := Table.next_set ▸ hlt
  have hundropped : .readerDropped platform.readers.next ∉ notes := fun hm =>
    absurd (h.dropped_lt _ hm) (Nat.lt_irrefl _)
  rw [remaining_append_attached hundropped, Table.get?_set]
  by_cases hslot : other = slot
  · subst hslot
    simp [Table.lt_next hg]
  · simpa [hslot, Ne.symm hslot] using h.tends other hlt

theorem dropsHandle (h : Tended notes platform) (hg : platform.buffers.get? slot = some live) :
    Tended (notes ++ [.handleDropped slot])
      (swept { platform with buffers := platform.buffers.set slot { live with held := false } }
        slot) := by
  refine (h.toCounted.dropsHandle hg).swept_tended (Table.get?_set_self hg _)
    fun other hne hlt => ?_
  have hlt : other < platform.buffers.next := Table.next_set ▸ hlt
  have hremaining : remaining (notes ++ [.handleDropped slot]) other = remaining notes other :=
    remaining_append_unread ⟨fun _ => rfl, by simp⟩
  simpa [hremaining, hne] using h.tends other hlt

theorem dropsReader (h : Tended notes platform) {reader : Nat} {handle : ReaderHandle} {site : Site}
    (hr : platform.readers.get? reader = some handle)
    (hg : platform.buffers.get? handle.buffer = some live)
    (ht : Site.Turned ⟨platform.machine, live.buffer⟩
      (live.buffer.cursors.without handle.id) site) :
    Tended (notes ++ [.readerDropped reader]) (swept
      { platform with
        machine := site.machine
        buffers := platform.buffers.set handle.buffer { live with buffer := site.buffer }
        readers := platform.readers.remove reader }
      handle.buffer) := by
  refine (h.toCounted.dropsReader hr hg ht).swept_tended (Table.get?_set_self hg _)
    fun other hne hlt => ?_
  have hlt : other < platform.buffers.next := Table.next_set ▸ hlt
  simpa [h.remaining_elsewhere hr hne, hne] using h.tends other hlt

/-- No buffer lasts longer than it is referred to. -/
theorem isReferred (h : Tended notes platform) (hg : platform.buffers.get? slot = some live) :
    platform.isReferred slot live = true := by
  have hlive := (h.tends slot (Table.lt_next hg)).mp (Option.isSome_iff_exists.mpr ⟨live, hg⟩)
  exact (h.isReferred_iff hg).mpr hlive

/-- The buffer of a reader is live, and the reader is in its table. -/
theorem reader_there (h : Tended notes platform) {reader : Nat} {handle : ReaderHandle}
    (hr : platform.readers.get? reader = some handle) :
    ∃ live, platform.buffers.get? handle.buffer = some live ∧
      (live.buffer.cursors.reader? handle.id).isSome := by
  have hthere : (reader, handle.id) ∈ remaining notes handle.buffer := h.mem_remaining_iff.mpr hr
  have hlt : handle.buffer < platform.buffers.next := by
    by_contra hge
    have hattached : (reader, handle.id) ∈ attached notes handle.buffer :=
      List.mem_of_mem_filter hthere
    rw [(h.unborn _ (Nat.le_of_not_lt hge)).2] at hattached
    cases hattached
  have hlive := (h.tends handle.buffer hlt).mpr (.inr (List.ne_nil_of_mem hthere))
  obtain ⟨live, hg⟩ := Option.isSome_iff_exists.mp hlive
  have hid : handle.id ∈ live.buffer.cursors.readers.map (·.id) := by
    rw [(h.tidy _ live hg).table_eq]
    exact List.mem_map_of_mem hthere
  obtain ⟨found, hfound, hsame⟩ := List.mem_map.mp hid
  exact ⟨live, hg, by simpa [Cursors.reader?] using ⟨found, hfound, hsame⟩⟩

theorem next (h : Tended notes platform) (he : Effect notes platform more after) :
    Tended (notes ++ more) after := by
  cases he with
  | deviceAdded | faultSet | taken | regionAdded | regionStored | pairStored =>
    rw [List.append_nil]
    exact h.of_same rfl rfl rfl rfl
  | @returned slot run =>
    have hfreed : Tended notes
        { platform with machine := platform.machine.free run.device run.address } :=
      h.of_same rfl rfl rfl (Machine.tally_free _ _)
    exact hfreed.returns slot
  | regionDropped =>
    rw [List.append_nil]
    exact h.of_same rfl rfl rfl (Machine.tally_release _)
  | storageAdded hg =>
    rw [List.append_nil]
    exact h.of_same rfl rfl rfl hg.tally_eq
  | storageDropped =>
    rw [List.append_nil]
    exact h.of_same rfl rfl rfl (Storage.tally_release _ _)
  | allocated hg hid hc => exact h.allocates hg hid hc
  | attached hg hj ht => exact h.attaches hg hj ht
  | handleDropped hg => exact h.dropsHandle hg
  | readerDropped hr hg ht => exact h.dropsReader hr hg ht

end Tended

theorem Trail.tended (trail : Trail notes platform) : Tended notes platform := by
  induction trail with
  | start => exact .start
  | next _ he ih => exact ih.next he

/-! ## Deeds on buffers -/

/-- The buffer is new and stands last. -/
theorem allocate_of_ok {backend : Backend} {request : Request} {buffer : Buffer} {machine : Machine}
    (h : Buffer.allocate backend request platform.nextBuffer platform.machine =
      .ok buffer machine) :
    allocate backend request platform = .ok platform.buffers.next { platform with
      machine
      buffers := platform.buffers.push { buffer, held := true }
      nextBuffer := platform.nextBuffer + 1 } :=
  (Action.bind_of_ok _ (onMachine_of_ok h)).trans rfl

theorem allocate_of_error {backend : Backend} {request : Request} {stop : Stop} {machine : Machine}
    (h : Buffer.allocate backend request platform.nextBuffer platform.machine =
      .error stop machine) :
    allocate backend request platform = .error stop { platform with machine } := by
  change (onMachine _ >>= _) platform = _
  exact Action.bind_of_error _ (onMachine_of_error h)

/-- A reader is attached to a live buffer, and otherwise nothing happens. -/
theorem attach_cases (platform : Platform) (slot history sampleDelay : Nat) :
    attach slot history sampleDelay platform = .ok none platform ∨
      (∃ stop, attach slot history sampleDelay platform = .error stop platform) ∨
      ∃ live cursors site, platform.buffers.get? slot = some live ∧
      live.buffer.cursors.Joined cursors ∧
        Site.Turned ⟨platform.machine, live.buffer⟩ cursors site ∧
        attach slot history sampleDelay platform = .ok (some platform.readers.next) { platform with
          machine := site.machine
          buffers := platform.buffers.set slot { live with buffer := site.buffer }
          readers := platform.readers.push ⟨slot, live.buffer.cursors.nextReader⟩ } := by
  cases hg : platform.buffers.get? slot with
  | none => exact .inl ((Action.bind_of_ok _ (onBuffer_absent hg)).trans rfl)
  | some live =>
    have hjoins := Site.attach_joins ⟨platform.machine, live.buffer⟩ history sampleDelay
    cases h : Site.attach history sampleDelay ⟨platform.machine, live.buffer⟩ with
    | error stop site =>
      obtain rfl := hjoins.of_error h
      refine .inr (.inl ⟨stop, (Action.bind_of_error _ (onBuffer_of_error hg h)).trans ?_⟩)
      rw [Table.set_same hg]
    | ok id site =>
      obtain ⟨rfl, cursors, hjoined, hturned⟩ := hjoins.of_ok h
      refine .inr (.inr ⟨live, cursors, site, rfl, hjoined, hturned, ?_⟩)
      exact (Action.bind_of_ok _ (onBuffer_of_ok hg h)).trans rfl

theorem dropHandle_of_some {slot : Nat} {live : LiveBuffer} (h : Tended notes platform)
    (hg : platform.buffers.get? slot = some live) : dropHandle slot platform = .ok (some ⟨⟩) (swept
      { platform with buffers := platform.buffers.set slot { live with held := false } } slot) :=
  (onSlot_eq hg).trans (Action.map_of_ok some ((h.toCounted.dropsHandle hg).releaseUnused_eq slot))

/-- The reader is detached first, and then its buffer is released if it was the last. -/
theorem dropReader_of_some {slot : Nat} {handle : ReaderHandle} (h : Tended notes platform)
    (hr : platform.readers.get? slot = some handle) : ∃ live site,
      platform.buffers.get? handle.buffer = some live ∧
      Site.Turned ⟨platform.machine, live.buffer⟩ (live.buffer.cursors.without handle.id) site ∧
      dropReader slot platform = .ok (some ⟨⟩) (swept
        { platform with
          machine := site.machine
          buffers := platform.buffers.set handle.buffer { live with buffer := site.buffer }
          readers := platform.readers.remove slot }
        handle.buffer) := by
  obtain ⟨live, hg, hattached⟩ := h.reader_there hr
  obtain ⟨site, hleave, hturned⟩ :=
    Site.leave_parts ⟨platform.machine, live.buffer⟩ (h.tidy _ live hg).tail_eq hattached
  refine ⟨live, site, hg, hturned, ?_⟩
  have hcounted := h.toCounted.dropsReader hr hg hturned
  refine (onSlot_eq hr).trans (Action.map_of_ok some ?_)
  exact (Action.bind_of_ok _ (Action.discard_of_ok (onBuffer_of_ok hg hleave))).trans
    (hcounted.releaseUnused_eq handle.buffer)

namespace Trail

theorem allocate (trail : Trail notes platform) {backend : Backend} (request : Request)
    (hd : backend.IsThere platform.machine.devices) :
    Trail (notes ++ (Deed.allocate backend request).notes platform)
      ((Deed.allocate backend request).after platform) := by
  have hallocate := Buffer.allocate_gains request platform.nextBuffer hd
  rw [Deed.notes, Deed.after]
  cases h : Buffer.allocate backend request platform.nextBuffer platform.machine with
  | error stop machine =>
    have herror := allocate_of_error h
    obtain rfl := hallocate.of_error h
    simpa only [herror, Action.after_of_error herror, List.append_nil] using trail
  | ok buffer machine =>
    obtain ⟨mid, hgains, rfl, hid, hcursors⟩ := hallocate.of_ok h
    have hok := allocate_of_ok h
    simp only [hok, Action.after_of_ok hok, Table.get?_push, if_true]
    exact trail.next (.allocated hgains hid hcursors)

theorem attach (trail : Trail notes platform) (slot history sampleDelay : Nat) :
    Trail (notes ++ (Deed.attach slot history sampleDelay).notes platform)
      ((Deed.attach slot history sampleDelay).after platform) := by
  rw [Deed.notes, Deed.after]
  rcases attach_cases platform slot history sampleDelay with
    hnone | ⟨stop, herror⟩ | ⟨live, cursors, site, hg, hjoined, hturned, hok⟩
  · simpa only [hnone, Action.after_of_ok hnone, List.append_nil] using trail
  · simpa only [herror, Action.after_of_error herror, List.append_nil] using trail
  · simp only [hok, Action.after_of_ok hok, Table.get?_push, if_true]
    exact trail.next (.attached hg hjoined hturned)

theorem dropHandle (trail : Trail notes platform) (slot : Nat) :
    Trail (notes ++ (Deed.dropHandle slot).notes platform)
      ((Deed.dropHandle slot).after platform) := by
  have htended := trail.tended
  rw [Deed.notes, Deed.after, held?]
  cases hg : platform.buffers.get? slot with
  | none =>
    have hnone : Platform.dropHandle slot platform = .ok none platform := onSlot_absent hg
    simpa [Action.after_of_ok hnone] using trail
  | some live =>
    rw [Action.after_of_ok (dropHandle_of_some htended hg)]
    cases hheld : live.held with
    | true => simpa [hheld] using trail.next (.handleDropped hg hheld)
    | false =>
      -- The handle was dropped before, and it is readers that keep the buffer.
      have hsame : { live with held := false } = live := by rw [← hheld]
      rw [hsame, Table.set_same hg, swept_of_referred hg (htended.isReferred hg)]
      simpa [hheld] using trail

theorem dropReader (trail : Trail notes platform) (slot : Nat) :
    Trail (notes ++ (Deed.dropReader slot).notes platform)
      ((Deed.dropReader slot).after platform) := by
  rw [Deed.notes, Deed.after]
  cases hr : platform.readers.get? slot with
  | none =>
    have hnone : Platform.dropReader slot platform = .ok none platform := onSlot_absent hr
    simpa [Action.after_of_ok hnone] using trail
  | some handle =>
    obtain ⟨live, site, hg, hturned, hok⟩ := dropReader_of_some trail.tended hr
    rw [Action.after_of_ok hok]
    exact trail.next (.readerDropped hr hg hturned)

/-- A deed comes to the effects that are noted of it. -/
theorem deed (trail : Trail notes platform) (deed : Deed) (h : deed.Proper notes platform) :
    Trail (notes ++ deed.notes platform) (deed.after platform) := by
  cases deed with
  | freeAllocation slot => exact trail.freeAllocation h
  | allocate backend request => exact trail.allocate request h
  | attach slot history sampleDelay => exact trail.attach slot history sampleDelay
  | dropHandle slot => exact trail.dropHandle slot
  | dropReader slot => exact trail.dropReader slot
  | addDevice device => exact trail.next (.deviceAdded h)
  | setFaulty number faulty => exact trail.next (.faultSet number faulty)
  | allocateOn number bytes => exact (trail.allocateOn bytes h).after.unnoted
  | allocateHostRegion kind bytes => exact (trail.allocateHostRegion kind bytes).after.unnoted
  | allocateDeviceRegion number bytes => exact (trail.allocateDeviceRegion bytes h).after.unnoted
  | dropRegion slot => exact (trail.dropRegion slot).after.unnoted
  | storageOfRegion context slot => exact (trail.storageOfRegion context slot).after.unnoted
  | storageOfPair context host device =>
    exact (trail.storageOfPair context host device).after.unnoted
  | allocateStorage backend context bytes =>
    exact (trail.allocateStorage context bytes h).after.unnoted
  | dropStorage slot => exact (trail.dropStorage slot).after.unnoted

end Trail

theorem Course.trail (course : Course notes platform) : Trail notes platform := by
  induction course with
  | start => exact .start
  | next deed _ h ih => exact ih.deed deed h

/-! ## Lifetimes -/

structure Lifetimes (notes : List Note) (platform : Platform) : Prop where
  live_iff : ∀ slot, (platform.buffers.get? slot).isSome ↔ Referred notes slot
  live_eq : platform.machine.journal.live = {slot | Referred notes slot}.ncard
  /-- As many releases were reported as there were buffers that are not live any more. -/
  releases_eq : platform.machine.journal.count .released + platform.machine.journal.live =
    (allocated notes).length
  /-- Buffers are numbered in the order in which they were allocated, and are identified by their
  numbers. -/
  allocated_eq : allocated notes = (List.range (allocated notes).length).map
    fun number => (number, number)
  id_eq : ∀ slot live, platform.buffers.get? slot = some live → live.buffer.id = slot
  /-- The readers of a buffer are identified in the order in which they were attached. -/
  attached_eq : ∀ slot, (attached notes slot).map (·.2) = List.range (attached notes slot).length
  readers_iff : ∀ reader handle, platform.readers.get? reader = some handle ↔
    (reader, handle.id) ∈ remaining notes handle.buffer
  table_eq : ∀ slot live, platform.buffers.get? slot = some live →
    live.buffer.cursors.readers.map (·.id) = (remaining notes slot).map (·.2)
  nodup_remaining : ∀ slot, ((remaining notes slot).map (·.2)).Nodup
  /-- A buffer is released when the last that refers to it is dropped. Neither is a reader left in
  its table then, nor does the count underflow, so no drop is broken off. -/
  dropHandle : ∀ slot live, platform.buffers.get? slot = some live → live.held = true →
    ∃ after, Platform.dropHandle slot platform = .ok (some ⟨⟩) after ∧
      Settled (notes ++ [.handleDropped slot]) platform slot after
  dropReader : ∀ reader handle, platform.readers.get? reader = some handle →
    ∃ after, Platform.dropReader reader platform = .ok (some ⟨⟩) after ∧
      Settled (notes ++ [.readerDropped reader]) platform handle.buffer after
  /-- What nothing refers to any more will not be referred to again, so it is not released again
  either. -/
  ended : ∀ slot id, .allocated slot id ∈ notes → ¬ Referred notes slot →
    ∀ deed : Deed, ¬ Referred (notes ++ deed.notes platform) slot

/-- Readers are attached to live buffers only. -/
theorem Deed.attached_notes (deed : Deed) (hg : platform.buffers.get? slot = none) :
    attached (deed.notes platform) slot = [] := by
  cases deed with
  | attach place history sampleDelay =>
    rw [Deed.notes]
    rcases attach_cases platform place history sampleDelay with
      hnone | ⟨stop, herror⟩ | ⟨live, cursors, site, hthere, -, -, hok⟩
    · rw [hnone]
      rfl
    · rw [herror]
      rfl
    · have hne : place ≠ slot := by
        rintro rfl
        rw [hg] at hthere
        cases hthere
      simp [hok, Table.get?_push, attached, Note.attachment, hne]
  | allocate backend request =>
    rw [Deed.notes]
    split
    · next number after _ => cases after.buffers.get? number <;> rfl
    · rfl
  | freeAllocation _ | dropHandle _ | dropReader _ =>
    rw [Deed.notes]
    split <;> rfl
  | _ => rfl

theorem Tended.referred_iff (h : Tended notes platform) :
    (platform.buffers.get? slot).isSome ↔ Referred notes slot := by
  rw [Referred, h.mem_allocated_iff]
  rcases Nat.lt_or_ge slot platform.buffers.next with hlt | hge
  · simpa [hlt] using h.tends slot hlt
  · have hunread : remaining notes slot = [] := by simp [remaining, (h.unborn slot hge).2]
    simp [Table.get?_eq_none hge, hunread, hge]

theorem Tended.referred_before (h : Tended notes platform) (deed : Deed)
    (ha : ∃ id, .allocated slot id ∈ notes) (hr : Referred (notes ++ deed.notes platform) slot) :
    Referred notes slot := by
  rcases hr with ⟨-, hheld⟩ | hread
  · exact .inl ⟨ha, fun hm => hheld (List.mem_append_left _ hm)⟩
  · by_contra hgone
    have hdead : platform.buffers.get? slot = none :=
      Option.not_isSome_iff_eq_none.mp (mt h.referred_iff.mp hgone)
    -- No reader was left, and none can be attached any more.
    have hnone : remaining notes slot = [] := by_contra fun hne => hgone (.inr hne)
    refine hread ?_
    rw [remaining, attached_append, deed.attached_notes hdead, List.append_nil]
    rw [remaining, List.filter_eq_nil_iff] at hnone
    refine List.filter_eq_nil_iff.mpr fun reader hm => ?_
    have hdropped : .readerDropped reader.1 ∈ notes := by simpa using hnone reader hm
    simp [hdropped]

end Platform

open Platform in
/-- In whatever order buffers are allocated, read and dropped, a buffer is live exactly as long as
its handle or one of its readers is there. -/
theorem buffers_last_while_referred {notes : List Note} {platform : Platform}
    (course : Course notes platform) :
    Lifetimes notes platform := by
  have htended := course.trail.tended
  have hlength : (allocated notes).length = platform.buffers.next := by simp [htended.allocated_eq]
  have hused : {slot | (platform.buffers.get? slot).isSome} = {slot | Referred notes slot} :=
    Set.ext fun slot => htended.referred_iff
  constructor
  case live_iff => exact fun slot => htended.referred_iff
  case live_eq => rw [htended.live_eq, ← Table.ncard_used, hused]
  case releases_eq => rw [hlength, htended.live_eq, htended.releases_eq]
  case allocated_eq => rw [hlength, htended.allocated_eq]
  case id_eq => exact fun slot live hg => (htended.tidy slot live hg).id_eq
  case attached_eq => exact htended.fresh
  case readers_iff => exact fun reader handle => htended.mem_remaining_iff.symm
  case table_eq => exact fun slot live hg => (htended.tidy slot live hg).table_eq
  case nodup_remaining => exact htended.nodup_remaining
  case dropHandle =>
    intro slot live hg _
    refine ⟨_, dropHandle_of_some htended hg, ?_⟩
    exact (htended.toCounted.dropsHandle hg).swept_settled (Table.get?_set_self hg _) rfl
  case dropReader =>
    intro reader handle hr
    obtain ⟨live, site, hg, hturned, hok⟩ := dropReader_of_some htended hr
    refine ⟨_, hok, ?_⟩
    exact (htended.toCounted.dropsReader hr hg hturned).swept_settled (Table.get?_set_self hg _)
      (hturned.journal.count_eq .released rfl)
  case ended =>
    exact fun slot id hm hgone deed hr => hgone (htended.referred_before deed ⟨id, hm⟩ hr)

open Platform in
/-- The second of two buffers outlasts its handle and its first reader. An allocation in between
failed. -/
theorem buffers_last_while_referred_by_reader :
    let request : Request := { items := 4, itemSize := 1 }
    let deeds : List Deed :=
      [.allocate .heap request, .allocate .heap { request with itemSize := 0 },
      .allocate .heap request, .attach 1 1 0, .attach 1 2 0, .dropHandle 1, .dropHandle 0,
      .dropReader 0]
    let played := deeds.foldl Deed.step ([], {})
    (Course played.1 played.2 ∧
      played.1 = [.allocated 0 0, .allocated 1 1, .attached 0 1 0, .attached 1 1 1,
        .handleDropped 1, .handleDropped 0, .readerDropped 0]) ∧
      Lifetimes played.1 played.2 ∧ Referred played.1 1 ∧ ¬ Referred played.1 0 := by
  intro request deeds played
  have hproper : Deed.AllProper ([], {}) deeds :=
    ⟨trivial, trivial, trivial, trivial, trivial, trivial, trivial, trivial, trivial⟩
  have course : Course played.1 played.2 := Course.start.play hproper
  have hnotes : played.1 =
      [.allocated 0 0, .allocated 1 1, .attached 0 1 0, .attached 1 1 1, .handleDropped 1,
      .handleDropped 0, .readerDropped 0] := by decide +kernel
  refine ⟨⟨course, hnotes⟩, buffers_last_while_referred course, ?_, ?_⟩
  · rw [hnotes]
    exact .inr (by decide)
  · rw [hnotes]
    rintro (⟨-, hheld⟩ | hread)
    · exact hheld (by decide)
    · exact hread (by decide)

end StreamBuffer
