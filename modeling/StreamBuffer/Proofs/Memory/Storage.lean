import StreamBuffer.Storage
import StreamBuffer.Proofs.Checked
import StreamBuffer.Proofs.Memory.Devices

/-!
# Backed storage

Storage is backed while it is laid out for its context and its device memory, if it has any, is
live. Readers see the bytes of one region. What a writer stored and published, and what is moved
by a relocation, is spliced into these bytes, unless the device of the storage refuses.
-/

namespace StreamBuffer

inductive Devices.Refuses (devices : Devices) (number : Nat) : Stop → Prop where
  | faulty (transfer : Transfer) (h : (devices.get number).faulty = true) :
      Refuses devices number (.error (.injectedFault transfer (devices.get number).name))
  | immovable (length : Nat) (h : (devices.get number).supportsMove = false) :
      Refuses devices number (.error (.moveNotImplemented length (devices.get number).name))

namespace Storage

inductive Backed (devices : Devices) (size : Nat) : Storage → Prop where
  | host {segment : Segment} (hs : segment.bytes.size = size) :
      Backed devices size ⟨.hostToHost, .single (.host segment)⟩
  | device {run : DeviceRun} (hr : run.Live devices) (hl : run.length = size) :
      Backed devices size ⟨.deviceToDevice, .single (.device run)⟩
  | toDevice {segment : Segment} {run : DeviceRun} (hs : segment.bytes.size = size)
      (hr : run.Live devices) (hl : run.length = size) :
      Backed devices size ⟨.hostToDevice, .split segment run⟩
  | toHost {segment : Segment} {run : DeviceRun} (hs : segment.bytes.size = size)
      (hr : run.Live devices) (hl : run.length = size) :
      Backed devices size ⟨.deviceToHost, .split segment run⟩

def device? (storage : Storage) : Option Nat :=
  match storage.layout with
  | .single (.host _) => none
  | .single (.device run) | .split _ run => some run.device

def Refuses (storage : Storage) (devices : Devices) (stop : Stop) : Prop :=
  ∃ number, storage.device? = some number ∧ devices.Refuses number stop

def readable (storage : Storage) (devices : Devices) : Bytes := storage.readRegion.bytes devices

def writable (storage : Storage) (devices : Devices) : Bytes := storage.writeRegion.bytes devices

structure Shows (storage : Storage) (devices : Devices) (size : Nat) (bytes : Bytes)
    (after : Storage) (others : Devices) : Prop where
  backed : after.Backed others size
  context_eq : after.context = storage.context
  device_eq : after.device? = storage.device?
  akin : devices.Akin others
  readable_eq : after.readable others = bytes

variable {storage : Storage} {devices others : Devices} {size target source length offset : Nat}
variable {segment : Segment} {run : DeviceRun} {data : Bytes}

/-! ## Within one region -/

theorem host_copyWithin (hlimit : segment.bytes.size < Word.limit)
    (hs : source + length ≤ segment.bytes.size) (ht : target + length ≤ segment.bytes.size)
    (ha : target + length ≤ source) :
    (Region.host segment).copyWithin devices target source length =
      .ok (.host { segment with
        bytes := segment.bytes.splice target (segment.bytes.slice source length) }, devices) := by
  have hstop : Word.add target length = .ok (target + length) := Word.add_eq_ok (by omega)
  unfold Region.copyWithin Region.checkRange
  simp only [Region.size, Segment.size, hs, ht, if_true, hstop]
  split
  · subst length
    rw [Bytes.slice_none, Bytes.splice_none (by omega)]
    rfl
  · change (if source < target + length then _ else _) = _
    rw [if_neg (Nat.not_lt_of_le ha)]
    rfl

theorem host_moveWithin (hs : source + length ≤ segment.bytes.size)
    (ht : target + length ≤ segment.bytes.size) :
    (Region.host segment).moveWithin devices target source length =
      .ok (.host { segment with
        bytes := segment.bytes.splice target (segment.bytes.slice source length) }, devices) := by
  unfold Region.moveWithin Region.checkRange
  simp only [Region.size, Segment.size, hs, ht, if_true]
  split
  · rcases ‹_ ∨ _› with rfl | rfl
    · rw [Bytes.slice_none, Bytes.splice_none (by omega)]
      rfl
    · rw [Bytes.splice_slice hs]
      rfl
  · rfl

/-- The run holds the bytes with some of them overwritten, or its device refused. -/
def Runs (run : DeviceRun) (devices : Devices) (offset : Nat) (data : Bytes)
    (attempt : Attempt (Region × Devices)) : Prop :=
  (∃ others, attempt = .ok (.device run, others) ∧ run.Live others ∧ devices.Akin others ∧
    run.bytes others = (run.bytes devices).splice offset data) ∨
  ∃ stop, attempt = .error stop ∧ devices.Refuses run.device stop

theorem runs_written (h : run.Live devices) (hr : offset + data.size ≤ run.length) :
    Runs run devices offset data (.ok (.device run, devices.set run.device
      ((devices.get run.device).write (run.address + offset) data))) := by
  obtain ⟨hlive, hbytes⟩ := h.write_eq hr _ rfl
  exact .inl ⟨_, rfl, hlive, .set rfl rfl rfl, hbytes⟩

theorem runs_same (h : run.Live devices)
    (hb : (run.bytes devices).splice offset data = run.bytes devices) :
    Runs run devices offset data (.ok (.device run, devices)) :=
  .inl ⟨devices, rfl, h, .refl _, hb.symm⟩

theorem device_copyWithin (h : run.Live devices) (hs : source + length ≤ run.length)
    (ht : target + length ≤ run.length) (ha : target + length ≤ source) :
    Runs run devices target ((run.bytes devices).slice source length)
      ((Region.device run).copyWithin devices target source length) := by
  have haddr := h.addressed
  have hsize := h.size_bytes
  unfold Region.copyWithin Region.checkRange
  simp only [Region.size, hs, ht, if_true,
    Word.add_eq_ok (show target + length < Word.limit by omega),
    Word.add_eq_ok (show run.address + target < Word.limit by omega),
    Word.add_eq_ok (show run.address + source < Word.limit by omega)]
  split
  · subst length
    exact runs_same h (by rw [Bytes.slice_none, Bytes.splice_none (by omega)])
  · change Runs _ _ _ _ (if source < target + length then _ else _)
    rw [if_neg (Nat.not_lt_of_le ha)]
    change Runs _ _ _ _ (Device.copy _ _ _ _ >>= _)
    rw [h.copy_eq ht hs]
    split
    · exact .inr ⟨_, rfl, .faulty _ ‹_›⟩
    · exact runs_written h (by rw [Bytes.size_slice (by omega)]; exact ht)

theorem device_moveWithin (h : run.Live devices) (hs : source + length ≤ run.length)
    (ht : target + length ≤ run.length) :
    Runs run devices target ((run.bytes devices).slice source length)
      ((Region.device run).moveWithin devices target source length) := by
  have haddr := h.addressed
  have hsize := h.size_bytes
  unfold Region.moveWithin Region.checkRange
  simp only [Region.size, hs, ht, if_true,
    Word.add_eq_ok (show run.address + target < Word.limit by omega),
    Word.add_eq_ok (show run.address + source < Word.limit by omega)]
  split
  · rcases ‹_ ∨ _› with rfl | rfl
    · exact runs_same h (by rw [Bytes.slice_none, Bytes.splice_none (by omega)])
    · exact runs_same h (Bytes.splice_slice (by omega))
  · change Runs _ _ _ _ (Device.move _ _ _ _ >>= _)
    rw [h.move_eq ht hs]
    split
    · exact .inr ⟨_, rfl, .immovable _ ‹_›⟩
    split
    · exact .inr ⟨_, rfl, .faulty _ ‹_›⟩
    · exact runs_written h (by rw [Bytes.size_slice (by omega)]; exact ht)

/-! ## Seen by readers and writers -/

namespace Backed

theorem device?_host (h : storage.Backed devices size) (hc : storage.context = .hostToHost) :
    storage.device? = none := by
  cases h <;> first | rfl | cases hc

theorem isShared_eq (h : storage.Backed devices size) :
    storage.isShared = !storage.context.crosses := by
  cases h <;> rfl

theorem size_readable (h : storage.Backed devices size) :
    (storage.readable devices).size = size := by
  cases h with
  | host hs | toHost hs => exact hs
  | device hr hl | toDevice _ hr hl => exact hr.size_bytes.trans hl

theorem size_writable (h : storage.Backed devices size) :
    (storage.writable devices).size = size := by
  cases h with
  | host hs | toDevice hs => exact hs
  | device hr hl | toHost _ hr hl => exact hr.size_bytes.trans hl

/-- A copy or a move inside the region that is read. -/
theorem moved (h : storage.Backed devices size) (hlimit : size < Word.limit) {overlapping : Bool}
    (hs : source + length ≤ size) (ht : target + length ≤ size)
    (ha : overlapping = false → target + length ≤ source) :
    (∃ region others,
      (if overlapping then storage.readRegion.moveWithin devices target source length
        else storage.readRegion.copyWithin devices target source length) = .ok (region, others) ∧
      storage.Shows devices size
        ((storage.readable devices).splice target ((storage.readable devices).slice source length))
        (storage.withRegion storage.context.readDomain region) others) ∨
    ∃ stop, (if overlapping then storage.readRegion.moveWithin devices target source length
        else storage.readRegion.copyWithin devices target source length) = .error stop ∧
      storage.Refuses devices stop := by
  -- the region that readers see is on the host or on the device; the other side keeps its bytes
  have onHost : ∀ segment : Segment, segment.bytes.size = size →
      (if overlapping then (Region.host segment).moveWithin devices target source length
        else (Region.host segment).copyWithin devices target source length) =
      .ok (.host { segment with
        bytes := segment.bytes.splice target (segment.bytes.slice source length) }, devices) :=
    fun segment hsize => by
      cases overlapping with
      | true => exact host_moveWithin (by omega) (by omega)
      | false => exact host_copyWithin (by omega) (by omega) (by omega) (ha rfl)
  have onDevice : ∀ run : DeviceRun, run.Live devices → run.length = size →
      Runs run devices target ((run.bytes devices).slice source length)
        (if overlapping then (Region.device run).moveWithin devices target source length
          else (Region.device run).copyWithin devices target source length) := fun run hr hl => by
    cases overlapping with
    | true => exact device_moveWithin hr (by omega) (by omega)
    | false => exact device_copyWithin hr (by omega) (by omega) (ha rfl)
  have size_spliced : ∀ bytes : Bytes, bytes.size = size →
      (bytes.splice target (bytes.slice source length)).size = size := fun bytes hb => by
    rw [Bytes.size_splice (by rw [Bytes.size_slice (by omega)]; omega), hb]
  cases h with
  | host hsize =>
    exact .inl ⟨_, _, onHost _ hsize, .host (size_spliced _ hsize), rfl, rfl, .refl _, rfl⟩
  | device hr hl =>
    rcases onDevice _ hr hl with ⟨others, he, hlive, hakin, hbytes⟩ | ⟨stop, he, hrefuses⟩
    · exact .inl ⟨_, _, he, .device hlive hl, rfl, rfl, hakin, hbytes⟩
    · exact .inr ⟨stop, he, _, rfl, hrefuses⟩
  | toDevice hsize hr hl =>
    rcases onDevice _ hr hl with ⟨others, he, hlive, hakin, hbytes⟩ | ⟨stop, he, hrefuses⟩
    · exact .inl ⟨_, _, he, .toDevice hsize hlive hl, rfl, rfl, hakin, hbytes⟩
    · exact .inr ⟨stop, he, _, rfl, hrefuses⟩
  | toHost hsize hr hl =>
    exact .inl ⟨_, _, onHost _ hsize, .toHost (size_spliced _ hsize) hr hl, rfl, rfl, .refl _, rfl⟩

/-- A copy whose source leaves the region is refused. -/
theorem copyWithin_beyond (h : storage.Backed devices size) (hl : 0 < length)
    (hs : size < source + length) :
    storage.readRegion.copyWithin devices target source length =
      .error (.error
        (.rangeExceedsRegion .copySource source length storage.context.readDomain size)) := by
  have hregion : storage.readRegion.size = size ∧
      storage.readRegion.domain = storage.context.readDomain := by
    cases h <;> exact ⟨‹_›, rfl⟩
  unfold Region.copyWithin Region.checkRange
  rw [hregion.1, hregion.2, if_neg (by omega), if_neg (by omega)]
  rfl

/-- What the writer stored is read at once unless it has to be transferred. -/
theorem stored (h : storage.Backed devices size) (hd : offset + data.size ≤ size) :
    storage.Shows devices size
      (if storage.context.crosses then storage.readable devices
        else (storage.readable devices).splice offset data)
      (storage.store devices offset data).1 (storage.store devices offset data).2 ∧
    (storage.store devices offset data).1.writable (storage.store devices offset data).2 =
      (storage.writable devices).splice offset data := by
  cases h with
  | host hs =>
    exact ⟨⟨.host (by rw [Bytes.size_splice (by omega), hs]), rfl, rfl, .refl _, rfl⟩, rfl⟩
  | device hr hl =>
    obtain ⟨hlive, hbytes⟩ := hr.write_eq (show offset + data.size ≤ _ by rw [hl]; exact hd) _ rfl
    exact ⟨⟨.device hlive hl, rfl, rfl, .set rfl rfl rfl, hbytes⟩, hbytes⟩
  | toDevice hs hr hl =>
    exact ⟨⟨.toDevice (by rw [Bytes.size_splice (by omega), hs]) hr hl, rfl, rfl, .refl _, rfl⟩,
      rfl⟩
  | toHost hs hr hl =>
    obtain ⟨hlive, hbytes⟩ := hr.write_eq (show offset + data.size ≤ _ by rw [hl]; exact hd) _ rfl
    exact ⟨⟨.toHost hs hlive hl, rfl, rfl, .set rfl rfl rfl, rfl⟩, hbytes⟩

/-- A transfer brings to the readers what the writer sees. -/
theorem transferred (h : storage.Backed devices size) (hc : storage.context.crosses = true)
    (hl : offset + length ≤ size) :
    (∃ after others, storage.transfer devices offset length = .ok (after, others) ∧
      storage.Shows devices size
        ((storage.readable devices).splice offset ((storage.writable devices).slice offset length))
        after others) ∨
    ∃ error, storage.transfer devices offset length = .error (.error error) ∧
      storage.Refuses devices (.error error) := by
  cases h with
  | host | device => cases hc
  | @toDevice segment run hs hr hrun =>
    have haddr := hr.addressed
    have hslice : (segment.bytes.slice offset length).size = length := Bytes.size_slice (by omega)
    have hcopy := hr.copyIn_eq
      (show offset + (segment.bytes.slice offset length).size ≤ run.length by omega)
    unfold transfer sendToDevice Region.checkRange
    simp only [Context.writeDomain, Region.size, Segment.size, show offset + length ≤
      segment.bytes.size by omega,
      show offset + length ≤ run.length by omega, if_true,
      Word.add_eq_ok (show run.address + offset < Word.limit by omega)]
    change (∃ after others, ((Device.copyIn _ _ _ >>= _ : Attempt _) >>= _) = _ ∧ _) ∨
      ∃ stop, ((Device.copyIn _ _ _ >>= _ : Attempt _) >>= _) = _ ∧ _
    -- a device refuses before it writes, or the copy is made
    rw [hcopy]
    split
    · exact .inr ⟨_, rfl, _, rfl, .faulty _ ‹_›⟩
    · obtain ⟨hlive, hbytes⟩ := hr.write_eq
        (show offset + (segment.bytes.slice offset length).size ≤ run.length by omega)
        { (devices.get run.device).write (run.address + offset)
          (segment.bytes.slice offset length) with
          bytesToDevice := (devices.get run.device).bytesToDevice +
            (segment.bytes.slice offset length).size } rfl
      exact .inl ⟨_, _, rfl, .toDevice hs hlive hrun, rfl, rfl, .set rfl rfl rfl, hbytes⟩
  | @toHost segment run hs hr hrun =>
    have haddr := hr.addressed
    have hslice : ((run.bytes devices).slice offset length).size = length :=
      Bytes.size_slice (by rw [hr.size_bytes]; omega)
    have hcopy := hr.copyOut_eq (show offset + length ≤ run.length by omega)
    unfold transfer fetchFromDevice Region.checkRange
    simp only [Context.writeDomain, Region.size, Segment.size, show offset + length ≤
      segment.bytes.size by omega,
      show offset + length ≤ run.length by omega, if_true,
      Word.add_eq_ok (show run.address + offset < Word.limit by omega)]
    change (∃ after others, ((Device.copyOut _ _ _ >>= _ : Attempt _) >>= _) = _ ∧ _) ∨
      ∃ stop, ((Device.copyOut _ _ _ >>= _ : Attempt _) >>= _) = _ ∧ _
    rw [hcopy]
    split
    · exact .inr ⟨_, rfl, _, rfl, .faulty _ ‹_›⟩
    · have hget : (Devices.get (devices.set run.device { devices.get run.device with
          bytesToHost := (devices.get run.device).bytesToHost + length }) run.device).allocations =
          (devices.get run.device).allocations := by
        rw [Devices.get_set hr.device_lt]
      have hsize : (segment.bytes.splice offset ((run.bytes devices).slice offset length)).size =
          size := by
        rw [Bytes.size_splice (by omega), hs]
      exact .inl ⟨_, _, rfl, .toHost hsize
        (hr.of_allocations List.length_set hget) hrun, rfl, rfl, .set rfl rfl rfl, rfl⟩

/-- What was stored is published to the readers. -/
theorem published {machine : Machine} (h : storage.Backed machine.devices size)
    (hl : offset + length ≤ size) :
    (storage.publish offset length).Ensures machine
      (fun after machine' => storage.Shows machine.devices size
        (if storage.context.crosses then
          (storage.readable machine.devices).splice offset
            ((storage.writable machine.devices).slice offset length)
          else storage.readable machine.devices) after machine'.devices)
      fun stop machine' => machine'.devices = machine.devices ∧
      storage.Refuses machine.devices stop := by
  unfold publish
  by_cases hskip : (storage.isShared || length == 0) = true
  · rw [if_pos hskip]
    refine .pure ⟨h, rfl, rfl, .refl _, ?_⟩
    rw [h.isShared_eq] at hskip
    split
    · rename_i hc
      have hz : length = 0 := by simpa [hc] using hskip
      rw [hz, Bytes.slice_none, Bytes.splice_none (by rw [h.size_readable]; omega)]
    · rfl
  · rw [if_neg hskip]
    have hc : storage.context.crosses = true := by
      rw [h.isShared_eq] at hskip
      simp only [Bool.or_eq_true, not_or, Bool.not_eq_true', Bool.not_eq_false] at hskip
      exact hskip.1
    rw [if_pos hc]
    refine .get_bind ?_
    rcases h.transferred hc hl with ⟨after, others, he, hshows⟩ | ⟨error, he, hrefuses⟩
    · rw [he]
      exact hshows
    · rw [he]
      exact ⟨rfl, hrefuses⟩

end Backed

end Storage

end StreamBuffer
