import StreamBuffer.Proofs.Sizing
import StreamBuffer.Proofs.Steps

/-!
# Allocated buffers

A buffer that was allocated is sound: its measures fit, its storage is backed by zeroed memory, and
no cursor has moved. Device memory is apart from all memory the device gave away before.
-/

namespace StreamBuffer

/-! ## Memory -/

namespace Segment

variable {paging : Paging} {size : Nat} {segment : Segment}

theorem le_of_checkHeap (h : checkHeap size = .ok ⟨⟩) : size ≤ limit := by
  unfold checkHeap at h
  obtain ⟨_, h⟩ := guard_eq_ok.mp h
  split at h
  · cases h
  · omega

theorem le_of_checkPinned (h : checkPinned paging size = .ok ⟨⟩) : size ≤ limit := by
  unfold checkPinned at h
  obtain ⟨_, h⟩ := guard_eq_ok.mp h
  obtain ⟨mapped, hm, h⟩ := bind_eq_ok.mp h
  obtain ⟨_, rfl⟩ := Word.mul_eq_ok_iff.mp (liftM_eq_ok.mp hm)
  split at h
  · cases h
  · -- What is mapped is whole pages, and not less than what was asked for.
    refine Nat.le_trans (Sizing.le_ceilDiv_mul paging.pageSize_pos) (paging.mapped_le _ ?_)
    rwa [Option.eq_none_iff_forall_ne_some]

theorem allocateHeap_eq (h0 : size ≠ 0) (hl : size ≤ limit) :
    allocateHeap size = .ok (zeroed .heap size) := by
  unfold allocateHeap checkHeap
  rw [if_neg h0, if_neg (Nat.not_lt.mpr hl)]
  rfl

theorem allocateHeap_eq_ok (h : allocateHeap size = .ok segment) :
    segment = .zeroed .heap size ∧ size ≤ limit := by
  obtain ⟨_, hc, h⟩ := bind_eq_ok.mp h
  cases h
  exact ⟨rfl, le_of_checkHeap hc⟩

end Segment

theorem Attempt.wrap_eq_ok {α : Type} {attempt : Attempt α} {cause : Error → Error} {a : α}
    (h : attempt.wrap cause = .ok a) : attempt = .ok a := by
  unfold Attempt.wrap at h
  split at h
  · cases h
  · exact h

structure Device.Orderly (device : Device) : Prop where
  before : ∀ allocation ∈ device.allocations,
    allocation.address + allocation.bytes.size < device.nextAddress
  left : device.nextAddress ≤ 1 <<< 63

def Backend.Ready (backend : Backend) (devices : Devices) : Prop :=
  match backend with
  | .heap | .pinned => True
  | .device number => number < devices.length ∧ (devices.get number).Orderly

theorem Device.allocate_eq_ok {device changed : Device} {size address : Nat}
    (h : device.allocate size = .ok (address, changed)) :
    address = device.nextAddress ∧
      changed.allocations = device.allocations ++ [⟨device.nextAddress, Bytes.zeroed size⟩] ∧
      changed.name = device.name ∧ changed.supportsMove = device.supportsMove ∧
      changed.faulty = device.faulty ∧ size ≤ Segment.limit := by
  unfold allocate at h
  cases hrefusal : device.refusal with
  | some error =>
    rw [hrefusal] at h
    cases h
  | none =>
    rw [hrefusal] at h
    obtain ⟨segment, hs, h⟩ := bind_eq_ok.mp h
    obtain ⟨rfl, hle⟩ := Segment.allocateHeap_eq_ok hs
    cases h
    exact ⟨rfl, rfl, rfl, rfl, rfl, hle⟩

theorem Backend.deviceRun_live {devices others : Devices} {number bytes : Nat} {run : DeviceRun}
    (hr : (Backend.device number).Ready devices)
    (h : deviceRun devices number bytes = .ok (run, others)) :
    run.Live others ∧ run.device = number ∧ run.length = bytes ∧ run.bytes others = .zeroed bytes ∧
      devices.Akin others ∧ bytes ≤ Segment.limit := by
  obtain ⟨hlt, hbefore, hleft⟩ := hr
  obtain ⟨⟨address, changed⟩, ha, h⟩ := bind_eq_ok.mp (Attempt.wrap_eq_ok h)
  obtain ⟨rfl, halloc, hname, hmoves, hfaulty, hle⟩ := Device.allocate_eq_ok ha
  cases h
  have hsize : (Bytes.zeroed bytes).size = bytes := Bytes.size_zeroed bytes
  have hget : (Devices.get (devices.set number changed) number).allocations = _ :=
    (congrArg Device.allocations (Devices.get_set hlt)).trans halloc
  refine ⟨⟨by rw [List.length_set]; exact hlt, ?_, _, _, [], hget, hsize, hbefore, nofun⟩, rfl, rfl,
    ?_, .set hname hmoves hfaulty, hle⟩
  · unfold Segment.limit at hle
    unfold Word.limit
    dsimp only
    omega
  · exact DeviceRun.Live.bytes_eq hget hsize hbefore

/-! ## Storage -/

structure Backend.Provides (backend : Backend) (context : Context) (devices : Devices) (bytes : Nat)
    (storage : Storage) (others : Devices) : Prop where
  backed : storage.Backed others bytes
  context_eq : storage.context = context
  device_eq : ∀ number, storage.device? = some number → backend = .device number
  akin : devices.Akin others
  readable_eq : storage.readable others = .zeroed bytes
  size_le : bytes ≤ Segment.limit

namespace Backend

variable {paging : Paging} {devices others : Devices} {context : Context} {bytes number : Nat}
variable {storage : Storage}

theorem hostSegment_eq_ok {kind : Segment.Kind} {segment : Segment}
    (h : hostSegment paging kind bytes = .ok segment) :
    segment.bytes = .zeroed bytes ∧ bytes ≤ Segment.limit := by
  cases kind with
  | heap =>
    obtain ⟨rfl, hle⟩ := Segment.allocateHeap_eq_ok h
    exact ⟨rfl, hle⟩
  | pinned =>
    obtain ⟨_, hc, h⟩ := bind_eq_ok.mp h
    cases h
    exact ⟨rfl, Segment.le_of_checkPinned (Attempt.wrap_eq_ok hc)⟩

theorem ofPair_eq {segment : Segment} {run : DeviceRun} (hc : context.crosses = true)
    (hs : segment.bytes.size = run.length) :
    Storage.ofPair context (.host segment) (.device run) = .ok ⟨context, .split segment run⟩ := by
  unfold Storage.ofPair
  simp only [hc, Segment.size, hs, if_true, ne_eq, not_true_eq_false, if_false]
  rfl

theorem allocateHost_eq_ok {backend : Backend} {kind : Segment.Kind}
    (hb : backend.supports context = true → context = .hostToHost)
    (h : allocateHost backend kind paging devices context bytes = .ok storage) :
    ∃ segment : Segment, segment.bytes = .zeroed bytes ∧ bytes ≤ Segment.limit ∧
      context = .hostToHost ∧ storage = ⟨.hostToHost, .single (.host segment)⟩ := by
  unfold allocateHost at h
  split at h
  · have hc := hb ‹_›
    subst hc
    obtain ⟨segment, hs, h⟩ := bind_eq_ok.mp h
    obtain ⟨hbytes, hle⟩ := hostSegment_eq_ok hs
    cases h
    exact ⟨segment, hbytes, hle, rfl, rfl⟩
  · cases h

theorem allocateHost_provides {backend : Backend} {kind : Segment.Kind}
    (hb : backend.supports context = true → context = .hostToHost)
    (h : allocateHost backend kind paging devices context bytes = .ok storage) :
    backend.Provides context devices bytes storage devices := by
  obtain ⟨segment, hbytes, hle, rfl, rfl⟩ := allocateHost_eq_ok hb h
  exact ⟨.host (by rw [hbytes]; exact Bytes.size_zeroed bytes), rfl, nofun, .refl _, hbytes, hle⟩

theorem deviceRun_length {run : DeviceRun}
    (h : deviceRun devices number bytes = .ok (run, others)) :
    run.length = bytes := by
  obtain ⟨⟨address, changed⟩, _, h⟩ := bind_eq_ok.mp (Attempt.wrap_eq_ok h)
  cases h
  rfl

/-- What a device backend allocates: memory of the host, of the device, or a pair of both. -/
theorem allocateDevice_eq_ok
    (h : allocateDevice paging devices number context bytes = .ok (storage, others)) :
    (context = .hostToHost ∧ others = devices ∧ bytes ≤ Segment.limit ∧
      storage = ⟨.hostToHost, .single (.host (.zeroed .heap bytes))⟩) ∨
    ∃ run, deviceRun devices number bytes = .ok (run, others) ∧
      ((context = .deviceToDevice ∧ storage = ⟨.deviceToDevice, .single (.device run)⟩) ∨
        (context.crosses = true ∧ storage = ⟨context, .split (.zeroed .pinned bytes) run⟩)) := by
  -- both crossing contexts allocate the same pair
  have onPair : context.crosses = true → (checkPinned paging bytes >>= fun _ =>
      deviceRun devices number bytes >>=
      fun p => Storage.ofPair context (.host (.zeroed .pinned bytes)) (.device p.1) >>=
      fun made => pure (made, p.2)) = .ok (storage, others) →
      ∃ run, deviceRun devices number bytes = .ok (run, others) ∧
        storage = ⟨context, .split (.zeroed .pinned bytes) run⟩ := fun hc hpair => by
    obtain ⟨_, _, hpair⟩ := bind_eq_ok.mp hpair
    obtain ⟨⟨run, reached⟩, hd, hpair⟩ := bind_eq_ok.mp hpair
    obtain ⟨pair, hp, hpair⟩ := bind_eq_ok.mp hpair
    cases hpair
    cases (ofPair_eq hc ((Bytes.size_zeroed bytes).trans (deviceRun_length hd).symm)).symm.trans hp
    exact ⟨run, hd, rfl⟩
  cases context with
  | hostToHost =>
    obtain ⟨segment, hs, h⟩ := bind_eq_ok.mp h
    obtain ⟨rfl, hle⟩ := Segment.allocateHeap_eq_ok hs
    cases h
    exact .inl ⟨rfl, rfl, hle, rfl⟩
  | deviceToDevice =>
    obtain ⟨⟨run, others⟩, hd, h⟩ := bind_eq_ok.mp h
    cases h
    exact .inr ⟨run, hd, .inl ⟨rfl, rfl⟩⟩
  | hostToDevice =>
    obtain ⟨run, hd, hs⟩ := onPair rfl h
    exact .inr ⟨run, hd, .inr ⟨rfl, hs⟩⟩
  | deviceToHost =>
    obtain ⟨run, hd, hs⟩ := onPair rfl h
    exact .inr ⟨run, hd, .inr ⟨rfl, hs⟩⟩

theorem allocateDevice_provides (hr : (Backend.device number).Ready devices)
    (h : allocateDevice paging devices number context bytes = .ok (storage, others)) :
    (Backend.device number).Provides context devices bytes storage others := by
  have hzero : (Bytes.zeroed bytes).size = bytes := Bytes.size_zeroed bytes
  rcases allocateDevice_eq_ok h with ⟨rfl, rfl, hle, rfl⟩ | ⟨run, hd, hlaid⟩
  · exact ⟨.host hzero, rfl, nofun, .refl _, rfl, hle⟩
  · obtain ⟨hlive, hdev, hlen, hbytes, hakin, hle⟩ := deviceRun_live hr hd
    have hnumber : ∀ n, some run.device = some n → Backend.device number = .device n :=
      fun _ hn => by
      cases hn
      rw [hdev]
    rcases hlaid with ⟨rfl, rfl⟩ | ⟨hc, rfl⟩
    · exact ⟨.device hlive hlen, rfl, hnumber, hakin, hbytes, hle⟩
    · cases context with
      | hostToDevice => exact ⟨.toDevice hzero hlive hlen, rfl, hnumber, hakin, hbytes, hle⟩
      | deviceToHost => exact ⟨.toHost hzero hlive hlen, rfl, hnumber, hakin, rfl, hle⟩
      | hostToHost | deviceToDevice => cases hc

/-- What holds of the storage that host and device backends make holds of all storage. -/
theorem allocate_ensures {backend : Backend} {machine : Machine} {P : Storage → Devices → Prop}
    (onHost : ∀ kind storage, (backend.supports context = true → context = .hostToHost) →
      allocateHost backend kind machine.paging machine.devices context bytes = .ok storage →
      P storage machine.devices)
    (onDevice : ∀ number storage others, backend = .device number →
      allocateDevice machine.paging machine.devices number context bytes = .ok (storage, others) →
      P storage others) :
    (backend.allocate context bytes).Ensures machine (fun storage after => P storage after.devices)
      fun _ _ => True := by
  have hostLift : ∀ kind, (backend.supports context = true → context = .hostToHost) →
      (liftM (allocateHost backend kind machine.paging machine.devices context bytes) :
        Action Machine Storage).Ensures machine
        (fun storage after => P storage after.devices) fun _ _ => True := fun kind hb => by
    cases ha : allocateHost backend kind machine.paging machine.devices context bytes with
    | error stop => exact True.intro
    | ok storage => exact onHost kind storage hb ha
  unfold allocate
  refine .get_bind ?_
  cases backend with
  | heap => exact hostLift .heap fun hs => by simpa [supports] using hs
  | pinned => exact hostLift .pinned fun hs => by simpa [supports] using hs
  | device number =>
    dsimp only
    cases ha : allocateDevice machine.paging machine.devices number context bytes with
    | error stop => exact True.intro
    | ok result => exact onDevice number _ _ rfl ha

/-- **New storage.** What a backend allocates is backed by zeros and laid out for the context. -/
theorem allocate_spec {backend : Backend} {machine : Machine} (hr : backend.Ready machine.devices) :
    (backend.allocate context bytes).Ensures machine
      (fun storage after => backend.Provides context machine.devices bytes storage after.devices)
      fun _ _ => True :=
  allocate_ensures (fun _ _ hb ha => allocateHost_provides hb ha) fun _ _ _ hd ha => by
    subst hd
    exact allocateDevice_provides hr ha

end Backend

/-! ## Buffers -/

theorem Cursors.coherent_new {capacity : Nat} (h : 0 < capacity) : Coherent {} capacity where
  writeIndex_lt := h
  placed := nofun
  lookBack_le := nofun
  maxLookBack_lt := h
  ids_nodup := .nil
  id_lt := nofun
  window := nofun
  lagging ht := absurd rfl ht

/-- The buffer is new: it is what was asked for, and nothing has happened to it. -/
structure Backend.Delivers (backend : Backend) (request : Request) (id : Nat) (devices : Devices)
    (buffer : Buffer) (after : Machine) : Prop where
  geometry_eq : request.geometry = .ok buffer.geometry
  face_eq : Site.face ⟨after, buffer⟩ = ⟨id, buffer.geometry, {}, {}, 0, false⟩
  provides : backend.Provides request.owner.context devices buffer.geometry.bytes
    buffer.storage after.devices

namespace Backend.Delivers

variable {backend : Backend} {request : Request} {id : Nat} {devices : Devices} {buffer : Buffer}
variable {after : Machine}

theorem gives (h : backend.Delivers request id devices buffer after) :
    request.Gives buffer.geometry :=
  Request.gives h.geometry_eq

theorem cursors_eq (h : backend.Delivers request id devices buffer after) : buffer.cursors = {} :=
  congrArg Site.Face.cursors h.face_eq

theorem solid (h : backend.Delivers request id devices buffer after) :
    Site.Solid ⟨after, buffer⟩ := by
  have hg := h.gives
  have hle := h.provides.size_le
  have hcap := Nat.mul_le_mul_left buffer.geometry.capacity hg.itemSize_pos
  refine ⟨⟨hg.itemSize_pos, hg.downstream_le, hg.bytes_lt, ?_⟩, h.provides.backed⟩
  unfold Geometry.bytes Segment.limit at hle
  unfold Word.limit
  change 2 * buffer.geometry.capacity ≤ 1 <<< 64
  omega

end Backend.Delivers

variable {backend : Backend} {request : Request} {id : Nat} {machine after : Machine}
variable {buffer : Buffer}

/-- What an allocation that succeeded did. -/
theorem Buffer.allocate_eq_ok (ha : Buffer.allocate backend request id machine = .ok buffer after) :
    request.geometry = .ok buffer.geometry ∧
      (∃ mid, backend.allocate request.owner.context buffer.geometry.bytes machine =
        .ok buffer.storage mid ∧ after.devices = mid.devices) ∧
      Site.face ⟨after, buffer⟩ = ⟨id, buffer.geometry, {}, {}, 0, false⟩ := by
  unfold Buffer.allocate at ha
  cases hg : request.geometry with
  | error stop =>
    rw [hg] at ha
    cases ha
  | ok geometry =>
    rw [hg] at ha
    cases hs : backend.allocate request.owner.context geometry.bytes machine with
    | error stop mid => cases (Action.bind_of_error _ hs).symm.trans ha
    | ok storage mid =>
      cases (Action.bind_of_ok _ hs).symm.trans ha
      exact ⟨rfl, ⟨mid, hs, rfl⟩, rfl⟩

/-- Of a new buffer the measures are those asked for, whatever memory was given. -/
theorem Buffer.allocate_face (ha : Buffer.allocate backend request id machine = .ok buffer after) :
    request.Gives buffer.geometry ∧
    Site.face ⟨after, buffer⟩ = ⟨id, buffer.geometry, {}, {}, 0, false⟩ :=
  ⟨Request.gives (Buffer.allocate_eq_ok ha).1, (Buffer.allocate_eq_ok ha).2.2⟩

theorem Buffer.allocate_delivers (hr : backend.Ready machine.devices)
    (ha : Buffer.allocate backend request id machine = .ok buffer after) :
    backend.Delivers request id machine.devices buffer after := by
  obtain ⟨hg, ⟨mid, hs, hdevices⟩, hface⟩ := Buffer.allocate_eq_ok ha
  refine ⟨hg, hface, ?_⟩
  rw [hdevices]
  exact (Backend.allocate_spec hr).of_ok hs

/-- **New buffers.** A flat buffer that was allocated is sound, and nothing has happened to it. -/
theorem Buffer.allocate_sound (hr : backend.Ready machine.devices)
    (hflat : request.mapping = .single)
    (ha : Buffer.allocate backend request id machine = .ok buffer after) :
    Site.Sound ⟨after, buffer⟩ ∧ buffer.cursors = {} ∧
      backend.Provides request.owner.context machine.devices buffer.geometry.bytes buffer.storage
        after.devices := by
  have h := Buffer.allocate_delivers hr ha
  have hg := h.gives
  have hlt := h.solid.measured.twice_le
  have hbytes : buffer.geometry.capacity < Word.limit := by
    have := hg.capacity_pos
    dsimp only at hlt
    omega
  refine ⟨⟨h.solid, hg.mapping_eq.trans hflat, ?_⟩, h.cursors_eq, h.provides⟩
  change View.Sound buffer.geometry.capacity buffer.geometry.itemSize
    ⟨buffer.cursors, buffer.storage.readable after.devices⟩
  rw [h.cursors_eq]
  refine ⟨Cursors.coherent_new hg.capacity_pos, ?_, ?_, h.provides.backed.size_readable⟩
  · change 0 + 0 < Word.limit
    decide
  · change 0 + buffer.geometry.capacity < Word.limit
    omega

/-- The first buffer on the heap, of `items` items of `size` bytes, written in multiples. -/
def Site.onHeap (items size : Nat) (multiple : Nat := 1) : Site :=
  let request : Request := { items, itemSize := size, producer := { outputMultiple := multiple } }
  let geometry : Geometry := ⟨items, size, 1, multiple, .single⟩
  let machine := ({} : Machine).log (some request.owner.name) (.allocated "host" request geometry)
  { machine := { machine with journal := machine.journal.countAllocated }
    buffer := { id := 0, owner := request.owner, producer := request.producer.name, geometry,
                storage := ⟨.hostToHost, .single (.host (.zeroed .heap (items * size)))⟩ } }

theorem Buffer.allocate_onHeap (items size multiple : Nat)
    (h : 0 < items ∧ 0 < size ∧ 0 < multiple ∧ multiple ∣ items ∧ items * size ≤ Segment.limit) :
    Buffer.allocate .heap
      { items, itemSize := size, producer := { outputMultiple := multiple } } 0 {} =
        .ok (Site.onHeap items size multiple).buffer (Site.onHeap items size multiple).machine := by
  obtain ⟨hi, hs, hm, hd, hl⟩ := h
  have hbytes : items * size < Word.limit := Nat.lt_of_le_of_lt hl (by decide)
  have hpos : items * size ≠ 0 := Nat.ne_of_gt (Nat.mul_pos hi hs)
  let request : Request := { items, itemSize := size, producer := { outputMultiple := multiple } }
  have hgeometry : request.geometry = .ok ⟨items, size, 1, multiple, .single⟩ := by
    -- The items suit as they are, so nothing is rounded up.
    have hmax : max multiple 1 = multiple := Nat.max_eq_left hm
    have hstep : request.writeStep = multiple := (Nat.lcm_one_left _).trans hmax
    have hcapacity : request.measures.capacity = items :=
      Request.capacity_eq_items ⟨Nat.le_refl _, Nat.one_dvd _, hmax.symm ▸ hd, Nat.one_dvd _⟩
    have hmeasures : request.measures =
        ⟨request.measures.capacity, size, 1, request.writeStep, .single⟩ := rfl
    rw [hcapacity, hstep] at hmeasures
    rw [Request.geometry_eq, if_neg (Nat.ne_of_gt hs), if_neg (Nat.ne_of_gt hi), hmeasures,
      if_pos (Nat.lt_of_le_of_lt (Nat.le_mul_of_pos_right _ hs) hbytes)]
    exact if_pos hbytes
  have hstorage : Backend.heap.allocate .hostToHost (items * size) {} =
      .ok (Site.onHeap items size multiple).buffer.storage {} := by
    unfold Backend.allocate Backend.allocateHost Backend.hostSegment
    simp only [Segment.allocateHeap_eq hpos hl]
    rfl
  unfold Buffer.allocate
  rw [hgeometry]
  exact Action.bind_of_ok _ hstorage

end StreamBuffer
