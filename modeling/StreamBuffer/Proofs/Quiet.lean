import StreamBuffer.Proofs.Allocation
import StreamBuffer.Proofs.Cursors.Inversion

/-!
# What allocations and readers leave behind

An allocation takes memory on one device at most. A reader that comes or goes changes nothing but
the cursors of its buffer. What is reported meanwhile is neither that a buffer is released nor that
memory was freed which is not allocated.
-/

namespace StreamBuffer

/-! ## What is reported -/

def Event.isQuiet : Event → Bool
  | released | unknownAddressFreed _ => false
  | _ => true

namespace Journal

def count (journal : Journal) (event : Event) : Nat := (journal.entries.map (·.event)).count event

structure Quiet (journal after : Journal) : Prop where
  live_eq : after.live = journal.live
  count_eq : ∀ event, event.isQuiet = false → after.count event = journal.count event

variable {journal mid after : Journal} {event : Event}

theorem count_log (owner : Option String) (reported : Event) :
    (journal.log owner reported).count event =
      journal.count event + if reported = event then 1 else 0 := by
  simp [count, log, List.count_singleton]

theorem Quiet.refl (journal : Journal) : journal.Quiet journal := ⟨rfl, fun _ _ => rfl⟩

theorem Quiet.trans (h : journal.Quiet mid) (hn : mid.Quiet after) : journal.Quiet after :=
  ⟨hn.live_eq.trans h.live_eq, fun event he => (hn.count_eq event he).trans (h.count_eq event he)⟩

theorem Quiet.log (h : event.isQuiet = true) (owner : Option String) :
    journal.Quiet (journal.log owner event) := by
  refine ⟨rfl, fun other ho => ?_⟩
  rw [count_log, if_neg, Nat.add_zero]
  rintro rfl
  rw [h] at ho
  cases ho

end Journal

/-! ## Device memory -/

def Region.runs : Region → List DeviceRun
  | host _ => []
  | device run => [run]

def Storage.runs (storage : Storage) : List DeviceRun :=
  match storage.layout with
  | .single region => region.runs
  | .split _ run => [run]

theorem Storage.runs_ofRegion {context : Context} {region : Region} {storage : Storage}
    (h : ofRegion context region = .ok storage) : storage.runs = region.runs := by
  unfold ofRegion at h
  split at h
  · cases h
  · cases h
    rfl

theorem Storage.runs_ofPair {context : Context} {host device : Region} {storage : Storage}
    (h : ofPair context host device = .ok storage) : storage.runs = host.runs ++ device.runs := by
  unfold ofPair at h
  cases hc : context.crosses with
  | false =>
    rw [hc] at h
    cases h
  | true =>
    rw [hc] at h
    cases host with
    | device run => cases h
    | host segment =>
      cases device with
      | host other => cases h
      | device run =>
        obtain ⟨-, h⟩ := guard_eq_ok.mp h
        cases h
        rfl

inductive Devices.Gain (devices : Devices) : List DeviceRun → Devices → Prop where
  | none : Gain devices [] devices
  | run {number bytes : Nat} {run : DeviceRun} {others : Devices} (hn : number < devices.length)
      (h : DeviceRun.allocate devices number bytes = .ok (run, others)) : Gain devices [run] others

structure Machine.Gains (machine : Machine) (runs : List DeviceRun) (after : Machine) : Prop where
  devices : machine.devices.Gain runs after.devices
  journal : machine.journal.Quiet after.journal

def Backend.IsThere (backend : Backend) (devices : Devices) : Prop :=
  match backend with
  | .heap | .pinned => True
  | .device number => number < devices.length

instance (backend : Backend) (devices : Devices) : Decidable (backend.IsThere devices) :=
  match backend with
  | .heap | .pinned => inferInstanceAs (Decidable True)
  | .device number => inferInstanceAs (Decidable (number < devices.length))

/-- What stops an allocation is a part that cannot be had. Once the device has given memory away
nothing is refused, so there is none to be taken back. -/
theorem Backend.allocateDevice_cases (paging : Paging) (devices : Devices) (number : Nat)
    (context : Context) (bytes : Nat) :
    (∃ storage, allocateDevice paging devices number context bytes = .ok (storage, devices) ∧
      storage.runs = []) ∨
      (∃ storage run others, deviceRun devices number bytes = .ok (run, others) ∧
        allocateDevice paging devices number context bytes = .ok (storage, others) ∧
        storage.runs = [run]) ∨
      ∃ stop, allocateDevice paging devices number context bytes = .error stop ∧
        (Segment.allocateHeap bytes = .error stop ∨ checkPinned paging bytes = .error stop ∨
          deviceRun devices number bytes = .error stop) := by
  -- Both parts are of the size that was asked for, so they make a pair.
  have hpair : ∀ {run others}, context.crosses = true →
      deviceRun devices number bytes = .ok (run, others) →
      ∃ storage, Storage.ofPair context (.host (.zeroed .pinned bytes))
        (.device run) = .ok storage ∧ storage.runs = [run] :=
    fun hc hd => ⟨_, ofPair_eq hc ((Bytes.size_zeroed bytes).trans (deviceRun_length hd).symm), rfl⟩
  cases context with
  | hostToHost =>
    cases hs : Segment.allocateHeap bytes with
    | error stop => exact .inr (.inr ⟨stop, bind_error hs, .inl rfl⟩)
    | ok segment => exact .inl ⟨⟨.hostToHost, .single (.host segment)⟩, (bind_ok hs).trans rfl, rfl⟩
  | deviceToDevice =>
    refine .inr ?_
    cases hd : deviceRun devices number bytes with
    | error stop => exact .inr ⟨stop, bind_error hd, .inr (.inr rfl)⟩
    | ok result =>
      exact .inl ⟨⟨.deviceToDevice, .single (.device result.1)⟩, result.1, result.2, rfl,
        (bind_ok hd).trans rfl, rfl⟩
  | hostToDevice | deviceToHost =>
    refine .inr ?_
    cases hp : checkPinned paging bytes with
    | error stop => exact .inr ⟨stop, bind_error hp, .inr (.inl rfl)⟩
    | ok _ =>
      cases hd : deviceRun devices number bytes with
      | error stop => exact .inr ⟨stop, (bind_ok hp).trans (bind_error hd), .inr (.inr rfl)⟩
      | ok result =>
        obtain ⟨storage, hmade, hruns⟩ := hpair rfl hd
        refine .inl ⟨storage, result.1, result.2, rfl, (bind_ok hp).trans ?_, hruns⟩
        exact (bind_ok hd).trans (bind_ok hmade)

theorem Backend.allocate_gains {backend : Backend} {context : Context} {bytes : Nat}
    {machine : Machine} (hd : backend.IsThere machine.devices) :
    (backend.allocate context bytes).Ensures machine
      (fun storage after => machine.Gains storage.runs after)
      fun _ after => after = machine := by
  have onHost : ∀ kind, (backend.supports context = true → context = .hostToHost) →
      (liftM (allocateHost backend kind machine.paging machine.devices context bytes) :
        Action Machine Storage).Ensures machine
        (fun storage after => machine.Gains storage.runs after) fun _ after => after = machine := by
    intro kind hb
    cases ha : allocateHost backend kind machine.paging machine.devices context bytes with
    | error stop => exact rfl
    | ok storage =>
      obtain ⟨segment, -, -, -, rfl⟩ := allocateHost_eq_ok hb ha
      exact ⟨.none, .refl _⟩
  unfold allocate
  refine .get_bind ?_
  cases backend with
  | heap => exact onHost .heap fun hs => by simpa [supports] using hs
  | pinned => exact onHost .pinned fun hs => by simpa [supports] using hs
  | device number =>
    dsimp only
    have hquiet : ∀ others, machine.journal.Quiet
        (machine.journal.log none
          (.deviceStorageAllocated ((Backend.device number).name others) context bytes)) :=
      fun _ => .log rfl none
    rcases allocateDevice_cases machine.paging machine.devices number context bytes with
      ⟨storage, ha, hruns⟩ | ⟨storage, run, others, hrun, ha, hruns⟩ | ⟨stop, ha, -⟩
    · rw [ha]
      exact ⟨hruns ▸ .none, hquiet _⟩
    · rw [ha]
      exact ⟨hruns ▸ .run hd (Attempt.wrap_eq_ok hrun), hquiet _⟩
    · rw [ha]
      exact rfl

theorem Buffer.allocate_gains {backend : Backend} {machine : Machine} (request : Request) (id : Nat)
    (hd : backend.IsThere machine.devices) :
    (Buffer.allocate backend request id).Ensures machine (fun buffer after => ∃ mid,
      machine.Gains buffer.storage.runs mid ∧
      after = { mid with journal := mid.journal.countAllocated } ∧
        buffer.id = id ∧ buffer.cursors = {}) fun _ after => after = machine := by
  unfold Buffer.allocate
  refine .attempt_cases (fun _ _ => rfl) fun geometry _ => .bind (Backend.allocate_gains hd)
    fun storage mid hg => ?_
  refine ⟨mid.log (some request.owner.name)
    (.allocated (backend.name mid.devices) request geometry),
    ⟨hg.devices, hg.journal.trans (.log rfl _)⟩, rfl, rfl, rfl⟩

/-! ## Readers that come and go -/

namespace Cursors

variable {cursors others : Cursors} {geometry : Geometry} {id : Nat} {events : List Event}

structure Joined (cursors others : Cursors) : Prop where
  ids_eq : others.readers.map (·.id) = cursors.readers.map (·.id) ++ [cursors.nextReader]
  nextReader_eq : others.nextReader = cursors.nextReader + 1
  tail_eq : others.tail = cursors.tail

theorem events_of_raise {lookBack delay : Nat}
    (he : cursors.raise geometry lookBack delay = .ok (others, events)) :
    ∀ event ∈ events, event.isQuiet = true := by
  unfold raise at he
  dsimp only at he
  split at he
  · obtain ⟨readers, _, he⟩ := bind_eq_ok.mp he
    cases he
    simp [Event.isQuiet]
  · cases he
    simp

theorem joined_of_attach {history delay : Nat}
    (he : cursors.attach geometry history delay = .ok (id, others, events)) :
    id = cursors.nextReader ∧ cursors.Joined others ∧ ∀ event ∈ events, event.isQuiet = true := by
  obtain ⟨_, -, he⟩ := bind_eq_ok.mp he
  obtain ⟨nextReader, hnext, he⟩ := bind_eq_ok.mp he
  obtain ⟨⟨raised, told⟩, hraise, he⟩ := bind_eq_ok.mp he
  obtain ⟨readIndex, -, he⟩ := bind_eq_ok.mp he
  cases he
  obtain ⟨-, rfl⟩ := Word.add_eq_ok_iff.mp (liftM_eq_ok.mp hnext)
  have hraise := liftM_eq_ok.mp hraise
  refine ⟨rfl, ?_, ?_⟩
  · rcases raise_eq_ok hraise with rfl | ⟨-, -, -, rfl⟩
    · exact ⟨List.map_append, rfl, rfl⟩
    · exact ⟨by simp [reserved, withMaxima], rfl, rfl⟩
  · intro event hm
    rcases List.mem_append.mp hm with hm | hm
    · exact events_of_raise hraise event hm
    · cases List.mem_singleton.mp hm
      rfl

/-- As long as nothing was relocated, a reader that is there is detached. -/
theorem detach_eq_without (ht : cursors.tail = none) (id : Nat) :
    cursors.detach id = .ok
      (cursors.without id, .readerDetached id (cursors.without id).readers.length) := by
  have hrefresh : (cursors.without id).refreshTail = .ok (cursors.without id) := by
    simp [refreshTail, without, ht]
    rfl
  exact (bind_ok hrefresh).trans rfl

end Cursors

namespace Site

theorem forM_log_quiet (events : List Event) (h : ∀ event ∈ events, event.isQuiet = true)
    (site : Site) :
    (events.forM log).Ensures site (fun _ after => after.buffer = site.buffer ∧
      after.machine.devices = site.machine.devices ∧
      site.machine.journal.Quiet after.machine.journal)
      fun _ _ => False := by
  induction events generalizing site with
  | nil => exact ⟨rfl, rfl, .refl _⟩
  | cons event rest ih =>
    refine Action.Ensures.mono (ih (fun other ho => h other (List.mem_cons_of_mem _ ho)) _) ?_
      fun _ _ hf => hf
    rintro _ after ⟨hbuffer, hdevices, hquiet⟩
    exact ⟨hbuffer, hdevices, .trans (.log (h event List.mem_cons_self) _) hquiet⟩

structure Turned (site : Site) (cursors : Cursors) (after : Site) : Prop where
  buffer_eq : after.buffer = { site.buffer with cursors }
  devices_eq : after.machine.devices = site.machine.devices
  journal : site.machine.journal.Quiet after.machine.journal

theorem attach_joins (site : Site) (history delay : Nat) :
    (attach history delay).Ensures site (fun id after => id = site.buffer.cursors.nextReader ∧
      ∃ cursors, site.buffer.cursors.Joined cursors ∧ site.Turned cursors after)
        fun _ after => after = site := by
  unfold attach
  refine .get_bind (.attempt_cases (fun _ _ => rfl) fun ⟨id, others, events⟩ he => .modify_bind ?_)
  obtain ⟨hid, hjoined, hevents⟩ := Cursors.joined_of_attach he
  refine .sure_bind (forM_log_quiet events hevents _) ?_
  rintro _ after ⟨hbuffer, hdevices, hquiet⟩
  exact ⟨hid, others, hjoined, hbuffer, hdevices, hquiet⟩

/-- A reader that is attached is detached, as long as nothing was relocated. -/
theorem leave_parts (site : Site) {id : Nat} (ht : site.buffer.cursors.tail = none)
    (hr : (site.buffer.cursors.reader? id).isSome) :
    ∃ after, leave id site = .ok ⟨⟩ after ∧ site.Turned (site.buffer.cursors.without id) after := by
  obtain ⟨reader, hreader⟩ := Option.isSome_iff_exists.mp hr
  have hdetach : (detach id).Ensures site
      (fun _ after => site.Turned (site.buffer.cursors.without id) after)
      fun _ _ => False := by
    unfold detach
    refine .ok_bind (Action.discard_of_ok (reader_eq hreader)) (.get_bind ?_)
    exact .lift_bind (Cursors.detach_eq_without ht id) ⟨rfl, rfl, .log rfl _⟩
  obtain ⟨_, after, hafter, hturned⟩ := hdetach.finishes
  refine ⟨after, ?_, hturned⟩
  change EStateM.tryCatch (detach id) _ site = _
  unfold EStateM.tryCatch
  rw [hafter]

end Site
end StreamBuffer
