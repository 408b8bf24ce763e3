import StreamBuffer.Platform.Memory
import StreamBuffer.Proofs.Platforms
import StreamBuffer.Proofs.Memory.Devices

/-!
# Transfers check their ranges

The memory of a device is read address by address. `transfers_check_ranges`: a transfer is done
exactly if each of its ranges lies inside one live allocation, and then the bytes of its target and
one counter change. The first range that does not is refused, and nothing changes; but if an
allocation begins at or before it and it runs past the last address, the check breaks off, as in
`stray_range_breaks_off`.
-/

namespace StreamBuffer.Device

/-! ## Memory by address -/

structure Span where
  address : Nat
  length : Nat
deriving DecidableEq, Repr

namespace Span

def stop (span : Span) : Nat := span.address + span.length

def Within (span other : Span) : Prop := other.address ≤ span.address ∧ span.stop ≤ other.stop

def Clear (span other : Span) : Prop := span.stop ≤ other.address ∨ other.stop ≤ span.address

instance : DecidableRel Within := fun _ _ => instDecidableAnd

instance : DecidableRel Clear := fun _ _ => instDecidableOr

end Span

namespace Allocation

def span (allocation : Allocation) : Span := ⟨allocation.address, allocation.bytes.size⟩

def byte? (allocation : Allocation) (address : Nat) : Option UInt8 :=
  if allocation.address ≤ address then allocation.bytes[address - allocation.address]? else none

end Allocation

def layout (device : Device) : List Span := device.allocations.map Allocation.span

def byte? (device : Device) (address : Nat) : Option UInt8 :=
  device.allocations.findSome? (·.byte? address)

/-- The allocations are clear of each other, and where they end is an address. -/
structure Apart (device : Device) : Prop where
  addressed : ∀ span ∈ device.layout, span.stop < Word.limit
  clear : device.layout.Pairwise Span.Clear

def Holds (device : Device) (span : Span) : Prop := ∃ live ∈ device.layout, span.Within live

instance (device : Device) : DecidablePred device.Holds := fun span =>
  inferInstanceAs (Decidable (∃ live ∈ device.layout, span.Within live))

variable {device after : Device} {span : Span} {address length n i : Nat} {data : Bytes}

namespace Allocation

variable {allocation : Allocation} {allocations : List Allocation}

theorem stop_span : allocation.span.stop = allocation.address + allocation.bytes.size := rfl

theorem covers_iff : allocation.covers address length = true ↔
    allocation.address ≤ address ∧
    address + length ≤ allocation.address + allocation.bytes.size := by
  simp only [covers, Bool.and_eq_true, decide_eq_true_eq]

theorem byte?_eq_none (h : ¬ (allocation.address ≤ n ∧ n < allocation.span.stop)) :
    allocation.byte? n = none := by
  rw [stop_span] at h
  unfold byte?
  split
  · exact Array.getElem?_eq_none (by omega)
  · rfl

/-- What stands at an address of an allocation is found there first. -/
theorem findSome?_byte? (hclear : (allocations.map Allocation.span).Pairwise Span.Clear)
    (hm : allocation ∈ allocations) (hn : allocation.address ≤ n ∧ n < allocation.span.stop) :
    allocations.findSome? (·.byte? n) = allocation.byte? n := by
  have hlt : n - allocation.address < allocation.bytes.size := by
    rw [stop_span] at hn
    omega
  induction allocations with
  | nil => cases hm
  | cons first rest ih =>
    rw [List.map_cons, List.pairwise_cons] at hclear
    rw [List.findSome?_cons]
    rcases List.mem_cons.mp hm with rfl | hm
    · unfold byte?
      rw [if_pos hn.1, Array.getElem?_eq_getElem hlt]
    · have hnone : first.byte? n = none := by
        have hbeside : first.span.stop ≤ allocation.address ∨
            allocation.span.stop ≤ first.address :=
          hclear.1 _ (List.mem_map_of_mem hm)
        exact byte?_eq_none (by omega)
      rw [hnone]
      exact ih hclear.2 hm

theorem byte?_splice (h : allocation.covers address data.size = true) :
    byte? { allocation with bytes := allocation.bytes.splice (address - allocation.address) data }
      n =
      if address ≤ n ∧ n < address + data.size then data[n - address]? else allocation.byte? n := by
  have hc := covers_iff.mp h
  change (if allocation.address ≤ n then
    (allocation.bytes.splice (address - allocation.address) data)[n - allocation.address]?
      else none) = _
  unfold byte?
  by_cases hn : allocation.address ≤ n
  · have hat : n - allocation.address - (address - allocation.address) = n - address := by omega
    rw [if_pos hn, if_pos hn, Bytes.getElem?_splice (by omega), hat]
    by_cases hin : address ≤ n ∧ n < address + data.size
    · rw [if_pos hin, if_pos (by omega)]
    · rw [if_neg hin, if_neg (by omega)]
  · rw [if_neg hn, if_neg hn, if_neg (by omega)]

end Allocation

theorem Apart.of_layout (h : device.Apart) (hl : after.layout = device.layout) : after.Apart :=
  ⟨hl ▸ h.addressed, hl ▸ h.clear⟩

theorem exists_mem_layout {p : Span → Prop} :
    (∃ live ∈ device.layout, p live) ↔ ∃ allocation ∈ device.allocations, p allocation.span := by
  unfold layout
  constructor
  · rintro ⟨_, hm, hp⟩
    obtain ⟨allocation, hlive, rfl⟩ := List.mem_map.mp hm
    exact ⟨allocation, hlive, hp⟩
  · rintro ⟨allocation, hlive, hp⟩
    exact ⟨_, List.mem_map_of_mem hlive, hp⟩

theorem any_covers_iff :
    device.allocations.any (·.covers span.address span.length) = true ↔ device.Holds span := by
  unfold Holds
  rw [exists_mem_layout]
  simp only [List.any_eq_true, Allocation.covers_iff]
  rfl

/-! ## Reads and writes -/

theorem read_of_holds (hh : device.Holds ⟨address, length⟩) : ∃ allocation ∈ device.allocations,
    (allocation.address ≤ address ∧ address + length ≤ allocation.address + allocation.bytes.size) ∧
      device.read address length =
        allocation.bytes.slice (address - allocation.address) length := by
  obtain ⟨allocation, hfound⟩ : ∃ allocation,
      device.allocations.find? (·.covers address length) = some allocation :=
    Option.isSome_iff_exists.mp
      (List.find?_isSome.mpr (List.any_eq_true.mp (any_covers_iff.mpr hh)))
  have hc : allocation.covers address length = true := by simpa using List.find?_some hfound
  refine ⟨allocation, List.mem_of_find?_eq_some hfound, Allocation.covers_iff.mp hc, ?_⟩
  unfold read
  rw [hfound]

theorem size_read (hh : device.Holds ⟨address, length⟩) :
    (device.read address length).size = length := by
  obtain ⟨allocation, _, hc, he⟩ := read_of_holds hh
  rw [he, Bytes.size_slice (by omega)]

theorem getElem?_read (hapart : device.Apart) (hh : device.Holds ⟨address, length⟩)
    (hi : i < length) :
    (device.read address length)[i]? = device.byte? (address + i) := by
  obtain ⟨allocation, hm, hc, he⟩ := read_of_holds hh
  have hbyte : device.byte? (address + i) = allocation.byte? (address + i) :=
    Allocation.findSome?_byte? hapart.clear hm ⟨by omega, by rw [Allocation.stop_span]; omega⟩
  rw [he, Bytes.getElem?_slice hi, hbyte]
  unfold Allocation.byte?
  rw [if_pos (by omega), Nat.sub_add_comm hc.1]

theorem layout_write (address : Nat) (data : Bytes) :
    (device.write address data).layout = device.layout := by
  unfold layout write
  rw [List.map_map]
  refine List.map_congr_left fun allocation _ => ?_
  rw [Function.comp_apply]
  split
  · have hc := Allocation.covers_iff.mp ‹allocation.covers address data.size = true›
    unfold Allocation.span
    rw [Bytes.size_splice (by omega)]
  · rfl

theorem byte?_write (hapart : device.Apart) (hh : device.Holds ⟨address, data.size⟩) :
    (device.write address data).byte? n =
      if address ≤ n ∧ n < address + data.size then data[n - address]? else device.byte? n := by
  split
  · have hin := ‹_ ∧ _›
    obtain ⟨allocation, hm, hc⟩ := List.any_eq_true.mp (any_covers_iff.mpr hh)
    have hwritten :
        { allocation with bytes := allocation.bytes.splice (address - allocation.address) data } ∈
        (device.write address data).allocations := List.mem_map.mpr ⟨allocation, hm, if_pos hc⟩
    -- allocations are apart, so the one written to is the only one that has the address
    have hclear := (hapart.of_layout (layout_write address data)).clear
    obtain ⟨hstart, hstop⟩ : allocation.address ≤ address ∧
        address + data.size ≤ allocation.address + allocation.bytes.size :=
        Allocation.covers_iff.mp hc
    refine (Allocation.findSome?_byte? hclear hwritten ⟨Nat.le_trans hstart hin.1, ?_⟩).trans
      ((Allocation.byte?_splice hc).trans (if_pos hin))
    change n < allocation.address +
      (allocation.bytes.splice (address - allocation.address) data).size
    rw [Bytes.size_splice (by omega)]
    omega
  · have hout := ‹¬ (_ ∧ _)›
    unfold byte? write
    rw [List.findSome?_map]
    congr 1
    funext allocation
    rw [Function.comp_apply]
    split
    · exact (Allocation.byte?_splice ‹_›).trans (if_neg hout)
    · rfl

def carry (device : Device) (target source length : Nat) : Device :=
  device.write target (device.read source length)

theorem layout_carry (target source length : Nat) :
    (device.carry target source length).layout = device.layout :=
  layout_write ..

theorem byte?_carry {target source : Nat} (hapart : device.Apart)
    (ht : device.Holds ⟨target, length⟩) (hs : device.Holds ⟨source, length⟩) :
    (device.carry target source length).byte? n =
      if target ≤ n ∧ n < target + length then device.byte? (source + (n - target))
        else device.byte? n := by
  have hsize := size_read hs
  unfold carry
  rw [byte?_write hapart (by rwa [hsize]), hsize]
  split
  · exact getElem?_read hapart hs (by omega)
  · rfl

/-! ## The check of a range -/

/-- Why a range is not let through. Where it ends is only looked at if an allocation begins at or
before it, and then it has to be an address. -/
def verdict (device : Device) (span : Span) : Stop :=
  if Word.limit ≤ span.stop ∧ ∃ live ∈ device.layout, live.address ≤ span.address then
    .fault .addOverflow
  else .error (.outsideAllocations span.address span.length device.name)

theorem checkRange_of_holds (hapart : device.Apart) (hh : device.Holds span) :
    device.checkRange span.address span.length = .ok () := by
  have hstop : span.address + span.length < Word.limit := by
    obtain ⟨live, hlive, hw⟩ := hh
    exact Nat.lt_of_le_of_lt hw.2 (hapart.addressed live hlive)
  unfold checkRange
  rw [any_covers_iff.mpr hh, Word.add_eq_ok hstop]
  cases device.allocations.any (fun other => decide (other.address ≤ span.address)) <;> rfl

theorem checkRange_of_not_holds (hh : ¬ device.Holds span) :
    device.checkRange span.address span.length = .error (device.verdict span) := by
  have hcover : device.allocations.any (·.covers span.address span.length) = false :=
    Bool.eq_false_iff.mpr fun hc => hh (any_covers_iff.mp hc)
  have hbefore : device.allocations.any (fun other => decide (other.address ≤ span.address)) =
      true ↔ ∃ live ∈ device.layout, live.address ≤ span.address := by
    rw [exists_mem_layout]
    simp only [List.any_eq_true, decide_eq_true_eq]
    rfl
  unfold checkRange
  rw [hcover]
  by_cases hb : ∃ live ∈ device.layout, live.address ≤ span.address
  · rw [hbefore.mpr hb]
    by_cases hstop : span.address + span.length < Word.limit
    · have hverdict : device.verdict span = _ := if_neg fun h => Nat.not_le_of_lt hstop h.1
      rw [hverdict, Word.add_eq_ok hstop]
      rfl
    · have hverdict : device.verdict span = _ := if_pos ⟨Nat.le_of_not_lt hstop, hb⟩
      have hadd : Word.add span.address span.length = .error .addOverflow := if_neg hstop
      rw [hverdict, hadd]
      rfl
  · have hverdict : device.verdict span = _ := if_neg fun h => hb h.2
    rw [hverdict, Bool.eq_false_iff.mpr (mt hbefore.mp hb)]
    rfl

theorem checkFault_eq {transfer : Transfer} (h : device.faulty = false) :
    device.checkFault transfer = .ok () := by
  unfold checkFault
  rw [h]
  rfl

def checkRanges (device : Device) : List Span → Attempt Unit
  | [] => return
  | span :: rest => do
    device.checkRange span.address span.length
    device.checkRanges rest

theorem checkRanges_of_holds {spans : List Span} (hapart : device.Apart)
    (h : ∀ span ∈ spans, device.Holds span) :
    device.checkRanges spans = .ok () := by
  induction spans with
  | nil => rfl
  | cons span rest ih =>
    have hfirst := checkRange_of_holds hapart (h span (List.mem_cons_self ..))
    exact (bind_ok hfirst).trans (ih fun other ho => h other (List.mem_cons_of_mem _ ho))

/-- The first range that is not held decides. -/
theorem checkRanges_of_not_holds {spans : List Span} (hapart : device.Apart)
    (h : ¬ ∀ span ∈ spans, device.Holds span) :
    ∃ held span rest, spans = held ++ span :: rest ∧ (∀ other ∈ held, device.Holds other) ∧
      ¬ device.Holds span ∧ device.checkRanges spans = .error (device.verdict span) := by
  induction spans with
  | nil => exact absurd (fun _ hm => absurd hm List.not_mem_nil) h
  | cons first rest ih =>
    by_cases hfirst : device.Holds first
    · obtain ⟨held, span, others, rfl, hheld, hspan, hchecks⟩ :=
        ih fun hrest => h (List.forall_mem_cons.mpr ⟨hfirst, hrest⟩)
      refine ⟨first :: held, span, others, rfl, List.forall_mem_cons.mpr ⟨hfirst, hheld⟩, hspan, ?_⟩
      exact (bind_ok (checkRange_of_holds hapart hfirst)).trans hchecks
    · refine ⟨[], first, rest, rfl, fun _ hm => absurd hm List.not_mem_nil, hfirst, ?_⟩
      unfold checkRanges
      rw [checkRange_of_not_holds hfirst]
      rfl

/-! ## Transfers -/

variable {target source : Nat}

theorem copy_eq (hfaulty : device.faulty = false) : device.copy target source length = do
    device.checkRanges [⟨target, length⟩, ⟨source, length⟩]
    return device.carry target source length := by
  unfold copy
  rw [checkFault_eq hfaulty]
  simp only [checkRanges]
  cases device.checkRange target length with
  | error stop => rfl
  | ok _ => cases device.checkRange source length <;> rfl

theorem move_eq_copy (hfaulty : device.faulty = false) (hmoves : device.supportsMove = true) :
    device.move target source length = device.copy target source length := by
  unfold move copy
  rw [hmoves, checkFault_eq hfaulty, checkFault_eq hfaulty]
  rfl

/-- A transfer between the host and the device, or inside the device. -/
inductive Job where
  | copyIn (address : Nat) (data : Bytes)
  | copyOut (address length : Nat)
  | copy (target source length : Nat)
  | move (target source length : Nat)

namespace Job

/-- Does the transfer. Gives what goes to the host, and the device afterwards. -/
def perform (device : Device) : Job → Attempt (Bytes × Device)
  | copyIn address data => do return (#[], ← device.copyIn address data)
  | copyOut address length => device.copyOut address length
  | copy target source length => do return (#[], ← device.copy target source length)
  | move target source length => do return (#[], ← device.move target source length)

/-- Does the transfer on a device of the platform, as all transfers there are done. -/
def run (number : Nat) (job : Job) : Action Platform Bytes :=
  Platform.onDevices fun devices => do
    let (data, device) ← job.perform (devices.get number)
    return (data, devices.set number device)

/-- The transfer is one the device serves, and the caller does not copy between ranges that
overlap. -/
def Served (device : Device) : Job → Prop
  | copyIn .. | copyOut .. => True
  | copy target source length => Span.Clear ⟨target, length⟩ ⟨source, length⟩
  | move .. => device.supportsMove = true

def spans : Job → List Span
  | copyIn address data => [⟨address, data.size⟩]
  | copyOut address length => [⟨address, length⟩]
  | copy target source length | move target source length => [⟨target, length⟩, ⟨source, length⟩]

def sent : Job → Nat
  | copyIn _ data => data.size
  | _ => 0

def fetched : Job → Nat
  | copyOut _ length => length
  | _ => 0

def byte? (device : Device) (n : Nat) : Job → Option UInt8
  | copyIn address data =>
    if address ≤ n ∧ n < address + data.size then data[n - address]? else device.byte? n
  | copyOut .. => device.byte? n
  | copy target source length | move target source length =>
    if target ≤ n ∧ n < target + length then device.byte? (source + (n - target))
      else device.byte? n

def fetch? (device : Device) (i : Nat) : Job → Option UInt8
  | copyOut address _ => device.byte? (address + i)
  | _ => none

/-- The transfer has been done: the bytes are where they should be, the counters moved by the bytes
that went over, and nothing else of the device changed. -/
structure Done (job : Job) (device : Device) (delivered : Bytes) (after : Device) : Prop where
  layout_eq : after.layout = device.layout
  byte?_eq : ∀ n, after.byte? n = job.byte? device n
  size_delivered : delivered.size = job.fetched
  delivered_eq : ∀ i < job.fetched, delivered[i]? = job.fetch? device i
  rest_eq : after = { device with
    allocations := after.allocations
    bytesToDevice := device.bytesToDevice + job.sent
    bytesToHost := device.bytesToHost + job.fetched }

variable {job : Job}

def outcome (device : Device) : Job → Bytes × Device
  | copyIn address data =>
    (#[], { device.write address data with bytesToDevice := device.bytesToDevice + data.size })
  | copyOut address length =>
    (device.read address length, { device with bytesToHost := device.bytesToHost + length })
  | copy target source length | move target source length =>
    (#[], device.carry target source length)

theorem perform_eq (hfaulty : device.faulty = false) (hserved : job.Served device) :
    job.perform device = do device.checkRanges job.spans; return job.outcome device := by
  cases job with
  | copyIn address data =>
    unfold perform Device.copyIn
    rw [checkFault_eq hfaulty]
    simp only [spans, checkRanges]
    cases device.checkRange address data.size <;> rfl
  | copyOut address length =>
    unfold perform Device.copyOut
    rw [checkFault_eq hfaulty]
    simp only [spans, checkRanges]
    cases device.checkRange address length <;> rfl
  | copy target source length =>
    simp only [perform, spans, copy_eq hfaulty]
    cases device.checkRanges [⟨target, length⟩, ⟨source, length⟩] <;> rfl
  | move target source length =>
    simp only [perform, spans, move_eq_copy hfaulty hserved, copy_eq hfaulty]
    cases device.checkRanges [⟨target, length⟩, ⟨source, length⟩] <;> rfl

theorem outcome_done (hapart : device.Apart) (h : ∀ span ∈ job.spans, device.Holds span) :
    job.Done device (job.outcome device).1 (job.outcome device).2 := by
  have hnone : ∀ i < 0, (#[] : Bytes)[i]? = none := fun i hi => absurd hi (Nat.not_lt_zero i)
  cases job with
  | copyIn address data =>
    have hh : device.Holds ⟨address, data.size⟩ := h _ (List.mem_singleton_self _)
    exact ⟨layout_write address data, fun n => byte?_write hapart hh, rfl, hnone, rfl⟩
  | copyOut address length =>
    have hh : device.Holds ⟨address, length⟩ := h _ (List.mem_singleton_self _)
    exact ⟨rfl, fun n => rfl, size_read hh, fun i hi => getElem?_read hapart hh hi, rfl⟩
  | copy target source length | move target source length =>
    obtain ⟨ht, hs, -⟩ := List.forall_mem_cons.mp h |>.imp_right List.forall_mem_cons.mp
    exact ⟨layout_carry .., fun n => byte?_carry hapart ht hs, rfl, hnone, rfl⟩

end Job

variable {platform : Platform} {number : Nat} {stop : Stop}

theorem Job.run_of_ok {job : Job}
    (h : job.perform (platform.machine.devices.get number) = .ok (data, after)) :
    job.run number platform =
      .ok data { platform with machine.devices := platform.machine.devices.set number after } := by
  refine Platform.onDevices_of_ok ?_
  rw [h]
  rfl

theorem Job.run_of_error {job : Job}
    (h : job.perform (platform.machine.devices.get number) = .error stop) :
    job.run number platform = .error stop platform := by
  refine Platform.onDevices_of_error ?_
  rw [h]
  rfl

/-- On a device that does not fail a transfer is done exactly if each of its ranges lies inside one
live allocation. Otherwise the first range that does not decides why it stops, and nothing at all
has changed. -/
theorem transfers_check_ranges (platform : Platform) (number : Nat) (job : Job)
    (hapart : (platform.machine.devices.get number).Apart)
    (hfaulty : (platform.machine.devices.get number).faulty = false)
    (hserved : job.Served (platform.machine.devices.get number)) :
    let device := platform.machine.devices.get number
    ((∀ span ∈ job.spans, device.Holds span) → ∃ delivered after, job.Done device delivered after ∧
      job.run number platform =
        .ok delivered
          { platform with machine.devices := platform.machine.devices.set number after }) ∧
    ((¬ ∀ span ∈ job.spans, device.Holds span) →
      ∃ held span rest, job.spans = held ++ span :: rest ∧
      (∀ other ∈ held, device.Holds other) ∧ ¬ device.Holds span ∧
        job.run number platform = .error (device.verdict span) platform) := by
  intro device
  have hperform : job.perform device = do device.checkRanges job.spans; return job.outcome device :=
    Job.perform_eq hfaulty hserved
  constructor
  · intro hall
    have hdone : job.perform device = .ok (job.outcome device) :=
      hperform.trans (bind_ok (checkRanges_of_holds hapart hall))
    exact ⟨_, _, Job.outcome_done hapart hall, Job.run_of_ok hdone⟩
  · intro hall
    obtain ⟨held, span, rest, hsplit, hheld, hspan, hchecks⟩ := checkRanges_of_not_holds hapart hall
    have hstops : job.perform device = .error (device.verdict span) := by
      rw [hperform, hchecks]
      rfl
    exact ⟨held, span, rest, hsplit, hheld, hspan, Job.run_of_error hstops⟩

/-- Two allocations side by side: bytes are moved inside one, but not read across both. -/
theorem transfers_check_ranges_adjacent :
    let device : Device :=
      { name := "gpu", moves := true, allocations := [⟨16, #[1, 2, 3, 4]⟩, ⟨20, #[5, 6]⟩] }
    let platform : Platform := { machine := { devices := [device] } }
    (device.Apart ∧ device.faulty = false ∧ (Job.move 17 16 3).Served device ∧
        (Job.copyOut 18 4).Served device) ∧
      (∃ delivered after, (Job.move 17 16 3).Done device delivered after ∧
        (Job.move 17 16 3).run 0 platform =
          .ok delivered { platform with machine.devices := [after] }) ∧
      (Job.copyOut 18 4).run 0 platform =
        .error (.error (.outsideAllocations 18 4 "gpu")) platform := by
  intro device platform
  have hapart : device.Apart := ⟨by decide, by decide⟩
  refine ⟨⟨hapart, rfl, rfl, trivial⟩, ?_, ?_⟩
  · exact (transfers_check_ranges platform 0 (.move 17 16 3) hapart rfl rfl).1 (by decide)
  obtain ⟨held, span, rest, hsplit, -, -, hrun⟩ :=
    (transfers_check_ranges platform 0 (.copyOut 18 4) hapart rfl trivial).2 (by decide)
  obtain ⟨rfl, rfl, rfl⟩ : held = [] ∧ span = ⟨18, 4⟩ ∧ rest = [] := by
    cases held with
    | nil => cases hsplit; exact ⟨rfl, rfl, rfl⟩
    | cons _ _ => simp [Job.spans] at hsplit
  exact hrun

/-- No allocation holds the ranges, but where the first one would end is no address. -/
theorem stray_range_breaks_off :
    let device : Device :=
      { name := "gpu", moves := true, allocations := [⟨firstAddress, Bytes.zeroed 16⟩] }
    let job : Job := .move firstAddress (firstAddress + 8) (Word.limit - 1)
    let platform : Platform := { machine := { devices := [device] } }
    (device.Apart ∧ device.faulty = false ∧ job.Served device ∧
      ∀ span ∈ job.spans, ¬ device.Holds span) ∧
      job.run 0 platform = .error (.fault .addOverflow) platform := by
  intro device job platform
  refine ⟨⟨⟨by decide, by decide⟩, rfl, rfl, by decide⟩, rfl⟩

end StreamBuffer.Device
