import Mathlib.Logic.Basic
import StreamBuffer.Proofs.Memory.Transfers

/-!
# Shifts inside a region

Bytes are copied or moved inside a region on the host, or on a device that moves and does not fail.
`region_shifts_are_exact`: a shift is done exactly if there is nothing to do, or both ranges lie
inside the region and do not overlap where that is not allowed. Then the target holds what the
source held before, also where the two overlap. Any other shift is refused as a mistake of the
caller, and nothing changes.
-/

namespace StreamBuffer

/-- The run is an allocation, among others it does not touch, of a device that moves and does not
fail. -/
structure DeviceRun.Ready (run : DeviceRun) (devices : Devices) : Prop where
  device_lt : run.device < devices.length
  apart : (devices.get run.device).Apart
  allocated : ⟨run.address, run.length⟩ ∈ (devices.get run.device).layout
  faultless : (devices.get run.device).faulty = false
  moves : (devices.get run.device).supportsMove = true

namespace Region

def Ready (devices : Devices) : Region → Prop
  | host segment => segment.size < Word.limit
  | device run => run.Ready devices

/-- The region at the same place with these bytes, which for a device region are with its device. -/
def holding (bytes : Bytes) : Region → Region
  | host segment => .host { segment with bytes }
  | device run => .device run

def Occupies (number n : Nat) : Region → Prop
  | host _ => False
  | device run => run.device = number ∧ run.address ≤ n ∧ n < run.address + run.length

structure Spares (region : Region) (devices others : Devices) : Prop where
  length_eq : others.length = devices.length
  layout_eq : ∀ number, (others.get number).layout = (devices.get number).layout
  byte?_eq : ∀ number n, ¬ region.Occupies number n →
    (others.get number).byte? n = (devices.get number).byte? n
  rest_eq : ∀ number, others.get number =
    { devices.get number with allocations := (others.get number).allocations }

/-- The bytes of one range of the region were put in another range of it, and nothing else has
changed. -/
structure Shifted (region : Region) (devices : Devices) (target source length : Nat)
    (after : Region) (others : Devices) : Prop where
  region_eq : after = region.holding (after.bytes others)
  size_eq : (after.bytes others).size = (region.bytes devices).size
  getElem?_eq : ∀ i, (after.bytes others)[i]? =
    if target ≤ i ∧ i < target + length then (region.bytes devices)[source + (i - target)]?
    else (region.bytes devices)[i]?
  spares : region.Spares devices others

def Idle (overlapping : Bool) (target source length : Nat) : Prop :=
  length = 0 ∨ overlapping = true ∧ target = source

def Fits (region : Region) (overlapping : Bool) (target source length : Nat) : Prop :=
  source + length ≤ region.size ∧ target + length ≤ region.size ∧
    (overlapping = true ∨ Device.Span.Clear ⟨target, length⟩ ⟨source, length⟩)

instance (overlapping : Bool) (target source length : Nat) :
    Decidable (Idle overlapping target source length) :=
  inferInstanceAs (Decidable (_ ∨ _))

instance (region : Region) (overlapping : Bool) (target source length : Nat) :
    Decidable (region.Fits overlapping target source length) := inferInstanceAs (Decidable (_ ∧ _))

/-- Why a shift that does not fit is refused. The ranges are compared only when both lie inside the
region. -/
def complaint (region : Region) (overlapping : Bool) (target source length : Nat) : Error :=
  if region.size < source + length then
    .rangeExceedsRegion (if overlapping then .moveSource else .copySource) source length
      region.domain region.size
  else if region.size < target + length then
    .rangeExceedsRegion (if overlapping then .moveDestination else .copyDestination) target
      length region.domain
      region.size
  else .rangesOverlap source target length

def shift (region : Region) (devices : Devices) (overlapping : Bool) (target source length : Nat) :
    Attempt (Region × Devices) :=
  if overlapping then region.moveWithin devices target source length
  else region.copyWithin devices target source length

def afterShift (region : Region) (devices : Devices) (target source length : Nat) :
    Region × Devices :=
  match region with
  | host segment =>
    (.host
      { segment with bytes := segment.bytes.splice target (segment.bytes.slice source length) },
      devices)
  | device run => (region, devices.set run.device
      ((devices.get run.device).carry (run.address + target) (run.address + source) length))

end Region

variable {run : DeviceRun} {region : Region} {devices : Devices} {segment : Segment}
variable {overlapping : Bool}
variable {target source length offset i : Nat}

namespace DeviceRun.Ready

theorem holds (h : run.Ready devices) (hr : offset + length ≤ run.length) :
    (devices.get run.device).Holds ⟨run.address + offset, length⟩ := by
  refine ⟨_, h.allocated, Nat.le_add_right .., ?_⟩
  change run.address + offset + length ≤ run.address + run.length
  omega

theorem stop_lt (h : run.Ready devices) : run.address + run.length < Word.limit :=
  h.apart.addressed _ h.allocated

theorem add_eq (h : run.Ready devices) (hr : offset ≤ run.length) :
    Word.add run.address offset = .ok (run.address + offset) := by
  have hstop := h.stop_lt
  exact Word.add_eq_ok (by omega)

theorem holds_all (h : run.Ready devices) :
    (devices.get run.device).Holds ⟨run.address, run.length⟩ :=
  ⟨_, h.allocated, Nat.le_refl _, Nat.le_refl _⟩

theorem size_bytes (h : run.Ready devices) : (run.bytes devices).size = run.length :=
  Device.size_read h.holds_all

theorem getElem?_bytes (h : run.Ready devices) (hi : i < run.length) :
    (run.bytes devices)[i]? = (devices.get run.device).byte? (run.address + i) :=
  Device.getElem?_read h.apart h.holds_all hi

theorem getElem?_beyond (h : run.Ready devices) (hi : run.length ≤ i) :
    (run.bytes devices)[i]? = none :=
  Array.getElem?_eq_none (by rwa [h.size_bytes])

theorem of_layout (h : run.Ready devices) {changed : Device}
    (hlayout : changed.layout = (devices.get run.device).layout)
    (hrest : changed = { devices.get run.device with allocations := changed.allocations }) :
    run.Ready (devices.set run.device changed) := by
  have hget : Devices.get (devices.set run.device changed) run.device = changed :=
    Devices.get_set h.device_lt
  refine ⟨by rw [List.length_set]; exact h.device_lt, ?_, ?_, ?_, ?_⟩ <;> rw [hget]
  · exact h.apart.of_layout hlayout
  · rw [hlayout]
    exact h.allocated
  · rw [hrest]
    exact h.faultless
  · rw [hrest]
    exact h.moves

theorem copy_eq (h : run.Ready devices) (hs : source + length ≤ run.length)
    (ht : target + length ≤ run.length) :
    (devices.get run.device).copy (run.address + target) (run.address + source) length =
      .ok ((devices.get run.device).carry (run.address + target) (run.address + source) length) :=
  (Device.copy_eq h.faultless).trans (bind_ok (Device.checkRanges_of_holds h.apart
    (List.forall_mem_cons.mpr ⟨h.holds ht, List.forall_mem_singleton.mpr (h.holds hs)⟩)))

theorem move_eq (h : run.Ready devices) (hs : source + length ≤ run.length)
    (ht : target + length ≤ run.length) :
    (devices.get run.device).move (run.address + target) (run.address + source) length =
      .ok ((devices.get run.device).carry (run.address + target) (run.address + source) length) :=
  (Device.move_eq_copy h.faultless h.moves).trans (h.copy_eq hs ht)

end DeviceRun.Ready

namespace Region

theorem Ready.size_lt (h : region.Ready devices) : region.size < Word.limit := by
  cases region with
  | host segment => exact h
  | device run => exact Nat.lt_of_le_of_lt (Nat.le_add_left ..) (DeviceRun.Ready.stop_lt h)

theorem Ready.add_eq (h : region.Ready devices) (hr : offset + length ≤ region.size) :
    Word.add offset length = .ok (offset + length) :=
    Word.add_eq_ok (Nat.lt_of_le_of_lt hr h.size_lt)

theorem checkRange_eq {access : Access} : region.checkRange access offset length =
    if offset + length ≤ region.size then .ok ()
    else .error (.error (.rangeExceedsRegion access offset length region.domain region.size)) := by
  unfold checkRange
  split <;> rfl

theorem kind_complaint :
    (region.complaint overlapping target source length).kind = .invariantViolated := by
  unfold complaint
  split
  · rfl
  · split <;> rfl

theorem shift_idle (h : Idle overlapping target source length) :
    region.shift devices overlapping target source length = .ok (region, devices) := by
  unfold shift
  cases overlapping with
  | true =>
    have hidle : length = 0 ∨ target = source := h.imp_right And.right
    unfold moveWithin
    rw [if_pos hidle]
    rfl
  | false =>
    have hidle : length = 0 := h.resolve_right fun h => Bool.false_ne_true h.1
    unfold copyWithin
    rw [if_pos hidle]
    rfl

theorem shift_refused (hready : region.Ready devices)
    (hidle : ¬ Idle overlapping target source length)
    (h : ¬ region.Fits overlapping target source length) :
    region.shift devices overlapping target source length =
      .error (.error (region.complaint overlapping target source length)) := by
  unfold shift complaint
  cases overlapping with
  | true =>
    have hbusy : ¬ (length = 0 ∨ target = source) :=
      fun hb => hidle (hb.imp_right fun hb => ⟨rfl, hb⟩)
    have hrange : source + length ≤ region.size → ¬ target + length ≤ region.size := fun hs ht =>
      h ⟨hs, ht, .inl rfl⟩
    unfold moveWithin
    rw [if_neg hbusy, checkRange_eq, checkRange_eq]
    by_cases hs : source + length ≤ region.size
    · rw [if_pos hs, if_neg (hrange hs), if_neg (Nat.not_lt_of_le hs),
        if_pos (Nat.lt_of_not_le (hrange hs))]
      rfl
    · rw [if_neg hs, if_pos (Nat.lt_of_not_le hs)]
      rfl
  | false =>
    have hbusy : ¬ length = 0 := fun hb => hidle (.inl hb)
    unfold copyWithin
    rw [if_neg hbusy, checkRange_eq, checkRange_eq]
    by_cases hs : source + length ≤ region.size
    · by_cases ht : target + length ≤ region.size
      · have hoverlap : source < target + length ∧ target < source + length := by
          have hclear : ¬ (target + length ≤ source ∨ source + length ≤ target) := fun hc =>
            h ⟨hs, ht, .inr hc⟩
          omega
        -- both ranges lie inside, so it is the overlap
        rw [if_pos hs, if_pos ht, if_neg (Nat.not_lt_of_le hs), if_neg (Nat.not_lt_of_le ht),
          hready.add_eq ht, hready.add_eq hs]
        change (if source < target + length then if target < source + length then _ else _ else _) =
          _
        rw [if_pos hoverlap.1, if_pos hoverlap.2]
        rfl
      · rw [if_pos hs, if_neg ht, if_neg (Nat.not_lt_of_le hs), if_pos (Nat.lt_of_not_le ht)]
        rfl
    · rw [if_neg hs, if_pos (Nat.lt_of_not_le hs)]
      rfl

theorem shift_done (hready : region.Ready devices) (hidle : ¬ Idle overlapping target source length)
    (h : region.Fits overlapping target source length) :
    region.shift devices overlapping target source length =
      .ok (region.afterShift devices target source length) := by
  obtain ⟨hs, ht, hclear⟩ := h
  unfold shift
  cases overlapping with
  | true =>
    have hbusy : ¬ (length = 0 ∨ target = source) :=
      fun hb => hidle (hb.imp_right fun hb => ⟨rfl, hb⟩)
    unfold moveWithin
    rw [if_neg hbusy, checkRange_eq, checkRange_eq, if_pos hs, if_pos ht]
    cases region with
    | host segment => rfl
    | device run =>
      have hrun : run.Ready devices := hready
      simp only [hrun.add_eq (Nat.le_of_add_right_le ht), hrun.add_eq (Nat.le_of_add_right_le hs)]
      change (Device.move _ _ _ _ >>= _) = _
      rw [hrun.move_eq hs ht]
      rfl
  | false =>
    have hbusy : ¬ length = 0 := fun hb => hidle (.inl hb)
    -- ranges may touch but not overlap
    have hapart : ¬ (source < target + length ∧ target < source + length) := by
      have hclear : target + length ≤ source ∨ source + length ≤ target :=
        hclear.resolve_left Bool.false_ne_true
      omega
    unfold copyWithin
    rw [if_neg hbusy, checkRange_eq, checkRange_eq, if_pos hs, if_pos ht, hready.add_eq ht,
      hready.add_eq hs]
    change (if source < target + length then if target < source + length then _ else _ else _) = _
    rw [← ite_and, if_neg hapart]
    cases region with
    | host segment => rfl
    | device run =>
      have hrun : run.Ready devices := hready
      simp only [hrun.add_eq (Nat.le_of_add_right_le ht), hrun.add_eq (Nat.le_of_add_right_le hs)]
      change (Device.copy _ _ _ _ >>= _) = _
      rw [hrun.copy_eq hs ht]
      rfl

/-! ## What a shift does -/

theorem Spares.refl : region.Spares devices devices :=
  ⟨rfl, fun _ => rfl, fun _ _ _ => rfl, fun _ => rfl⟩

theorem shifted_idle (h : Idle overlapping target source length) :
    region.Shifted devices target source length region devices where
  region_eq := by cases region <;> rfl
  size_eq := rfl
  getElem?_eq i := by
    split
    · rcases h with rfl | ⟨-, rfl⟩
      · omega
      · rw [Nat.add_sub_cancel' (by omega)]
    · rfl
  spares := .refl

theorem shifted_host (hs : source + length ≤ segment.size) (ht : target + length ≤ segment.size) :
    (host segment).Shifted devices target source length
      (.host
        { segment with bytes := segment.bytes.splice target (segment.bytes.slice source length) })
          devices := by
  have hsize : (segment.bytes.slice source length).size = length := Bytes.size_slice hs
  refine ⟨rfl, Bytes.size_splice (by rwa [hsize]), fun i => ?_, .refl⟩
  change (segment.bytes.splice target (segment.bytes.slice source length))[i]? =
    if target ≤ i ∧ i < target + length then segment.bytes[source + (i - target)]?
      else segment.bytes[i]?
  rw [Bytes.getElem?_splice (by rwa [hsize]), hsize]
  split
  · exact Bytes.getElem?_slice (by omega)
  · rfl

theorem spares_set (h : run.Ready devices) {changed : Device}
    (hlayout : changed.layout = (devices.get run.device).layout)
    (hbyte : ∀ n, ¬ (run.address ≤ n ∧ n < run.address + run.length) →
      changed.byte? n = (devices.get run.device).byte? n)
    (hrest : changed = { devices.get run.device with allocations := changed.allocations }) :
    (device run).Spares devices (devices.set run.device changed) := by
  have hget : ∀ number, Devices.get (devices.set run.device changed) number =
      if run.device = number then changed else devices.get number := fun number => by
    split
    · subst number
      exact Devices.get_set h.device_lt
    · exact Devices.get_set_ne ‹_›
  refine ⟨List.length_set, fun number => ?_, fun number n hn => ?_, fun number => ?_⟩ <;>
    rw [hget] <;> split
  · subst number
    exact hlayout
  · rfl
  · subst number
    exact hbyte n fun hin => hn ⟨rfl, hin⟩
  · rfl
  · subst number
    exact hrest
  · rfl

theorem shifted_device (h : run.Ready devices) (hs : source + length ≤ run.length)
    (ht : target + length ≤ run.length) :
    (device run).Shifted devices target source length (.device run) (devices.set run.device
      ((devices.get run.device).carry (run.address + target) (run.address + source) length)) := by
  have hbyte : ∀ n,
      ((devices.get run.device).carry (run.address + target) (run.address + source) length).byte?
        n = _ :=
    fun n => Device.byte?_carry h.apart (h.holds ht) (h.holds hs)
  have hlayout :
      ((devices.get run.device).carry (run.address + target) (run.address + source) length).layout =
      (devices.get run.device).layout := Device.layout_carry ..
  have hready := h.of_layout hlayout rfl
  have hsize := hready.size_bytes.trans h.size_bytes.symm
  refine ⟨rfl, hsize, fun i => ?_, spares_set h hlayout (fun n hn => ?_) rfl⟩
  · rcases Nat.lt_or_ge i run.length with hi | hi
    · refine (hready.getElem?_bytes hi).trans ?_
      rw [Devices.get_set h.device_lt, hbyte]
      by_cases hin : target ≤ i ∧ i < target + length
      · have hfrom : run.address + source + (run.address + i - (run.address + target)) =
            run.address + (source + (i - target)) := by omega
        rw [if_pos (by omega), if_pos hin, hfrom]
        exact (h.getElem?_bytes (by omega)).symm
      · rw [if_neg (by omega), if_neg hin]
        exact (h.getElem?_bytes hi).symm
    · rw [if_neg (by omega)]
      exact (hready.getElem?_beyond hi).trans (h.getElem?_beyond hi).symm
  · rw [hbyte, if_neg (by omega)]

theorem shifted_afterShift (hready : region.Ready devices)
    (h : region.Fits overlapping target source length) :
    region.Shifted devices target source length (region.afterShift devices target source length).1
      (region.afterShift devices target source length).2 := by
  obtain ⟨hs, ht, -⟩ := h
  cases region with
  | host segment => exact shifted_host hs ht
  | device run => exact shifted_device hready hs ht

end Region

/-! ## Shifts on the platform -/

namespace Platform

variable {platform : Platform} {slot : Nat} {after : Region} {others : Devices} {stop : Stop}
variable {change : Region → Devices → Attempt (Region × Devices)}

theorem changeRegion_of_ok (hslot : platform.regions.get? slot = some region)
    (h : change region platform.machine.devices = .ok (after, others)) :
    changeRegion slot change platform = .ok (some ())
      { platform with machine.devices := others, regions := platform.regions.set slot after } := by
  refine (onSlot_eq hslot).trans ?_
  change EStateM.map some (EStateM.bind (onDevices (change region)) _) platform = _
  simp only [EStateM.map, EStateM.bind, onDevices_of_ok h]
  rfl

theorem changeRegion_of_error (hslot : platform.regions.get? slot = some region)
    (h : change region platform.machine.devices = .error stop) :
    changeRegion slot change platform = .error stop platform := by
  refine (onSlot_eq hslot).trans ?_
  change EStateM.map some (EStateM.bind (onDevices (change region)) _) platform = _
  simp only [EStateM.map, EStateM.bind, onDevices_of_error h]

end Platform

/-- Bytes are copied or moved inside a region exactly if there is nothing to do, or both ranges lie
inside the region and do not overlap unless they may. Otherwise the shift is refused, and nothing at
all has changed. -/
theorem region_shifts_are_exact (platform : Platform) (slot : Nat) (region : Region)
    (overlapping : Bool) (target source length : Nat)
    (hslot : platform.regions.get? slot = some region)
    (hready : region.Ready platform.machine.devices) :
    (Region.Idle overlapping target source length ∨ region.Fits overlapping target source length →
      ∃ after others, region.Shifted platform.machine.devices target source length after others ∧
        Platform.shiftRegion slot overlapping target source length platform = .ok (some ())
          { platform with machine.devices := others, regions := platform.regions.set slot after }) ∧
    (¬ (Region.Idle overlapping target source length ∨
      region.Fits overlapping target source length) →
      (region.complaint overlapping target source length).kind = .invariantViolated ∧
        Platform.shiftRegion slot overlapping target source length platform =
          .error (.error (region.complaint overlapping target source length)) platform) := by
  constructor
  · intro hfits
    by_cases hidle : Region.Idle overlapping target source length
    · exact ⟨_, _, Region.shifted_idle hidle,
        Platform.changeRegion_of_ok hslot (Region.shift_idle hidle)⟩
    · have hfits := hfits.resolve_left hidle
      exact ⟨_, _, Region.shifted_afterShift hready hfits,
        Platform.changeRegion_of_ok hslot (Region.shift_done hready hidle hfits)⟩
  · intro hrefused
    obtain ⟨hidle, hfits⟩ := not_or.mp hrefused
    exact ⟨Region.kind_complaint,
      Platform.changeRegion_of_error hslot (Region.shift_refused hready hidle hfits)⟩

/-- In the second of two allocations the ranges overlap: the move is done, the copy is refused. -/
theorem region_shifts_are_exact_overlap :
    let device : Device :=
    { name := "gpu", moves := true, allocations := [⟨16, #[1, 2]⟩, ⟨32, #[3, 4, 5, 6]⟩] }
    let region : Region := .device ⟨0, 32, 4⟩
    let platform : Platform :=
      { machine := { devices := [device] }, regions := ⟨[none, some region]⟩ }
    (platform.regions.get? 1 = some region ∧ region.Ready platform.machine.devices) ∧
      (∃ after others, region.Shifted platform.machine.devices 1 0 3 after others ∧
        Platform.shiftRegion 1 true 1 0 3 platform = .ok (some ())
          { platform with machine.devices := others, regions := platform.regions.set 1 after }) ∧
      Platform.shiftRegion 1 false 1 0 3 platform =
        .error (.error (.rangesOverlap 0 1 3)) platform := by
  intro device region platform
  have hready : region.Ready platform.machine.devices :=
    ⟨by decide, ⟨by decide, by decide⟩, by decide, rfl, rfl⟩
  exact ⟨⟨rfl, hready⟩,
    (region_shifts_are_exact platform 1 region true 1 0 3 rfl hready).1 (by decide),
    ((region_shifts_are_exact platform 1 region false 1 0 3 rfl hready).2 (by decide)).2⟩

end StreamBuffer
