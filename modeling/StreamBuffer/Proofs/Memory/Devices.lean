import StreamBuffer.Region
import StreamBuffer.Proofs.Memory.Items

/-!
# Live device memory

A run of device memory is live while an allocation of its device begins and ends where it does and
no other comes near it. Transfers to and from a live run fail on a faulty device only.
-/

namespace StreamBuffer

structure DeviceRun.Live (run : DeviceRun) (devices : Devices) : Prop where
  device_lt : run.device < devices.length
  addressed : run.address + run.length < Word.limit
  allocated : ∃ before bytes after,
    (devices.get run.device).allocations = before ++ ⟨run.address, bytes⟩ :: after ∧
      bytes.size = run.length ∧
      (∀ other ∈ before, other.address + other.bytes.size < run.address) ∧
      ∀ other ∈ after, run.address + run.length < other.address

/-- The devices differ in the contents of their memory at most. -/
structure Devices.Akin (devices others : Devices) : Prop where
  length_eq : others.length = devices.length
  name_eq : ∀ number, (others.get number).name = (devices.get number).name
  moves_eq : ∀ number, (others.get number).supportsMove = (devices.get number).supportsMove
  faulty_eq : ∀ number, (others.get number).faulty = (devices.get number).faulty

variable {run : DeviceRun} {devices others : Devices} {number offset length : Nat} {data : Bytes}

namespace Devices

theorem get_set {device : Device} (h : number < devices.length) :
    get (devices.set number device) number = device := by
  simp [get, h]

theorem get_set_ne {device : Device} {other : Nat} (h : number ≠ other) :
    get (devices.set number device) other = devices.get other := by
  simp [get, List.getElem?_set_ne h]

theorem Akin.refl (devices : Devices) : devices.Akin devices :=
  ⟨rfl, fun _ => rfl, fun _ => rfl, fun _ => rfl⟩

theorem Akin.trans {third : Devices} (h : devices.Akin others) (ht : others.Akin third) :
    devices.Akin third :=
  ⟨ht.length_eq.trans h.length_eq, fun n => (ht.name_eq n).trans (h.name_eq n),
    fun n => (ht.moves_eq n).trans (h.moves_eq n), fun n => (ht.faulty_eq n).trans (h.faulty_eq n)⟩

theorem Akin.set {device : Device} (hname : device.name = (devices.get number).name)
    (hmoves : device.supportsMove = (devices.get number).supportsMove)
    (hfaulty : device.faulty = (devices.get number).faulty) :
    devices.Akin (devices.set number device) := by
  have hget : ∀ n, get (devices.set number device) n = devices.get n ∨
      number = n ∧ get (devices.set number device) n = device := fun n => by
    rcases Nat.lt_or_ge number devices.length with h | h
    · by_cases hn : number = n
      · subst hn
        exact .inr ⟨rfl, get_set h⟩
      · exact .inl (get_set_ne hn)
    · rw [List.set_eq_of_length_le h]
      exact .inl rfl
  refine ⟨List.length_set, fun n => ?_, fun n => ?_, fun n => ?_⟩ <;>
    · rcases hget n with he | ⟨rfl, he⟩ <;> rw [he]
      assumption

end Devices

namespace DeviceRun.Live

theorem of_allocations (h : run.Live devices) (hl : others.length = devices.length)
    (ha : (others.get run.device).allocations = (devices.get run.device).allocations) :
    run.Live others :=
  ⟨hl ▸ h.device_lt, h.addressed, ha ▸ h.allocated⟩

theorem find?_covers {allocations before after : List Device.Allocation} {bytes : Bytes}
    (ha : allocations = before ++ ⟨run.address, bytes⟩ :: after) (hs : bytes.size = run.length)
    (hb : ∀ other ∈ before, other.address + other.bytes.size < run.address)
    (hr : offset + length ≤ run.length) :
    allocations.find? (·.covers (run.address + offset) length) = some ⟨run.address, bytes⟩ := by
  rw [ha, List.find?_append, List.find?_eq_none.mpr fun other ho => ?_, List.find?_cons_of_pos,
    Option.none_or]
  · simp only [Device.Allocation.covers, Bool.and_eq_true, decide_eq_true_eq]
    omega
  · have := hb other ho
    simp only [Device.Allocation.covers, Bool.and_eq_true, decide_eq_true_eq]
    omega

theorem bytes_eq {before after : List Device.Allocation} {bytes : Bytes}
    (ha : (devices.get run.device).allocations = before ++ ⟨run.address, bytes⟩ :: after)
    (hs : bytes.size = run.length)
    (hb : ∀ other ∈ before, other.address + other.bytes.size < run.address) :
    run.bytes devices = bytes := by
  have hf := find?_covers ha hs hb (show 0 + run.length ≤ run.length by omega)
  rw [Nat.add_zero] at hf
  simp only [DeviceRun.bytes, Device.read, hf, Nat.sub_self, Bytes.slice_all hs]

theorem size_bytes (h : run.Live devices) : (run.bytes devices).size = run.length := by
  obtain ⟨before, bytes, after, ha, hs, hb, _⟩ := h.allocated
  rw [bytes_eq ha hs hb]
  exact hs

/-! ## Reads and writes -/

theorem read_eq (h : run.Live devices) (hr : offset + length ≤ run.length) :
    (devices.get run.device).read (run.address + offset) length =
      (run.bytes devices).slice offset length := by
  obtain ⟨before, bytes, after, ha, hs, hb, _⟩ := h.allocated
  rw [bytes_eq ha hs hb]
  simp only [Device.read, find?_covers ha hs hb hr, Nat.add_sub_cancel_left]

theorem write_eq (h : run.Live devices) (hr : offset + data.size ≤ run.length) (changed : Device)
    (hc : changed.allocations =
      ((devices.get run.device).write (run.address + offset) data).allocations) :
    run.Live (devices.set run.device changed) ∧
      run.bytes (devices.set run.device changed) = (run.bytes devices).splice offset data := by
  obtain ⟨before, bytes, after, ha, hs, hb, hf⟩ := h.allocated
  have hapart : ∀ other : Device.Allocation,
      other.address + other.bytes.size < run.address ∨ run.address + run.length < other.address →
      other.covers (run.address + offset) data.size = false := fun other ho => by
    simp only [Device.Allocation.covers, Bool.and_eq_false_imp, decide_eq_true_eq,
      decide_eq_false_iff_not]
    omega
  have hin : (⟨run.address, bytes⟩ : Device.Allocation).covers (run.address + offset) data.size =
      true := by
    simp only [Device.Allocation.covers, Bool.and_eq_true, decide_eq_true_eq]
    omega
  have hkeep : ∀ l : List Device.Allocation, (∀ other ∈ l,
      other.address + other.bytes.size < run.address ∨ run.address + run.length < other.address) →
      l.map (fun other => if other.covers (run.address + offset) data.size then
        { other with bytes := other.bytes.splice (run.address + offset - other.address) data }
        else other) = l := fun l hl =>
    (List.map_congr_left fun other ho => by rw [hapart other (hl other ho)]; rfl).trans
      (List.map_id l)
  have hget : (Devices.get (devices.set run.device changed) run.device).allocations =
      before ++ ⟨run.address, bytes.splice offset data⟩ :: after := by
    rw [Devices.get_set h.device_lt, hc]
    simp only [Device.write, ha, List.map_append, List.map_cons, hin, if_true,
      Nat.add_sub_cancel_left]
    rw [hkeep before fun other ho => .inl (hb other ho),
      hkeep after fun other ho => .inr (hf other ho)]
  have hsize : (bytes.splice offset data).size = run.length := by
    rw [Bytes.size_splice (by omega), hs]
  refine ⟨⟨by rw [List.length_set]; exact h.device_lt, h.addressed, _, _, _, hget, hsize, hb, hf⟩,
    ?_⟩
  rw [bytes_eq hget hsize hb, bytes_eq ha hs hb]

/-! ## Transfers -/

theorem checkRange_eq (h : run.Live devices) (hr : offset + length ≤ run.length) :
    (devices.get run.device).checkRange (run.address + offset) length = .ok () := by
  obtain ⟨before, bytes, after, ha, hs, hb, _⟩ := h.allocated
  have haddr := h.addressed
  have hcover : (devices.get run.device).allocations.any (·.covers (run.address + offset) length) =
      true :=
    List.any_eq_true.mpr ⟨⟨run.address, bytes⟩, by simp [ha], by
      simp only [Device.Allocation.covers, Bool.and_eq_true, decide_eq_true_eq]
      omega⟩
  unfold Device.checkRange
  rw [hcover, Word.add_eq_ok (by omega)]
  cases (devices.get run.device).allocations.any
    (fun other => decide (other.address ≤ run.address + offset)) <;>
    rfl

theorem copyIn_eq (h : run.Live devices) (hr : offset + data.size ≤ run.length) :
    (devices.get run.device).copyIn (run.address + offset) data =
      if (devices.get run.device).faulty then
        .error (.error (.injectedFault .hostToDevice (devices.get run.device).name))
      else .ok { (devices.get run.device).write (run.address + offset) data with
        bytesToDevice := (devices.get run.device).bytesToDevice + data.size } := by
  unfold Device.copyIn Device.checkFault
  rw [h.checkRange_eq hr]
  split <;> rfl

theorem copyOut_eq (h : run.Live devices) (hr : offset + length ≤ run.length) :
    (devices.get run.device).copyOut (run.address + offset) length =
      if (devices.get run.device).faulty then
        .error (.error (.injectedFault .deviceToHost (devices.get run.device).name))
      else .ok ((run.bytes devices).slice offset length, { devices.get run.device with
        bytesToHost := (devices.get run.device).bytesToHost + length }) := by
  unfold Device.copyOut Device.checkFault
  rw [h.checkRange_eq hr, ← h.read_eq hr]
  split <;> rfl

theorem copy_eq (h : run.Live devices) {target source : Nat} (ht : target + length ≤ run.length)
    (hs : source + length ≤ run.length) :
    (devices.get run.device).copy (run.address + target) (run.address + source) length =
      if (devices.get run.device).faulty then
        .error (.error (.injectedFault .deviceToDevice (devices.get run.device).name))
      else .ok ((devices.get run.device).write (run.address + target)
        ((run.bytes devices).slice source length)) := by
  unfold Device.copy Device.checkFault
  rw [h.checkRange_eq ht, h.checkRange_eq hs, ← h.read_eq hs]
  split <;> rfl

theorem move_eq (h : run.Live devices) {target source : Nat} (ht : target + length ≤ run.length)
    (hs : source + length ≤ run.length) :
    (devices.get run.device).move (run.address + target) (run.address + source) length =
      if (devices.get run.device).supportsMove = false then
        .error (.error (.moveNotImplemented length (devices.get run.device).name))
      else if (devices.get run.device).faulty then
        .error (.error (.injectedFault .move (devices.get run.device).name))
      else .ok ((devices.get run.device).write (run.address + target)
        ((run.bytes devices).slice source length)) := by
  unfold Device.move Device.checkFault
  rw [h.checkRange_eq ht, h.checkRange_eq hs, ← h.read_eq hs]
  cases (devices.get run.device).supportsMove with
  | false => rfl
  | true => split <;> rfl

end DeviceRun.Live

end StreamBuffer
