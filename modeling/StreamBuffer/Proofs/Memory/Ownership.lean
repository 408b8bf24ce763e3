import StreamBuffer.Proofs.Lifetimes

/-!
# Who has the memory of the devices

A region owns device memory until it goes into a storage, a storage and a buffer own theirs until
they are dropped, and what was allocated directly is to be given back.

`device_memory_has_one_owner`: whatever is allocated, stored and dropped, in whatever order, and
whatever of it fails, the allocations of a device are exactly the runs that somebody has, and
nothing is freed that is not allocated.
-/

namespace StreamBuffer

/-! ## Devices and the runs that are owned -/

theorem Device.lt_nextAddress {device changed : Device} {size address : Nat}
    (h : device.allocate size = .ok (address, changed)) :
    device.nextAddress < changed.nextAddress := by
  unfold allocate at h
  cases hrefusal : device.refusal with
  | some error =>
    rw [hrefusal] at h
    cases h
  | none =>
    rw [hrefusal] at h
    obtain ⟨segment, -, h⟩ := bind_eq_ok.mp h
    cases h
    have hgap : 0 < gap := by decide
    dsimp only
    omega

namespace Devices

variable {devices others : Devices} {runs more : List DeviceRun} {run : DeviceRun} {number : Nat}

theorem get_set_cases (devices : Devices) (number : Nat) (device : Device) (other : Nat) :
    (number < devices.length ∧ other = number ∧ get (devices.set number device) other = device) ∨
      ((number < devices.length → other ≠ number) ∧
        get (devices.set number device) other = devices.get other) := by
  by_cases hlt : number < devices.length
  · by_cases hother : other = number
    · subst hother
      exact .inl ⟨hlt, rfl, get_set hlt⟩
    · exact .inr ⟨fun _ => hother, get_set_ne (Ne.symm hother)⟩
  · rw [List.set_eq_of_length_le (Nat.le_of_not_lt hlt)]
    exact .inr ⟨fun h => absurd h hlt, rfl⟩

def addresses (runs : List DeviceRun) (number : Nat) : List Nat :=
  (runs.filter (·.device == number)).map (·.address)

def allocated (devices : Devices) (number : Nat) : List Nat :=
  (devices.get number).allocations.map (·.address)

/-- What is allocated on the devices are these runs, each of them once. -/
structure Backs (devices : Devices) (runs : List DeviceRun) : Prop where
  perm : ∀ number, (devices.allocated number).Perm (addresses runs number)
  nodup : ∀ number, (devices.allocated number).Nodup
  fresh : ∀ number, ∀ address ∈ devices.allocated number, address < (devices.get number).nextAddress

theorem addresses_cons_self :
    addresses (run :: runs) run.device = run.address :: addresses runs run.device := by
  simp [addresses]

theorem addresses_cons_ne (h : run.device ≠ number) :
    addresses (run :: runs) number = addresses runs number := by
  simp [addresses, h]

namespace Backs

theorem nil : Backs [] [] where
  perm _ := .refl _
  nodup _ := .nil
  fresh _ _ hm := absurd hm List.not_mem_nil

theorem of_perm (h : devices.Backs runs) (hp : runs.Perm more) : devices.Backs more :=
  ⟨fun number => (h.perm number).trans ((hp.filter _).map _), h.nodup, h.fresh⟩

/-- The same is allocated, and new memory goes where it went before. -/
theorem of_same (h : devices.Backs runs)
    (ha : ∀ number, (others.get number).allocations = (devices.get number).allocations)
    (hn : ∀ number, (others.get number).allocations = [] ∨
      (others.get number).nextAddress = (devices.get number).nextAddress) : others.Backs runs := by
  have hsame : ∀ number, others.allocated number = devices.allocated number := by
    intro number
    rw [allocated, ha, allocated]
  refine ⟨fun number => hsame number ▸ h.perm number, fun number => hsame number ▸ h.nodup number,
    ?_⟩
  intro number address hm
  rcases hn number with hnone | hnext
  · rw [allocated, hnone] at hm
    cases hm
  · rw [hnext]
    exact h.fresh number address (hsame number ▸ hm)

theorem add (h : devices.Backs runs) {device : Device} (hd : device.allocations = []) :
    Backs (devices ++ [device]) runs := by
  have hget : ∀ number, Devices.get (devices ++ [device]) number = devices.get number ∨
      Devices.get (devices ++ [device]) number = device ∧
      (devices.get number).allocations = [] := by
    intro number
    unfold Devices.get
    rcases Nat.lt_trichotomy number devices.length with hlt | heq | hgt
    · exact .inl (by rw [List.getElem?_append_left hlt])
    · subst heq
      exact .inr (by simp [default])
    · rw [List.getElem?_eq_none (by simp; omega), List.getElem?_eq_none hgt.le]
      exact .inl rfl
  apply h.of_same
  · intro number
    rcases hget number with hsame | ⟨hnew, hnone⟩
    · rw [hsame]
    · rw [hnew, hd, hnone]
  · intro number
    rcases hget number with hsame | ⟨hnew, -⟩
    · exact .inr (by rw [hsame])
    · exact .inl (by rw [hnew, hd])

theorem setFaulty (h : devices.Backs runs) (number : Nat) (faulty : Bool) :
    Backs (devices.set number { devices.get number with faulty }) runs := by
  have hget := get_set_cases devices number { devices.get number with faulty }
  apply h.of_same
  · intro other
    rcases hget other with ⟨-, rfl, hset⟩ | ⟨-, hset⟩ <;> rw [hset]
  · intro other
    rcases hget other with ⟨-, rfl, hset⟩ | ⟨-, hset⟩ <;> exact .inr (by rw [hset])

theorem gain (h : devices.Backs runs) (hg : devices.Gain more others) :
    others.Backs (more ++ runs) := by
  cases hg with
  | none => exact h
  | @run place bytes run _ hlt hallocate =>
    obtain ⟨⟨address, changed⟩, hd, hmade⟩ := bind_eq_ok.mp hallocate
    obtain ⟨rfl, hchanged, -⟩ := Device.allocate_eq_ok hd
    cases hmade
    have hlast : (changed.allocations.map (·.address)) =
        devices.allocated place ++ [(devices.get place).nextAddress] := by
      simp [hchanged, allocated]
    have hnext := Device.lt_nextAddress hd
    constructor
    case perm =>
      intro other
      rcases get_set_cases devices place changed other with ⟨-, rfl, hset⟩ | ⟨hne, hset⟩
      · rw [allocated, hset, hlast, List.singleton_append, addresses_cons_self]
        exact (List.perm_append_singleton _ _).trans ((h.perm other).cons _)
      · rw [allocated, hset, List.singleton_append, addresses_cons_ne (hne hlt).symm]
        exact h.perm other
    case nodup =>
      intro other
      rcases get_set_cases devices place changed other with ⟨-, rfl, hset⟩ | ⟨-, hset⟩
      · rw [allocated, hset, hlast, List.nodup_append]
        -- No address is given out again: the new one lies above all that are allocated.
        refine ⟨h.nodup other, List.nodup_singleton _, fun old hold new hnew => ?_⟩
        rw [List.mem_singleton.mp hnew]
        exact (h.fresh other old hold).ne
      · rw [allocated, hset]
        exact h.nodup other
    case fresh =>
      intro other address hm
      rcases get_set_cases devices place changed other with ⟨-, rfl, hset⟩ | ⟨-, hset⟩
      · rw [allocated, hset, hlast] at hm
        rw [hset]
        rcases List.mem_append.mp hm with hm | hm
        · exact (h.fresh other address hm).trans hnext
        · rw [List.mem_singleton.mp hm]
          exact hnext
      · rw [allocated, hset] at hm
        rw [hset]
        exact h.fresh other address hm

theorem mem_allocated (h : devices.Backs (run :: runs)) :
    run.address ∈ devices.allocated run.device := by
  rw [(h.perm run.device).mem_iff, addresses_cons_self]
  exact List.mem_cons_self

theorem isAllocated (h : devices.Backs (run :: runs)) :
    (devices.get run.device).isAllocated run.address = true := by
  simpa [allocated, Device.isAllocated] using h.mem_allocated

theorem free (h : devices.Backs (run :: runs)) :
    Backs (devices.set run.device ((devices.get run.device).free run.address)) runs := by
  have hleft : ((devices.get run.device).free run.address).allocations.map (·.address) =
      (devices.allocated run.device).filter (· != run.address) := by
    simp [Device.free, allocated, List.filter_map]
    rfl
  have hperm := h.perm run.device
  rw [addresses_cons_self] at hperm
  -- an address is there once, so freeing it leaves none of it
  have hgone : run.address ∉ addresses runs run.device :=
    (List.nodup_cons.mp (hperm.nodup_iff.mp (h.nodup run.device))).1
  have hlt : run.device < devices.length := by
    by_contra hge
    have hm := h.mem_allocated
    simp [allocated, get, List.getElem?_eq_none (Nat.le_of_not_lt hge), default] at hm
  constructor
  case perm =>
    intro other
    rcases get_set_cases devices run.device _ other with ⟨-, rfl, hset⟩ | ⟨hne, hset⟩
    · rw [allocated, hset, hleft]
      refine (hperm.filter _).trans ?_
      rw [List.filter_cons_of_neg (by simp), List.filter_eq_self.mpr]
      intro address hm
      exact bne_iff_ne.mpr fun heq => hgone (heq ▸ hm)
    · rw [allocated, hset, ← addresses_cons_ne (hne hlt).symm]
      exact h.perm other
  case nodup =>
    intro other
    rcases get_set_cases devices run.device _ other with ⟨-, rfl, hset⟩ | ⟨-, hset⟩
    · rw [allocated, hset, hleft]
      exact (h.nodup _).filter _
    · rw [allocated, hset]
      exact h.nodup other
  case fresh =>
    intro other address hm
    rcases get_set_cases devices run.device _ other with ⟨-, rfl, hset⟩ | ⟨-, hset⟩
    · rw [allocated, hset, hleft] at hm
      rw [hset]
      exact h.fresh _ address (List.mem_of_mem_filter hm)
    · rw [allocated, hset] at hm
      rw [hset]
      exact h.fresh other address hm

end Backs

end Devices

/-! ## Machines -/

namespace Machine

variable {machine after : Machine} {runs more : List DeviceRun} {run : DeviceRun}

structure Backs (machine : Machine) (runs : List DeviceRun) : Prop where
  devices : machine.devices.Backs runs
  strays : ∀ device, machine.journal.count (.unknownAddressFreed device) = 0

namespace Backs

theorem of_perm (h : machine.Backs runs) (hp : runs.Perm more) : machine.Backs more :=
  ⟨h.devices.of_perm hp, h.strays⟩

theorem of_quiet (h : machine.Backs runs) (hd : after.devices = machine.devices)
    (hq : machine.journal.Quiet after.journal) : after.Backs runs :=
  ⟨hd ▸ h.devices, fun device => (hq.count_eq _ rfl).trans (h.strays device)⟩

theorem gain (h : machine.Backs runs) (hg : machine.Gains more after) :
    after.Backs (more ++ runs) :=
  ⟨h.devices.gain hg.devices, fun device => (hg.journal.count_eq _ rfl).trans (h.strays device)⟩

theorem free (h : machine.Backs (run :: runs)) :
    (machine.free run.device run.address).Backs runs := by
  unfold Machine.free
  dsimp only
  rw [if_pos h.devices.isAllocated]
  exact ⟨h.devices.free, h.strays⟩

theorem release {region : Region} (h : machine.Backs (region.runs ++ runs)) :
    (machine.release region).Backs runs := by
  cases region with
  | host segment => exact h
  | device run => exact h.free

theorem releaseStorage {storage : Storage} (h : machine.Backs (storage.runs ++ runs)) :
    (storage.release machine).Backs runs := by
  obtain ⟨context, layout⟩ := storage
  cases layout with
  | single region => exact Backs.release h
  | split host run => exact h.free

end Backs

end Machine

/-! ## Platforms -/

namespace Platform

variable {notes more : List Note} {platform after : Platform} {slot : Nat}

def owned (platform : Platform) : List DeviceRun :=
  platform.regions.things.flatMap Region.runs ++ platform.storages.things.flatMap Storage.runs ++
    platform.buffers.things.flatMap fun live => live.buffer.storage.runs

def lent (notes : List Note) (platform : Platform) : List DeviceRun :=
  (platform.allocations.toList.filter fun allocation => .returned allocation.1 ∉ notes).map (·.2)

def holdings (notes : List Note) (platform : Platform) : List DeviceRun :=
  platform.owned ++ platform.lent notes

structure Owned (notes : List Note) (platform : Platform) : Prop where
  backs : platform.machine.Backs (platform.holdings notes)
  returned_lt : ∀ slot, .returned slot ∈ notes → slot < platform.allocations.next

theorem lent_push (h : .returned platform.allocations.next ∉ notes) (run : DeviceRun) :
    lent notes { platform with allocations := platform.allocations.push run } =
      platform.lent notes ++ [run] := by
  simp [lent, Table.toList_push, h]

theorem lent_returned {run : DeviceRun} (hg : platform.allocations.get? slot = some run)
    (hn : .returned slot ∉ notes) :
    (platform.lent notes).Perm (run :: platform.lent (notes ++ [.returned slot])) := by
  have hnodup : platform.allocations.toList.Nodup := Table.pairwise_toList.imp fun hlt heq =>
    absurd (congrArg Prod.fst heq) hlt.ne
  have hsplit : (platform.allocations.toList.filter fun p => .returned p.1 ∉ notes).Perm
      ((slot, run) :: platform.allocations.toList.filter fun p => .returned p.1 ∉
        notes ++ [.returned slot]) := by
    refine (List.perm_ext_iff_of_nodup (hnodup.filter _) ?_).mpr fun p => ?_
    · exact List.nodup_cons.mpr ⟨by simp, hnodup.filter _⟩
    · have hsame : p.1 = slot → (p ∈ platform.allocations.toList ↔ p = (slot, run)) := by
        rintro rfl
        rw [Table.mem_toList, hg, Prod.ext_iff]
        simp [eq_comm]
      by_cases hp : p.1 = slot
      · simp [hsame hp, hp]
        rintro rfl
        exact hn
      · have hne : p ≠ (slot, run) := fun heq => hp (congrArg Prod.fst heq)
        simp [hne, hp]
  exact hsplit.map (·.2)

namespace Owned

theorem start : Owned [] {} where
  backs := ⟨.nil, fun _ => rfl⟩
  returned_lt _ hm := absurd hm List.not_mem_nil

/-- Who has what is listed in any order. -/
theorem of_perm {runs : List DeviceRun} (hb : after.machine.Backs runs)
    (hp : runs.Perm (after.holdings notes))
    (hlt : ∀ slot, .returned slot ∈ notes → slot < after.allocations.next) :
    Owned notes after := ⟨hb.of_perm hp, hlt⟩

theorem regionAdded (h : Owned notes platform) {region : Region} {devices : Devices}
    (hg : platform.machine.devices.Gain region.runs devices) :
    Owned notes { platform with
      machine.devices := devices, regions := platform.regions.push region } := by
  have hgains : platform.machine.Gains region.runs { platform.machine with devices } :=
    ⟨hg, .refl _⟩
  -- What changes is only where a run is listed, so it is enough to count.
  refine .of_perm (h.backs.gain hgains) ?_ h.returned_lt
  rw [List.perm_iff_count]
  intro run
  simp [holdings, owned, lent, Table.things_push]
  omega

theorem regionDropped (h : Owned notes platform) {region : Region}
    (hg : platform.regions.get? slot = some region) :
    Owned notes { platform with
      machine := platform.machine.release region
      regions := platform.regions.remove slot } := by
  obtain ⟨before, behind, hall, hremoved, -⟩ := Table.things_split hg
  refine ⟨Machine.Backs.release (h.backs.of_perm ?_), h.returned_lt⟩
  rw [List.perm_iff_count]
  intro run
  simp [holdings, owned, lent, hall, hremoved]
  omega

theorem regionStored (h : Owned notes platform) {region : Region} {storage : Storage}
    (hg : platform.regions.get? slot = some region) (hs : storage.runs = region.runs) :
    Owned notes { platform with
      regions := platform.regions.remove slot
      storages := platform.storages.push storage } := by
  obtain ⟨before, behind, hall, hremoved, -⟩ := Table.things_split hg
  refine .of_perm h.backs ?_ h.returned_lt
  rw [List.perm_iff_count]
  intro run
  simp [holdings, owned, lent, hall, hremoved, Table.things_push, hs]
  omega

theorem pairStored (h : Owned notes platform) {host device : Nat} {hostRegion deviceRegion : Region}
    {storage : Storage} (hh : platform.regions.get? host = some hostRegion)
    (hd : (platform.regions.remove host).get? device = some deviceRegion)
    (hs : storage.runs = hostRegion.runs ++ deviceRegion.runs) :
    Owned notes { platform with
      regions := (platform.regions.remove host).remove device
      storages := platform.storages.push storage } := by
  obtain ⟨before, behind, hall, hremoved, -⟩ := Table.things_split hh
  obtain ⟨before', behind', hall', hremoved', -⟩ := Table.things_split hd
  have hrest : ∀ run, ((before ++ behind).flatMap Region.runs).count run =
      ((before' ++ deviceRegion :: behind').flatMap Region.runs).count run := by
    intro run
    rw [← hremoved, hall']
  refine .of_perm h.backs ?_ h.returned_lt
  rw [List.perm_iff_count]
  intro run
  have hrun := hrest run
  simp [holdings, owned, lent, hall, hremoved', Table.things_push, hs] at hrun ⊢
  omega

theorem storageAdded (h : Owned notes platform) {storage : Storage} {machine : Machine}
    (hg : platform.machine.Gains storage.runs machine) :
    Owned notes { platform with machine, storages := platform.storages.push storage } := by
  refine .of_perm (h.backs.gain hg) ?_ h.returned_lt
  rw [List.perm_iff_count]
  intro run
  simp [holdings, owned, lent, Table.things_push]
  omega

theorem storageDropped (h : Owned notes platform) {storage : Storage}
    (hg : platform.storages.get? slot = some storage) :
    Owned notes { platform with
      machine := storage.release platform.machine
      storages := platform.storages.remove slot } := by
  obtain ⟨before, behind, hall, hremoved, -⟩ := Table.things_split hg
  refine ⟨Machine.Backs.releaseStorage (h.backs.of_perm ?_), h.returned_lt⟩
  rw [List.perm_iff_count]
  intro run
  simp [holdings, owned, lent, hall, hremoved]
  omega

theorem taken (h : Owned notes platform) {run : DeviceRun} {devices : Devices}
    (hg : platform.machine.devices.Gain [run] devices) :
    Owned notes { platform with
      machine.devices := devices, allocations := platform.allocations.push run } := by
  have hnew : .returned platform.allocations.next ∉ notes := fun hm =>
    absurd (h.returned_lt _ hm) (Nat.lt_irrefl _)
  have hgains : platform.machine.Gains [run] { platform.machine with devices } := ⟨hg, .refl _⟩
  refine .of_perm (h.backs.gain hgains) ?_ fun slot hm => ?_
  · have hlent : lent notes { platform with
        machine.devices := devices, allocations := platform.allocations.push run } =
          platform.lent notes ++ [run] :=
      lent_push hnew run
    rw [List.perm_iff_count]
    intro other
    simp only [holdings, owned, hlent, List.count_append]
    omega
  · rw [Table.next_push]
    exact Nat.lt_succ_of_lt (h.returned_lt slot hm)

theorem returned (h : Owned notes platform) {run : DeviceRun}
    (hg : platform.allocations.get? slot = some run) (hn : .returned slot ∉ notes) :
    Owned (notes ++ [.returned slot])
      { platform with machine := platform.machine.free run.device run.address } := by
  have hperm : (platform.holdings notes).Perm
      (run :: platform.holdings (notes ++ [.returned slot])) :=
    ((lent_returned hg hn).append_left platform.owned).trans List.perm_middle
  refine ⟨(h.backs.of_perm hperm).free, fun other hm => ?_⟩
  rcases List.mem_append.mp hm with hm | hm
  · exact h.returned_lt other hm
  · cases List.mem_singleton.mp hm
    exact Table.lt_next hg

theorem unnoted (h : Owned notes platform) : Owned (notes ++ []) platform := by
  rwa [List.append_nil]

/-- Only of what was given back is there less. -/
theorem noted (h : Owned notes platform) {note : Note} (hn : ∀ slot, note ≠ .returned slot) :
    Owned (notes ++ [note]) platform := by
  have hsame : ∀ slot, .returned slot ∈ notes ++ [note] ↔ .returned slot ∈ notes := by
    intro slot
    simp [(hn slot).symm]
  refine ⟨?_, fun slot hm => h.returned_lt slot ((hsame slot).mp hm)⟩
  simpa only [holdings, lent, hsame] using h.backs

theorem allocated (h : Owned notes platform) {buffer : Buffer} {machine : Machine}
    (hg : platform.machine.Gains buffer.storage.runs machine) :
    Owned notes { platform with
      machine := { machine with journal := machine.journal.countAllocated }
      buffers := platform.buffers.push { buffer, held := true }
      nextBuffer := platform.nextBuffer + 1 } := by
  have hcounted : Machine.Backs { machine with journal := machine.journal.countAllocated } _ :=
    ⟨(h.backs.gain hg).devices, (h.backs.gain hg).strays⟩
  refine .of_perm hcounted ?_ h.returned_lt
  rw [List.perm_iff_count]
  intro run
  simp [holdings, owned, lent, Table.things_push]
  omega

/-- The storage of a live buffer is the same as before. -/
theorem replaced (h : Owned notes platform) {live kept : LiveBuffer} {readers : Table ReaderHandle}
    {machine : Machine} (hg : platform.buffers.get? slot = some live)
    (hs : kept.buffer.storage = live.buffer.storage)
    (hd : machine.devices = platform.machine.devices)
    (hq : platform.machine.journal.Quiet machine.journal) :
    Owned notes { platform with machine, buffers := platform.buffers.set slot kept, readers } := by
  obtain ⟨before, behind, hall, -, hset⟩ := Table.things_split hg
  refine .of_perm (h.backs.of_quiet hd hq) ?_ h.returned_lt
  rw [List.perm_iff_count]
  intro run
  simp [holdings, owned, lent, hall, hset, hs]

theorem released (h : Owned notes platform) {live : LiveBuffer}
    (hg : platform.buffers.get? slot = some live) :
    Owned notes (platform.released slot live) := by
  obtain ⟨before, behind, hall, hremoved, -⟩ := Table.things_split hg
  have hperm : (platform.holdings notes).Perm
      (live.buffer.storage.runs ++ (platform.released slot live).holdings notes) := by
    rw [List.perm_iff_count]
    intro run
    simp [Platform.released, holdings, owned, lent, hall, hremoved]
    omega
  have hbacks := h.backs.of_perm hperm
  refine ⟨Machine.Backs.releaseStorage ⟨hbacks.devices, fun device => ?_⟩, h.returned_lt⟩
  exact (Journal.count_log _ _).trans (hbacks.strays device)

theorem swept (h : Owned notes platform) (slot : Nat) : Owned notes (platform.swept slot) := by
  unfold Platform.swept
  split
  · exact h
  · split
    · exact h
    · exact h.released ‹_›

theorem next (h : Owned notes platform) (he : Effect notes platform more after) :
    Owned (notes ++ more) after := by
  cases he with
  | deviceAdded hd => exact unnoted ⟨⟨h.backs.devices.add hd, h.backs.strays⟩, h.returned_lt⟩
  | faultSet number faulty =>
    exact unnoted ⟨⟨h.backs.devices.setFaulty number faulty, h.backs.strays⟩, h.returned_lt⟩
  | taken hg => exact (h.taken hg).unnoted
  | returned hg hn => exact h.returned hg hn
  | regionAdded hg => exact (h.regionAdded hg).unnoted
  | regionDropped hg => exact (h.regionDropped hg).unnoted
  | regionStored hg hs => exact (h.regionStored hg hs).unnoted
  | pairStored hh hd hs => exact (h.pairStored hh hd hs).unnoted
  | storageAdded hg => exact (h.storageAdded hg).unnoted
  | storageDropped hg => exact (h.storageDropped hg).unnoted
  | allocated hg => exact (h.allocated hg).noted nofun
  | attached hg hj ht =>
    exact (h.replaced hg (by rw [ht.buffer_eq]) ht.devices_eq ht.journal).noted nofun
  | @handleDropped slot live hg =>
    have hkept : Owned notes
        { platform with buffers := platform.buffers.set slot { live with held := false } } :=
      h.replaced hg rfl rfl (.refl _)
    exact (hkept.swept slot).noted nofun
  | readerDropped hr hg ht =>
    exact ((h.replaced hg (by rw [ht.buffer_eq]) ht.devices_eq ht.journal).swept _).noted nofun

end Owned

theorem Trail.owned (trail : Trail notes platform) : Owned notes platform := by
  induction trail with
  | start => exact .start
  | next _ he ih => exact ih.next he

structure Ownership (notes : List Note) (platform : Platform) : Prop where
  count_eq : ∀ number, (platform.machine.devices.get number).allocations.length =
    (platform.holdings notes).countP (·.device == number)
  /-- Each allocation is held once, and each run that is held is allocated. -/
  perm : ∀ number, ((platform.machine.devices.get number).allocations.map (·.address)).Perm
    (((platform.holdings notes).filter (·.device == number)).map (·.address))
  nodup : ∀ number, ((platform.machine.devices.get number).allocations.map (·.address)).Nodup
  /-- Nothing was freed that was not allocated, so nothing was freed twice. -/
  strays : ∀ device, platform.machine.journal.count (.unknownAddressFreed device) = 0
  /-- Once all is dropped and given back, nothing is allocated. -/
  clear : platform.regions.things = [] → platform.storages.things = [] →
    (∀ slot, ¬ Referred notes slot) →
    (∀ slot run, platform.allocations.get? slot = some run → .returned slot ∈ notes) →
    ∀ number, (platform.machine.devices.get number).allocations = []

theorem holdings_eq_nil (hr : platform.regions.things = []) (hs : platform.storages.things = [])
    (hb : platform.buffers.things = [])
    (ha : ∀ slot run, platform.allocations.get? slot = some run → .returned slot ∈ notes) :
    platform.holdings notes = [] := by
  have hlent : platform.lent notes = [] := by
    rw [lent, List.map_eq_nil_iff, List.filter_eq_nil_iff]
    intro p hp
    simpa using ha p.1 p.2 (Table.mem_toList.mp hp)
  simp [holdings, owned, hr, hs, hb, hlent]

theorem Tended.things_eq_nil (h : Tended notes platform) (hn : ∀ slot, ¬ Referred notes slot) :
    platform.buffers.things = [] := by
  refine List.eq_nil_iff_forall_not_mem.mpr fun live hm => ?_
  obtain ⟨slot, hg⟩ := Table.mem_things_iff.mp hm
  exact hn slot (h.referred_iff.mp (Option.isSome_iff_exists.mpr ⟨live, hg⟩))

end Platform

open Platform in
/-- Whatever is allocated, stored and dropped, in whatever order, and whatever of it fails: the
allocations of each device are the runs that regions, storages, buffers and direct allocations
hold. -/
theorem device_memory_has_one_owner {notes : List Note} {platform : Platform}
    (course : Course notes platform) :
    Ownership notes platform := by
  have htended := course.trail.tended
  have howned := course.trail.owned
  have hperm := howned.backs.devices.perm
  constructor
  case count_eq =>
    intro number
    have hlength := (hperm number).length_eq
    rwa [Devices.allocated, Devices.addresses, List.length_map, List.length_map,
      ← List.countP_eq_length_filter]
      at hlength
  case perm => exact hperm
  case nodup => exact howned.backs.devices.nodup
  case strays => exact howned.backs.strays
  case clear =>
    intro hr hs hn ha number
    have hnone := hperm number
    rw [holdings_eq_nil hr hs (htended.things_eq_nil hn) ha] at hnone
    exact List.map_eq_nil_iff.mp hnone.eq_nil

open Platform in
/-- One region goes into a storage, two go with a storage that cannot be made, a buffer spans both
sides, and its reader is left when the rest is gone. -/
theorem device_memory_has_one_owner_reader :
    let request : Request := { items := 4, itemSize := 1, owner := { context := .hostToDevice } }
    let deeds : List Deed :=
      [.addDevice { name := "gpu" }, .allocateDeviceRegion 0 8, .allocateDeviceRegion 0 16,
      .allocateHostRegion .heap 8, .allocateOn 0 4, .storageOfRegion .deviceToDevice 0,
      .storageOfPair .hostToDevice 2 1, .allocate (.device 0) request, .attach 0 1 0, .dropHandle 0,
      .dropStorage 0, .freeAllocation 0]
    let played := deeds.foldl Deed.step ([], {})
    (Course played.1 played.2 ∧ (played.2.machine.devices.get 0).allocations.length = 1) ∧
      Ownership played.1 played.2 := by
  intro request deeds played
  have hproper : Deed.AllProper ([], {}) deeds := by decide +kernel
  have course : Course played.1 played.2 := Course.start.play hproper
  exact ⟨⟨course, by decide +kernel⟩, device_memory_has_one_owner course⟩

end StreamBuffer
