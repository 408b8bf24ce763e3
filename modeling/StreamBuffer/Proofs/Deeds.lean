import StreamBuffer.Platform.Lifetime
import StreamBuffer.Platform.Memory
import StreamBuffer.Proofs.Platforms
import StreamBuffer.Proofs.Quiet
import StreamBuffer.Proofs.Tables

/-!
# Deeds on a platform

Who uses a platform allocates memory and buffers, makes storages of regions, attaches readers, and
drops all of this again. Of some of it a note is kept, from which it is seen later what is still
held.

Each deed comes to a few effects, and `Effect` lists all that there are, so that what is kept by
every effect is kept by every course of deeds.
-/

namespace StreamBuffer.Platform

/-! ## Deeds -/

inductive Deed where
  | addDevice (device : Device)
  | setFaulty (number : Nat) (faulty : Bool)
  | allocateOn (number bytes : Nat)
  | freeAllocation (slot : Nat)
  | allocateHostRegion (kind : Segment.Kind) (bytes : Nat)
  | allocateDeviceRegion (number bytes : Nat)
  | dropRegion (slot : Nat)
  | storageOfRegion (context : Context) (slot : Nat)
  | storageOfPair (context : Context) (host device : Nat)
  | allocateStorage (backend : Backend) (context : Context) (bytes : Nat)
  | dropStorage (slot : Nat)
  | allocate (backend : Backend) (request : Request)
  | attach (slot history sampleDelay : Nat)
  | dropHandle (slot : Nat)
  | dropReader (slot : Nat)

inductive Note where
  /-- A buffer got a number and an identity. -/
  | allocated (slot id : Nat)
  /-- A reader of a buffer got a number, and an identity there. -/
  | attached (reader slot id : Nat)
  | handleDropped (slot : Nat)
  | readerDropped (reader : Nat)
  /-- A direct allocation was given back. -/
  | returned (slot : Nat)
deriving DecidableEq

namespace Deed

/-- The devices that are named are there, a new device has given nothing away, and what was
allocated directly is given back once. -/
def Proper (notes : List Note) (platform : Platform) : Deed → Prop
  | addDevice device => device.allocations = []
  | allocateOn number _ | allocateDeviceRegion number _ => number < platform.machine.devices.length
  | allocateStorage backend .. | allocate backend _ => backend.IsThere platform.machine.devices
  | freeAllocation slot => .returned slot ∉ notes
  | _ => True

instance (notes : List Note) (platform : Platform) :
    ∀ deed : Deed, Decidable (deed.Proper notes platform)
  | addDevice device => inferInstanceAs (Decidable (device.allocations = []))
  | allocateOn number _ | allocateDeviceRegion number _ =>
    inferInstanceAs (Decidable (number < platform.machine.devices.length))
  | allocateStorage backend .. | allocate backend _ =>
    inferInstanceAs (Decidable (backend.IsThere platform.machine.devices))
  | freeAllocation slot => inferInstanceAs (Decidable (.returned slot ∉ notes))
  | setFaulty .. | allocateHostRegion .. | dropRegion _ | storageOfRegion .. | storageOfPair .. |
  dropStorage _
  | attach .. | dropHandle _ | dropReader _ => inferInstanceAs (Decidable True)

def after (platform : Platform) : Deed → Platform
  | addDevice device => (Platform.addDevice device).after platform
  | setFaulty number faulty => (Platform.setFaulty number faulty).after platform
  | allocateOn number bytes => (Platform.allocateOn number bytes).after platform
  | freeAllocation slot => (Platform.freeAllocation slot).after platform
  | allocateHostRegion kind bytes => (Platform.allocateHostRegion kind bytes).after platform
  | allocateDeviceRegion number bytes => (Platform.allocateDeviceRegion number bytes).after platform
  | dropRegion slot => (Platform.dropRegion slot).after platform
  | storageOfRegion context slot => (Platform.storageOfRegion context slot).after platform
  | storageOfPair context host device => (Platform.storageOfPair context host device).after platform
  | allocateStorage backend context bytes =>
    (Platform.allocateStorage backend context bytes).after platform
  | dropStorage slot => (Platform.dropStorage slot).after platform
  | allocate backend request => (Platform.allocate backend request).after platform
  | attach slot history sampleDelay => (Platform.attach slot history sampleDelay).after platform
  | dropHandle slot => (Platform.dropHandle slot).after platform
  | dropReader slot => (Platform.dropReader slot).after platform

def notes (platform : Platform) : Deed → List Note
  | freeAllocation slot => if (platform.allocations.get? slot).isSome then [.returned slot] else []
  | allocate backend request =>
    match Platform.allocate backend request platform with
    | .ok slot after =>
      (after.buffers.get? slot).toList.map fun live => .allocated slot live.buffer.id
    | .error .. => []
  | attach slot history sampleDelay =>
    match Platform.attach slot history sampleDelay platform with
    | .ok (some number) after =>
      (after.readers.get? number).toList.map fun handle => .attached number handle.buffer handle.id
    | _ => []
  | dropHandle slot => if (platform.held? slot).isSome then [.handleDropped slot] else []
  | dropReader slot => if (platform.readers.get? slot).isSome then [.readerDropped slot] else []
  | _ => []

end Deed

inductive Course : List Note → Platform → Prop where
  | start : Course [] {}
  | next {notes : List Note} {platform : Platform} (deed : Deed) (course : Course notes platform)
      (h : deed.Proper notes platform) : Course (notes ++ deed.notes platform) (deed.after platform)

def Deed.step (played : List Note × Platform) (deed : Deed) : List Note × Platform :=
  (played.1 ++ deed.notes played.2, deed.after played.2)

def Deed.AllProper (played : List Note × Platform) : List Deed → Prop
  | [] => True
  | deed :: deeds => deed.Proper played.1 played.2 ∧ AllProper (Deed.step played deed) deeds

instance Deed.decidableAllProper (played : List Note × Platform) :
    ∀ deeds, Decidable (AllProper played deeds)
  | [] => inferInstanceAs (Decidable True)
  | deed :: deeds =>
    haveI := decidableAllProper (step played deed) deeds
    inferInstanceAs (Decidable (deed.Proper played.1 played.2 ∧ AllProper (step played deed) deeds))

theorem Course.play {played : List Note × Platform} (course : Course played.1 played.2)
    {deeds : List Deed} (h : Deed.AllProper played deeds) :
    Course (deeds.foldl Deed.step played).1 (deeds.foldl Deed.step played).2 := by
  induction deeds generalizing played with
  | nil => exact course
  | cons deed deeds ih => exact ih (course.next deed h.1) h.2

/-! ## Effects -/

def released (platform : Platform) (slot : Nat) (live : LiveBuffer) : Platform :=
  let journal := platform.machine.journal
  let counted := { journal with live := journal.live - 1, gauge := some (journal.live - 1) }
  let machine := { platform.machine with journal := counted }.log live.buffer.owner.name .released
  { platform with
    machine := live.buffer.storage.release machine
    buffers := platform.buffers.remove slot }

def swept (platform : Platform) (slot : Nat) : Platform :=
  match platform.buffers.get? slot with
  | none => platform
  | some live => if platform.isReferred slot live then platform else platform.released slot live

theorem swept_of_referred {platform : Platform} {slot : Nat} {live : LiveBuffer}
    (hg : platform.buffers.get? slot = some live) (h : platform.isReferred slot live = true) :
    platform.swept slot = platform := by
  simp [swept, hg, h]

theorem swept_of_unreferred {platform : Platform} {slot : Nat} {live : LiveBuffer}
    (hg : platform.buffers.get? slot = some live) (h : platform.isReferred slot live = false) :
    platform.swept slot = platform.released slot live := by
  simp [swept, hg, h]

/-- All that can be done to a platform at once. A deed comes to one such step, or to a few. -/
inductive Effect (notes : List Note) (platform : Platform) : List Note → Platform → Prop where
  | deviceAdded {device : Device} (h : device.allocations = []) : Effect notes platform []
      { platform with machine.devices := platform.machine.devices ++ [device] }
  | faultSet (number : Nat) (faulty : Bool) : Effect notes platform [] { platform with
      machine.devices :=
        platform.machine.devices.set number { platform.machine.devices.get number with faulty } }
  | taken {run : DeviceRun} {devices : Devices} (h : platform.machine.devices.Gain [run] devices) :
      Effect notes platform [] { platform with
        machine.devices := devices
        allocations := platform.allocations.push run }
  | returned {slot : Nat} {run : DeviceRun} (hg : platform.allocations.get? slot = some run)
      (hn : .returned slot ∉ notes) : Effect notes platform [.returned slot]
        { platform with machine := platform.machine.free run.device run.address }
  | regionAdded {region : Region} {devices : Devices}
      (h : platform.machine.devices.Gain region.runs devices) :
      Effect notes platform [] { platform with
        machine.devices := devices
        regions := platform.regions.push region }
  | regionDropped {slot : Nat} {region : Region} (hg : platform.regions.get? slot = some region) :
      Effect notes platform [] { platform with
        machine := platform.machine.release region
        regions := platform.regions.remove slot }
  | regionStored {slot : Nat} {region : Region} {storage : Storage}
      (hg : platform.regions.get? slot = some region) (hs : storage.runs = region.runs) :
      Effect notes platform [] { platform with
        regions := platform.regions.remove slot
        storages := platform.storages.push storage }
  | pairStored {host device : Nat} {hostRegion deviceRegion : Region} {storage : Storage}
      (hh : platform.regions.get? host = some hostRegion)
      (hd : (platform.regions.remove host).get? device = some deviceRegion)
      (hs : storage.runs = hostRegion.runs ++ deviceRegion.runs) :
      Effect notes platform [] { platform with
        regions := (platform.regions.remove host).remove device
        storages := platform.storages.push storage }
  | storageAdded {storage : Storage} {machine : Machine}
      (h : platform.machine.Gains storage.runs machine) :
      Effect notes platform [] { platform with machine, storages := platform.storages.push storage }
  | storageDropped {slot : Nat} {storage : Storage}
      (hg : platform.storages.get? slot = some storage) :
      Effect notes platform [] { platform with
        machine := storage.release platform.machine
        storages := platform.storages.remove slot }
  | allocated {buffer : Buffer} {machine : Machine}
      (h : platform.machine.Gains buffer.storage.runs machine)
      (hid : buffer.id = platform.nextBuffer) (hc : buffer.cursors = {}) :
      Effect notes platform [.allocated platform.buffers.next buffer.id] { platform with
        machine := { machine with journal := machine.journal.countAllocated }
        buffers := platform.buffers.push { buffer, held := true }
        nextBuffer := platform.nextBuffer + 1 }
  | attached {slot : Nat} {live : LiveBuffer} {cursors : Cursors} {after : Site}
      (hg : platform.buffers.get? slot = some live) (hj : live.buffer.cursors.Joined cursors)
      (ht : Site.Turned ⟨platform.machine, live.buffer⟩ cursors after) :
      Effect notes platform [.attached platform.readers.next slot live.buffer.cursors.nextReader]
        { platform with
          machine := after.machine
          buffers := platform.buffers.set slot { live with buffer := after.buffer }
          readers := platform.readers.push ⟨slot, live.buffer.cursors.nextReader⟩ }
  | handleDropped {slot : Nat} {live : LiveBuffer} (hg : platform.buffers.get? slot = some live)
      (hheld : live.held = true) : Effect notes platform [.handleDropped slot]
        (swept { platform with buffers := platform.buffers.set slot { live with held := false } }
          slot)
  | readerDropped {slot : Nat} {handle : ReaderHandle} {live : LiveBuffer} {after : Site}
      (hr : platform.readers.get? slot = some handle)
      (hg : platform.buffers.get? handle.buffer = some live)
      (ht : Site.Turned ⟨platform.machine, live.buffer⟩
        (live.buffer.cursors.without handle.id) after) :
      Effect notes platform [.readerDropped slot] (swept
        { platform with
          machine := after.machine
          buffers := platform.buffers.set handle.buffer { live with buffer := after.buffer }
          readers := platform.readers.remove slot }
        handle.buffer)

inductive Trail : List Note → Platform → Prop where
  | start : Trail [] {}
  | next {notes more : List Note} {platform after : Platform} (trail : Trail notes platform)
      (h : Effect notes platform more after) : Trail (notes ++ more) after

variable {notes : List Note} {platform : Platform}

theorem Trail.unnoted (trail : Trail notes platform) : Trail (notes ++ []) platform := by
  rwa [List.append_nil]

theorem Trail.quiet {after : Platform} (trail : Trail notes platform)
    (h : Effect notes platform [] after) : Trail notes after := by
  simpa using trail.next h

/-! ### Deeds on memory -/

/-- A region that is not there leaves nothing behind when it is taken. -/
theorem takeRegion_absent {slot : Nat} (hg : platform.regions.get? slot = none) :
    takeRegion slot platform = .ok none platform := by
  have hregions : platform.regions.remove slot = platform.regions := Table.remove_absent hg
  change EStateM.Result.ok (platform.regions.get? slot)
    { platform with regions := platform.regions.remove slot } = _
  rw [hg, hregions]

theorem takeRegion_present {slot : Nat} {region : Region}
    (hg : platform.regions.get? slot = some region) :
    takeRegion slot platform =
      .ok (some region) { platform with regions := platform.regions.remove slot } := by
  change EStateM.Result.ok (platform.regions.get? slot)
    { platform with regions := platform.regions.remove slot } = _
  rw [hg]

theorem takeRegion_leaves {α : Type} {slot : Nat} {holds : Platform → Prop}
    {next : Option Region → Action Platform α} (habsent : (next none).Leaves platform holds)
    (hpresent : ∀ region, platform.regions.get? slot = some region →
      (next (some region)).Leaves { platform with regions := platform.regions.remove slot } holds) :
    (takeRegion slot >>= next).Leaves platform holds := by
  unfold Action.Leaves Action.Ensures
  cases hg : platform.regions.get? slot with
  | none =>
    rw [Action.bind_of_ok _ (takeRegion_absent hg)]
    exact habsent
  | some region =>
    rw [Action.bind_of_ok _ (takeRegion_present hg)]
    exact hpresent region hg

namespace Trail

theorem allocateOn (trail : Trail notes platform) {number : Nat} (bytes : Nat)
    (hn : number < platform.machine.devices.length) :
    (Platform.allocateOn number bytes).Leaves platform (Trail notes) := by
  unfold Platform.allocateOn
  exact onDevices_leaves trail fun run devices h => trail.quiet (.taken (.run hn h))

theorem allocateHostRegion (trail : Trail notes platform) (kind : Segment.Kind) (bytes : Nat) :
    (Platform.allocateHostRegion kind bytes).Leaves platform (Trail notes) := by
  unfold Platform.allocateHostRegion
  exact .get_bind (.attempt_bind trail fun segment _ => trail.quiet (.regionAdded .none))

theorem allocateDeviceRegion (trail : Trail notes platform) {number : Nat} (bytes : Nat)
    (hn : number < platform.machine.devices.length) :
    (Platform.allocateDeviceRegion number bytes).Leaves platform (Trail notes) := by
  unfold Platform.allocateDeviceRegion
  exact onDevices_leaves trail fun run devices h => trail.quiet (.regionAdded (.run hn h))

theorem dropRegion (trail : Trail notes platform) (slot : Nat) :
    (Platform.dropRegion slot).Leaves platform (Trail notes) := by
  unfold Platform.dropRegion
  exact takeRegion_leaves trail fun region hg => trail.quiet (.regionDropped hg)

theorem storageOfRegion (trail : Trail notes platform) (context : Context) (slot : Nat) :
    (Platform.storageOfRegion context slot).Leaves platform (Trail notes) := by
  unfold Platform.storageOfRegion
  refine takeRegion_leaves trail fun region hg => ?_
  dsimp only
  cases hs : Storage.ofRegion context region with
  | error stop => exact trail.quiet (.regionDropped hg)
  | ok storage =>
    exact trail.quiet (.regionStored hg (Storage.runs_ofRegion hs))

theorem storageOfPair (trail : Trail notes platform) (context : Context) (host device : Nat) :
    (Platform.storageOfPair context host device).Leaves platform (Trail notes) := by
  unfold Platform.storageOfPair
  refine takeRegion_leaves trail fun hostRegion hh => ?_
  have hdropped := trail.quiet (.regionDropped hh)
  refine takeRegion_leaves hdropped fun deviceRegion hd => ?_
  dsimp only
  cases hs : Storage.ofPair context hostRegion deviceRegion with
  | error stop => exact hdropped.quiet (.regionDropped hd)
  | ok storage => exact trail.quiet (.pairStored hh hd (Storage.runs_ofPair hs))

theorem allocateStorage (trail : Trail notes platform) {backend : Backend} (context : Context)
    (bytes : Nat) (hd : backend.IsThere platform.machine.devices) :
    (Platform.allocateStorage backend context bytes).Leaves platform (Trail notes) := by
  unfold Platform.allocateStorage
  refine onMachine_leaves (Backend.allocate_gains hd) ?_
    fun storage machine h => trail.quiet (.storageAdded h)
  rintro stop machine rfl
  exact trail

theorem dropStorage (trail : Trail notes platform) (slot : Nat) :
    (Platform.dropStorage slot).Leaves platform (Trail notes) := by
  unfold Platform.dropStorage
  exact onSlot_leaves trail fun storage hg => trail.quiet (.storageDropped hg)

theorem freeAllocation (trail : Trail notes platform) {slot : Nat} (hn : .returned slot ∉ notes) :
    Trail (notes ++ (Deed.freeAllocation slot).notes platform)
      ((Platform.freeAllocation slot).after platform) := by
  rw [Deed.notes]
  unfold Platform.freeAllocation
  cases hg : platform.allocations.get? slot with
  | none => simpa [Action.after_of_ok (onSlot_absent hg)] using trail
  | some run =>
    rw [Action.after_of_ok ((onSlot_eq hg).trans rfl)]
    exact trail.next (.returned hg hn)

end Trail

end StreamBuffer.Platform
