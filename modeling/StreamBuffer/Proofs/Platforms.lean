import StreamBuffer.Platform.Basic
import StreamBuffer.Proofs.Checked

/-!
# Operations by number

An operation on the thing at a number does nothing if there is no such thing. An operation on a live
buffer works on the buffer and the machine, and leaves the rest of the platform as it is.
-/

namespace StreamBuffer.Platform

variable {platform : Platform} {slot : Nat} {α β : Type}

theorem onSlot_eq {table : Platform → Table β} {action : β → Action Platform α} {thing : β}
    (h : (table platform).get? slot = some thing) :
    onSlot table slot action platform = (some <$> action thing) platform := by
  unfold onSlot
  rw [Action.get_run, h]

theorem onSlot_absent {table : Platform → Table β} {action : β → Action Platform α}
    (h : (table platform).get? slot = none) :
    onSlot table slot action platform = .ok none platform := by
  unfold onSlot
  rw [Action.get_run, h]
  rfl

theorem onDevices_of_ok {attempt : Devices → Attempt (α × Devices)} {a : α} {devices : Devices}
    (h : attempt platform.machine.devices = .ok (a, devices)) :
    onDevices attempt platform = .ok a { platform with machine.devices := devices } := by
  change onDevices (fun _ => attempt platform.machine.devices) platform = _
  rw [h]
  rfl

theorem onDevices_of_error {attempt : Devices → Attempt (α × Devices)} {stop : Stop}
    (h : attempt platform.machine.devices = .error stop) :
    onDevices attempt platform = .error stop platform := by
  change onDevices (fun _ => attempt platform.machine.devices) platform = _
  rw [h]
  rfl

theorem onMachine_of_ok {action : Action Machine α} {a : α} {machine : Machine}
    (h : action platform.machine = .ok a machine) :
    onMachine action platform = .ok a { platform with machine } := by
  unfold onMachine
  rw [h]

theorem onMachine_of_error {action : Action Machine α} {stop : Stop} {machine : Machine}
    (h : action platform.machine = .error stop machine) :
    onMachine action platform = .error stop { platform with machine } := by
  unfold onMachine
  rw [h]

theorem onBuffer_of_ok {live : LiveBuffer} {action : Action Site α} {a : α} {site : Site}
    (hg : platform.buffers.get? slot = some live)
    (h : action ⟨platform.machine, live.buffer⟩ = .ok a site) :
    onBuffer slot action platform = .ok (some a) { platform with
      machine := site.machine
      buffers := platform.buffers.set slot { live with buffer := site.buffer } } := by
  unfold onBuffer
  rw [hg]
  dsimp only
  rw [h]

theorem onBuffer_of_error {live : LiveBuffer} {action : Action Site α} {stop : Stop}
    {site : Site} (hg : platform.buffers.get? slot = some live)
    (h : action ⟨platform.machine, live.buffer⟩ = .error stop site) :
    onBuffer slot action platform = .error stop { platform with
      machine := site.machine
      buffers := platform.buffers.set slot { live with buffer := site.buffer } } := by
  unfold onBuffer
  rw [hg]
  dsimp only
  rw [h]

theorem onBuffer_absent {action : Action Site α} (hg : platform.buffers.get? slot = none) :
    onBuffer slot action platform = .ok none platform := by
  unfold onBuffer
  rw [hg]

/-! ## What holds after an operation -/

section Leaves

variable {holds : Platform → Prop}

theorem onSlot_leaves {table : Platform → Table β} {action : β → Action Platform α}
    (h : holds platform)
    (hn : ∀ thing, (table platform).get? slot = some thing → (action thing).Leaves platform holds) :
    (onSlot table slot action).Leaves platform holds := by
  unfold onSlot
  refine .get_bind ?_
  cases hg : (table platform).get? slot with
  | none => exact .pure h
  | some thing => exact .map (hn thing hg)

theorem onDevices_leaves {attempt : Devices → Attempt (α × Devices)} {next : α → Action Platform β}
    (h : holds platform) (hn : ∀ a devices, attempt platform.machine.devices = .ok (a, devices) →
      (next a).Leaves { platform with machine.devices := devices } holds) :
    (onDevices attempt >>= next).Leaves platform holds := by
  cases ha : attempt platform.machine.devices with
  | error stop =>
    unfold Action.Leaves Action.Ensures
    rw [Action.bind_of_error _ (onDevices_of_error ha)]
    exact h
  | ok result =>
    unfold Action.Leaves Action.Ensures
    rw [Action.bind_of_ok _ (onDevices_of_ok ha)]
    exact hn _ _ ha

theorem onMachine_leaves {action : Action Machine α} {next : α → Action Platform β}
    {done : α → Machine → Prop} {stopped : Stop → Machine → Prop}
    (h : action.Ensures platform.machine done stopped)
    (hs : ∀ stop machine, stopped stop machine → holds { platform with machine })
    (hn : ∀ a machine, done a machine → (next a).Leaves { platform with machine } holds) :
    (onMachine action >>= next).Leaves platform holds := by
  have hrun : (onMachine action).Ensures platform
      (fun a after => ∃ machine, done a machine ∧ after = { platform with machine })
        fun _ after => holds after := by
    unfold Action.Ensures onMachine at *
    cases ha : action platform.machine with
    | ok a machine =>
      rw [ha] at h
      exact ⟨machine, h, rfl⟩
    | error stop machine =>
      rw [ha] at h
      exact hs stop machine h
  refine Action.Ensures.bind hrun ?_
  rintro a _ ⟨machine, hd, rfl⟩
  exact hn a machine hd

end Leaves

def reported (platform : Platform) (event : Event) : Platform :=
  { platform with machine := platform.machine.log none event }

end StreamBuffer.Platform
