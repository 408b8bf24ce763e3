import StreamBuffer.Proofs.Calls

/-!
# Production in pieces

A producer asks for room, stores, publishes and moves on in calls of their own, and other stages may
come in between; devices may break and be repaired at any time. An act is any of these. A play is
any sequence of acts. It carries along the room that was granted to the producer and is not used
yet.
-/

namespace StreamBuffer

inductive Act where
  | call (call : Call)
  /-- The producer stores bytes at the position of the writer. -/
  | store (data : Bytes)
  /-- The producer makes stored items readable. -/
  | post (items : Nat)
  /-- The producer moves the writer on. -/
  | move (items : Nat)
  /-- From now on all transfers of a device fail, or none does. -/
  | fault (device : Nat) (on : Bool)

def Devices.setFaulty (devices : Devices) (number : Nat) (faulty : Bool) : Devices :=
  devices.set number { devices.get number with faulty }

def Site.withDevices (site : Site) (devices : Devices) : Site :=
  { site with machine.devices := devices }

/-- The call is neither one of the producer nor one that brings a reader. -/
def Call.sparesRoom : Call → Bool
  | .detach _ | .read .. | .supply _ | .declareDelay .. | .unblockInput .. | .isInputBlocked ..
  | .isInputBlockedAt .. | .tag _ | .untag .. | .prune _ | .tags .. | .setDone _ => true
  | _ => false

namespace Act

def perform : Act → Action Site Answer
  | call c => c.perform
  | store data => do
    Site.store data
    return .done
  | post items => do
    Site.post items
    return .done
  | move items => do
    Site.advance items
    return .done
  | fault device on => do
    modify fun site => site.withDevices (site.machine.devices.setFaulty device on)
    return .done

def after (act : Act) (site : Site) : Site :=
  match act.perform site with
  | .ok _ after | .error _ after => after

def outcome (act : Act) (site : Site) : Except Stop Answer :=
  match act.perform site with
  | .ok answer _ => .ok answer
  | .error stop _ => .error stop

/-- The room that is left to the producer. Of an answer it is what lies before the end of the
region. -/
def grants (granted : Nat) (site : Site) : Act → Nat
  | call .space =>
    match Site.space site with
    | .ok room after => min room (after.buffer.geometry.capacity - after.buffer.cursors.writeIndex)
    | .error .. => 0
  | call c => if c.sparesRoom then granted else 0
  | store _ | post _ | fault .. => granted
  | move items => granted - items

def InRegion (site : Site) : Act → Prop
  | store data => site.buffer.writeOffset + data.size ≤ site.buffer.geometry.bytes
  | _ => True

/-- **What callers owe** when a production step is made in pieces: the producer keeps to the room
that was granted. Without readers the writer may come round. -/
def Respects (terms : Terms) (granted : Nat) (site : Site) : Act → Prop
  | call c => c.Respects terms site
  | store data => data.size ≤ granted * site.buffer.geometry.itemSize
  | post items => items ≤ granted
  | move items =>
    (items ≤ granted ∨ site.buffer.cursors.readers = [] ∧ items ≤ site.buffer.geometry.capacity) ∧
      site.buffer.cursors.written + items + site.buffer.cursors.maxLookBack < Word.limit
  | fault .. => True

end Act

theorem Act.after_of {act : Act} {site : Site} {holds : Site → Prop}
    (h : act.perform.Leaves site holds) : holds (act.after site) := by
  unfold Act.after
  cases he : act.perform site with
  | ok answer after => exact h.of_ok he
  | error stop after => exact h.of_error he

/-- The acts allowed at each site, one after another, and the room they leave to the producer. -/
inductive Play (allows : Nat → Site → Act → Prop) (start : Site) : Nat → Site → Prop where
  | refl : Play allows start 0 start
  | tail {granted : Nat} {site : Site} (act : Act) (play : Play allows start granted site)
      (h : allows granted site act) : Play allows start (act.grants granted site) (act.after site)

end StreamBuffer
