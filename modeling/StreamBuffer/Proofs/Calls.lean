import StreamBuffer.Buffer.Blocking
import StreamBuffer.Proofs.Groups
import StreamBuffer.Proofs.Storing

/-!
# Calls and runs

A run is any sequence of calls of the stages around a buffer. What the callers owe is said of one
call at the site at which it is made: they write no more than there is room for, take no more than
there is, and no counter outgrows a word. When readers may come is left open, as `Terms`.
-/

namespace StreamBuffer

inductive Call where
  | space
  /-- Asks for room, and moves the writer on by as many items as there is room for. -/
  | advance (items : Nat)
  /-- A whole production step, of as many items as there is room for. -/
  | produce (items multiple : Nat) (source : Nat → UInt8)
  /-- A production step for which no room was asked. -/
  | write (items : Nat) (source : Nat → UInt8)
  | attach (history delay : Nat)
  | raiseHistory (history delay : Nat)
  | detach (id : Nat)
  | read (id items : Nat)
  | supply (id : Nat)
  | declareDelay (id delay : Nat)
  | unblockInput (id required : Nat)
  | unblockInputAt (required available readIndex : Nat)
  | unblockOutput (multiple : Nat) (force : Bool)
  | isInputBlocked (id required : Nat)
  | isInputBlockedAt (required readIndex : Nat)
  | isOutputBlocked (multiple : Nat)
  | tag (tag : Tag)
  | untag (tag : Tag) (consumer : Nat)
  | prune (time : Nat)
  | tags (id start stop consumer : Nat)
  | setDone (done : Bool)

inductive Answer where
  | done
  | told (yes : Bool)
  | count (n : Nat)
  /-- The room there was, and the number of items by which the writer moved. -/
  | written (room items : Nat)
  | tags (tags : List Tag)

def Cursors.Fresh (cursors : Cursors) : Prop :=
  cursors.written = 0 ∧ ∀ reader ∈ cursors.readers, reader.itemsRead = 0

/-- All readers come before the first movement. -/
def Terms.early : Terms := ⟨fun cursors _ => cursors.Fresh, fun cursors _ => cursors.Fresh⟩

/-- Readers come whenever there is a place for them on the ring. -/
def Terms.admitted : Terms := ⟨Cursors.Admits, Cursors.Undisturbed⟩

namespace Call

def perform : Call → Action Site Answer
  | space => return .count (← Site.space)
  | advance items => do
    let room ← Site.space
    Site.advance (min items room)
    return .written room (min items room)
  | produce items multiple source => do
    let (room, written) ← Site.produce items multiple source
    return .written room written
  | write items source => do
    Site.write items source
    return .done
  | attach history delay => return .count (← Site.attach history delay)
  | raiseHistory history delay => do
    Site.raiseHistory history delay
    return .done
  | detach id => do
    Site.detach id
    return .done
  | read id items => do
    Site.read id items
    return .done
  | supply id => return .count (← Site.supply id)
  | declareDelay id delay => do
    Site.declareDelay id delay
    return .done
  | unblockInput id required => return .told (← Site.unblockInput id required)
  | unblockInputAt required available readIndex =>
    return .told (← Site.unblockInputAt required available readIndex)
  | unblockOutput multiple force => return .told (← Site.unblockOutput multiple force)
  | isInputBlocked id required => return .told (← Site.isInputBlocked id required)
  | isInputBlockedAt required readIndex => return .told (← Site.isInputBlockedAt required readIndex)
  | isOutputBlocked multiple => return .told (← Site.isOutputBlocked multiple)
  | tag new => do
    Site.tag new
    return .done
  | untag old consumer => return .told (← Site.untag old consumer)
  | prune time => return .count (← Site.prune time)
  | tags id start stop consumer => return .tags (← Site.tags id start stop consumer)
  | setDone done => do
    Site.setDone done
    return .done

def after (call : Call) (site : Site) : Site :=
  match call.perform site with
  | .ok _ after | .error _ after => after

/-- What a call that gave an answer adds to the stream of items of this size. -/
def brings (call : Call) (size : Nat) (answer : Answer) : Sent :=
  match call, answer with
  | produce _ _ source, .written _ items => some (produced size items source)
  | advance _, _ | write .., _ => none
  | _, _ => .nothing

def sent (call : Call) (site : Site) : Sent :=
  match call.perform site with
  | .ok answer _ => call.brings site.buffer.geometry.itemSize answer
  | .error .. => none

/-- **What callers owe.** -/
def Respects (terms : Terms) (site : Site) (call : Call) : Prop :=
  let cursors := site.buffer.cursors
  let capacity := site.buffer.geometry.capacity
  let brought (history delay : Nat) : Prop :=
    history ≤ capacity ∧ cursors.written + max cursors.maxLookBack (history - 1) < Word.limit ∧
      delay + capacity < Word.limit
  match call with
  | advance items => cursors.written + items + cursors.maxLookBack < Word.limit
  | produce items _ _ =>
    cursors.readers ≠ [] ∧ cursors.written + items + cursors.maxLookBack < Word.limit
  | write .. | unblockInputAt .. => False
  | attach history delay =>
    brought history delay ∧ cursors.nextReader + 1 < Word.limit ∧ terms.attach cursors (history - 1)
  | raiseHistory history delay => brought history delay ∧ terms.raise cursors (history - 1)
  | read id items => ∃ reader supply, cursors.reader? id = some reader ∧
    site.buffer.supply reader = .ok supply ∧ items ≤ supply
  | detach id | supply id | unblockInput id _ | isInputBlocked id _ =>
    ∃ reader, cursors.reader? id = some reader
  | declareDelay id delay =>
    (∃ reader, cursors.reader? id = some reader) ∧ delay + capacity < Word.limit
  | tags id _ _ _ => ∃ reader, cursors.reader? id = some reader ∧
    ∀ tag ∈ site.buffer.tags.tags, tag.offset + reader.sampleDelay < Word.limit
  | space | unblockOutput .. | isInputBlockedAt .. | isOutputBlocked _ | tag _ | untag .. | prune _
  | setDone _ => True

end Call

theorem Call.after_of {call : Call} {site : Site} {holds : Site → Prop}
    (h : call.perform.Leaves site holds) : holds (call.after site) := by
  unfold Call.after
  cases he : call.perform site with
  | ok answer after => exact h.of_ok he
  | error stop after => exact h.of_error he

inductive Run (allows : Site → Call → Prop) (start : Site) : Sent → Site → Prop where
  | refl : Run allows start .nothing start
  | tail {sent : Sent} {site : Site} (call : Call) (run : Run allows start sent site)
      (h : allows site call) : Run allows start (sent.andThen (call.sent site)) (call.after site)

end StreamBuffer
