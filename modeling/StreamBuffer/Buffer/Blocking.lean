import StreamBuffer.Buffer.Consumption

/-!
# Blocked stages

A stage that cannot go on asks the buffer for help. A reader may find too few items in one run at
the end of the region, the producer too little room. Only flat storage has this trouble; in
storage that is mapped twice the answer is always no.
-/

namespace StreamBuffer.Site

def isFlat : Action Site Bool := return (← get).buffer.geometry.mapping == .single

/-- Whether a reader at this position that requires items in one run can be helped. -/
def isInputBlockedAt (required readIndex : Nat) : Action Site Bool := do
  let buffer := (← get).buffer
  return (← isFlat) && buffer.cursors.waitsAtEnd buffer.geometry.capacity required readIndex

def isInputBlocked (id required : Nat) : Action Site Bool := do
  unless ← isFlat do return false
  let reader ← reader id
  isInputBlockedAt required reader.readIndex

/-- Brings the unread tail to the front for a reader at this position with this many items in one
run. Tells whether it was done. -/
def unblockInputAt (required available readIndex : Nat) : Action Site Bool := do
  unless ← isFlat do return false
  let cursors := (← get).buffer.cursors
  follow (← cursors.planInput required available readIndex)

def unblockInput (id required : Nat) : Action Site Bool := do
  unless ← isFlat do return false
  let reader ← reader id
  let available ← supply id
  unblockInputAt required available reader.readIndex

/-- Whether there is less room than a multiple. -/
def isOutputBlocked (multiple : Nat) : Action Site Bool := do
  unless ← isFlat do return false
  return (← space) < max multiple 1

/-- Moves unread data to the front to make room. Tells whether it was done. -/
def unblockOutput (multiple : Nat) (force : Bool) : Action Site Bool := do
  unless ← isFlat do return false
  let buffer := (← get).buffer
  follow (← buffer.cursors.planOutput buffer.geometry multiple force)

end StreamBuffer.Site
