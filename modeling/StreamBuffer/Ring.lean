import StreamBuffer.Word

/-!
# Positions on a ring

A ring of `capacity` positions is walked forward only. `advance` moves a position on, `distance`
says how far one position lies ahead of another.
-/

namespace StreamBuffer.Ring

/-- The position `count` places after `position`. -/
def advance (capacity position count : Nat) : Checked Nat := do
  if capacity = 0 then throw .emptyRing
  let target ← Word.add position count
  return target % capacity

/-- The number of places from `behind` forward to `ahead`. -/
def distance (capacity ahead behind : Nat) : Checked Nat :=
  if ahead < capacity ∧ behind < capacity then
    .ok (if behind ≤ ahead then ahead - behind else capacity - behind + ahead)
  else .error .outsideRing

variable {capacity position count ahead behind : Nat}

theorem advance_eq_ok (hc : 0 < capacity) (h : position + count < Word.limit) :
    advance capacity position count = .ok ((position + count) % capacity) := by
  simp [advance, Nat.pos_iff_ne_zero.mp hc, Word.add_eq_ok h, bind, Except.bind, pure, Except.pure]

theorem distance_eq_ok (ha : ahead < capacity) (hb : behind < capacity) :
    distance capacity ahead behind =
      .ok (if behind ≤ ahead then ahead - behind else capacity - behind + ahead) :=
  if_pos ⟨ha, hb⟩

end StreamBuffer.Ring
