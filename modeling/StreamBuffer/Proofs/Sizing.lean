import StreamBuffer.Proofs.Checked
import StreamBuffer.Sizing

/-!
# Exact measures

The capacity of a buffer is the least number of items that covers the items asked for and is a
multiple of every granularity. On the way to the capacity nothing is larger than the capacity
itself, so the measures are found whenever the size in bytes is a word.
-/

namespace StreamBuffer

namespace Sizing

variable {n m granularity : Nat}

theorem le_ceilDiv_mul (hg : 0 < granularity) : n ≤ ceilDiv n granularity * granularity := by
  have hlt := Nat.lt_mul_div_succ (n + granularity - 1) hg
  unfold ceilDiv
  rw [Nat.mul_succ, Nat.mul_comm] at hlt
  omega

theorem ceilDiv_mul_le (hg : 0 < granularity) (hn : n ≤ m) (hd : granularity ∣ m) :
    ceilDiv n granularity * granularity ≤ m := by
  obtain ⟨k, rfl⟩ := hd
  have hk : ceilDiv n granularity ≤ k := by
    refine Nat.le_of_lt_succ ((Nat.div_lt_iff_lt_mul hg).mpr ?_)
    rw [Nat.succ_mul, Nat.mul_comm k]
    omega
  rw [Nat.mul_comm granularity]
  exact Nat.mul_le_mul_right granularity hk

end Sizing

namespace Request

variable {request : Request} {geometry : Geometry} {n : Nat}

/-! ## What was asked for -/

/-- The granularity in which the producer writes, however large. -/
def writeStep (request : Request) : Nat :=
  Nat.lcm (max request.producer.relativeRate 1) (max request.producer.outputMultiple 1)

def granularity (request : Request) : Nat := Nat.lcm request.writeStep (max request.downstream 1)

/-- The measures that were asked for, whether or not they fit words. -/
def measures (request : Request) : Geometry where
  capacity := Sizing.ceilDiv request.items request.granularity * request.granularity
  itemSize := request.itemSize
  downstream := max request.downstream 1
  writeMultiple := request.writeStep
  mapping := request.mapping

structure Suits (request : Request) (n : Nat) : Prop where
  items_le : request.items ≤ n
  rate_dvd : max request.producer.relativeRate 1 ∣ n
  multiple_dvd : max request.producer.outputMultiple 1 ∣ n
  downstream_dvd : max request.downstream 1 ∣ n

theorem writeStep_pos : 0 < request.writeStep := Nat.lcm_pos (by omega) (by omega)

theorem granularity_pos : 0 < request.granularity := Nat.lcm_pos writeStep_pos (by omega)

theorem writeStep_le_granularity : request.writeStep ≤ request.granularity :=
  Nat.le_of_dvd granularity_pos (Nat.dvd_lcm_left ..)

theorem downstream_le_granularity : max request.downstream 1 ≤ request.granularity :=
  Nat.le_of_dvd granularity_pos (Nat.dvd_lcm_right ..)

theorem suits_iff : request.Suits n ↔ request.items ≤ n ∧ request.granularity ∣ n := by
  unfold granularity writeStep
  rw [Nat.lcm_dvd_iff, Nat.lcm_dvd_iff]
  exact ⟨fun h => ⟨h.items_le, ⟨h.rate_dvd, h.multiple_dvd⟩, h.downstream_dvd⟩,
    fun ⟨hle, ⟨hrate, hmultiple⟩, hdown⟩ => ⟨hle, hrate, hmultiple, hdown⟩⟩

theorem capacity_suits (request : Request) : request.Suits request.measures.capacity :=
  suits_iff.mpr ⟨Sizing.le_ceilDiv_mul granularity_pos, Nat.dvd_mul_left ..⟩

/-- **Minimality.** No capacity that suits is smaller. -/
theorem capacity_le (h : request.Suits n) : request.measures.capacity ≤ n :=
  Sizing.ceilDiv_mul_le granularity_pos (suits_iff.mp h).1 (suits_iff.mp h).2

theorem capacity_eq_items (h : request.Suits request.items) :
    request.measures.capacity = request.items :=
  Nat.le_antisymm (capacity_le h) request.capacity_suits.items_le

theorem capacity_pos (hi : request.items ≠ 0) : 0 < request.measures.capacity := by
  have := request.capacity_suits.items_le
  omega

theorem granularity_le_capacity (hi : request.items ≠ 0) :
    request.granularity ≤ request.measures.capacity :=
  Nat.le_of_dvd (capacity_pos hi) (Nat.dvd_mul_left ..)

theorem capacity_lt_of_bytes_lt {limit : Nat} (hs : request.itemSize ≠ 0)
    (h : request.measures.bytes < limit) :
    request.measures.capacity < limit :=
  Nat.lt_of_le_of_lt (Nat.le_mul_of_pos_right _ (Nat.pos_of_ne_zero hs)) h

/-! ## What is found -/

theorem writeMultiple_eq (request : Request) : request.producer.writeMultiple =
    if request.writeStep < Word.limit then .ok request.writeStep else .error .mulOverflow :=
  Sizing.commonMultiple_eq ..

theorem commonMultiple_writeStep (request : Request) :
    Sizing.commonMultiple request.writeStep (max request.downstream 1) =
      if request.granularity < Word.limit then .ok request.granularity
        else .error .mulOverflow := by
  have h := Sizing.commonMultiple_eq request.writeStep (max request.downstream 1)
  rw [Nat.max_eq_left writeStep_pos,
    Nat.max_eq_left (show 1 ≤ max request.downstream 1 by omega)] at h
  exact h

theorem roundUp_granularity (request : Request) : Sizing.roundUp request.items request.granularity =
    if request.measures.capacity < Word.limit then .ok request.measures.capacity
      else .error .mulOverflow := by
  unfold Sizing.roundUp
  rw [Nat.max_eq_left granularity_pos]
  rfl

/-- **Exact sizing.** The measures are found as asked for; the only thing on the way that can
leave the words is the capacity. -/
theorem geometry_eq (request : Request) : request.geometry =
    if request.itemSize = 0 then refuse .zeroItemSize
    else if request.items = 0 then refuse .zeroItemCount
    else if request.measures.capacity < Word.limit then
      if request.measures.bytes < Word.limit then .ok request.measures
      else refuse (.addressSpaceExceeded request.measures.capacity request.itemSize)
    else .error (.fault .mulOverflow) := by
  unfold geometry
  split
  · rfl
  split
  · rfl
  -- Neither step is larger than the capacity, so they cannot be the first to leave the words.
  have hstep := @writeStep_le_granularity request
  have hcapacity := granularity_le_capacity ‹_›
  simp only [writeMultiple_eq, liftM_ite_bind, commonMultiple_writeStep, roundUp_granularity]
  by_cases hlt : request.measures.capacity < Word.limit
  · rw [if_pos (show request.writeStep < Word.limit by omega),
      if_pos (show request.granularity < Word.limit by omega), if_pos hlt, if_pos hlt]
    rfl
  · rw [if_neg hlt, if_neg hlt]
    split
    · split <;> rfl
    · rfl

theorem geometry_eq_ok (h : request.geometry = .ok geometry) :
    request.itemSize ≠ 0 ∧ request.items ≠ 0 ∧ request.measures.bytes < Word.limit ∧
    geometry = request.measures := by
  rw [geometry_eq] at h
  obtain ⟨hsize, h⟩ := guard_eq_ok.mp h
  obtain ⟨hitems, h⟩ := guard_eq_ok.mp h
  split at h
  · split at h
    · cases h
      exact ⟨hsize, hitems, ‹_›, rfl⟩
    · cases h
  · cases h

structure Gives (request : Request) (geometry : Geometry) : Prop where
  itemSize_pos : 0 < geometry.itemSize
  capacity_pos : 0 < geometry.capacity
  downstream_le : geometry.downstream ≤ geometry.capacity
  bytes_lt : geometry.bytes < Word.limit
  mapping_eq : geometry.mapping = request.mapping

theorem gives (h : request.geometry = .ok geometry) : request.Gives geometry := by
  obtain ⟨hsize, hitems, hbytes, rfl⟩ := geometry_eq_ok h
  exact ⟨Nat.pos_of_ne_zero hsize, Request.capacity_pos hitems,
    Nat.le_trans downstream_le_granularity (granularity_le_capacity hitems), hbytes, rfl⟩

end Request

end StreamBuffer
