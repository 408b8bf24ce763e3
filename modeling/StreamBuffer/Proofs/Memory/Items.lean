import StreamBuffer.Memory.Bytes

/-!
# Items in memory

Memory that holds items of one size is read item by item. What is written at an item changes whole
items, and two byte strings of as many items are the same if their items are.
-/

namespace StreamBuffer.Bytes

variable {bytes data : Bytes} {offset length size capacity i : Nat}

/-! ## Runs of bytes -/

theorem slice_eq_slice {other : Bytes} {start : Nat} (h : offset + length ≤ bytes.size)
    (ho : start + length ≤ other.size)
    (hb : ∀ i < length, bytes[offset + i]? = other[start + i]?) :
    bytes.slice offset length = other.slice start length := by
  apply Array.ext_getElem?
  intro i
  by_cases hi : i < length
  · rw [getElem?_slice hi, getElem?_slice hi, hb i hi]
  · rw [Array.getElem?_eq_none (by rw [size_slice h]; omega),
      Array.getElem?_eq_none (by rw [size_slice ho]; omega)]

@[simp] theorem slice_all (h : bytes.size = length) : bytes.slice 0 length = bytes := by
  subst h
  simp [slice]

@[simp] theorem slice_none : bytes.slice offset 0 = #[] :=
  Array.eq_empty_of_size_eq_zero (by simp only [slice, Array.size_extract]; omega)

theorem slice_splice (h : offset + data.size ≤ bytes.size) :
    (bytes.splice offset data).slice offset data.size = data := by
  apply Array.ext_getElem?
  intro i
  by_cases hi : i < data.size
  · rw [getElem?_slice hi, getElem?_splice h, if_pos (by omega), Nat.add_sub_cancel_left]
  · rw [Array.getElem?_eq_none (by rw [size_slice (by rw [size_splice h]; exact h)]; omega),
      Array.getElem?_eq_none (by omega)]

theorem splice_slice (h : offset + length ≤ bytes.size) :
    bytes.splice offset (bytes.slice offset length) = bytes := by
  have hs := size_slice h
  apply Array.ext_getElem?
  intro i
  rw [getElem?_splice (by rw [hs]; exact h), hs]
  split
  · rw [getElem?_slice (by omega), Nat.add_sub_cancel' (by omega)]
  · rfl

@[simp] theorem splice_none (h : offset ≤ bytes.size) : bytes.splice offset #[] = bytes := by
  calc bytes.splice offset #[] = bytes.splice offset (bytes.slice offset 0) := by rw [slice_none]
    _ = bytes := splice_slice (by omega)

/-! ## Items -/

def item (bytes : Bytes) (size i : Nat) : Bytes := bytes.slice (i * size) size

theorem item_le (size : Nat) (h : i < capacity) : i * size + size ≤ capacity * size := by
  rw [← Nat.succ_mul]
  exact Nat.mul_le_mul_right size h

/-- A write is not read outside the items it is in. -/
theorem item_splice_of_not {target count : Nat} (hb : bytes.size = capacity * size)
    (hd : data.size ≤ count * size) (ht : target + count ≤ capacity) (hi : i < capacity)
    (ho : ¬ (target ≤ i ∧ i < target + count)) :
    (bytes.splice (target * size) data).item size i = bytes.item size i := by
  have hfit := Nat.mul_le_mul_right size ht
  have hin := item_le size hi
  rw [Nat.add_mul] at hfit
  unfold item
  apply slice_eq_slice (by rw [size_splice (by omega)]; omega) (by omega)
  intro j hj
  rw [getElem?_splice (by omega), if_neg]
  rintro ⟨hlo, hhi⟩
  rcases Nat.lt_or_ge i target with h | h
  · have := Nat.mul_le_mul_right size (show i + 1 ≤ target from h)
    rw [Nat.succ_mul] at this
    omega
  · have := Nat.mul_le_mul_right size (show target + count ≤ i by omega)
    rw [Nat.add_mul] at this
    omega

/-- A write of whole items is read inside it, and what was there before is read outside. -/
theorem item_splice {target count : Nat} (hb : bytes.size = capacity * size)
    (hd : data.size = count * size) (ht : target + count ≤ capacity) (hi : i < capacity) :
    (bytes.splice (target * size) data).item size i =
      if target ≤ i ∧ i < target + count then data.item size (i - target)
        else bytes.item size i := by
  have hfit : target * size + data.size ≤ bytes.size := by
    rw [hd, hb, ← Nat.add_mul]
    exact Nat.mul_le_mul_right size ht
  split
  · obtain ⟨hlo, hhi⟩ := ‹_ ∧ _›
    have hin := item_le size hi
    have h1 := Nat.mul_le_mul_right size hlo
    have h2 : (i - target) * size + size ≤ data.size := hd ▸ item_le size (by omega)
    have h3 : (i - target) * size = i * size - target * size := Nat.sub_mul ..
    unfold item
    apply slice_eq_slice (by rw [size_splice hfit]; omega) h2
    intro j hj
    rw [getElem?_splice hfit, if_pos (by omega), h3, Nat.sub_add_comm h1]
  · exact item_splice_of_not hb (Nat.le_of_eq hd) ht hi ‹_›

theorem size_slice_items {start count : Nat} (h : start + count ≤ capacity)
    (hb : bytes.size = capacity * size) :
    (bytes.slice (start * size) (count * size)).size = count * size := by
  apply size_slice
  rw [hb, ← Nat.add_mul]
  exact Nat.mul_le_mul_right size h

theorem item_slice {start count : Nat} (h : start + count ≤ capacity)
    (hb : bytes.size = capacity * size) (hi : i < count) :
    (bytes.slice (start * size) (count * size)).item size i = bytes.item size (start + i) := by
  have h1 := item_le size hi
  have h2 := Nat.mul_le_mul_right size h
  have h3 := Nat.add_mul start i size
  rw [Nat.add_mul] at h2
  unfold item
  apply slice_eq_slice
  · rw [size_slice (by omega)]
    exact h1
  · omega
  · intro j hj
    rw [getElem?_slice (by omega), h3, Nat.add_assoc]

theorem item_append {count : Nat} (hb : bytes.size = count * size) :
    (bytes ++ data).item size i = if i < count then bytes.item size i
      else data.item size (i - count) := by
  have hnone : ∀ (bytes : Bytes) {start stop}, stop ≤ start ∨ bytes.size ≤ start →
      bytes.extract start stop = #[] := fun _ _ _ h =>
    Array.eq_empty_of_size_eq_zero (by rw [Array.size_extract]; omega)
  unfold item slice
  rw [Array.extract_append, hb]
  split
  · have := item_le size ‹i < count›
    rw [hnone data (.inl (by omega)), Array.append_empty]
  · have := Nat.mul_le_mul_right size (show count ≤ i by omega)
    rw [hnone bytes (.inr (by omega)), Array.empty_append, Nat.sub_mul, Nat.sub_add_comm this]

theorem eq_of_items {other : Bytes} {count : Nat} (hb : bytes.size = count * size)
    (ho : other.size = count * size) (hi : ∀ i < count, bytes.item size i = other.item size i) :
    bytes = other := by
  apply Array.ext_getElem?
  intro j
  rcases Nat.lt_or_ge j (count * size) with hj | hj
  · have hs : 0 < size := Nat.pos_of_mul_pos_left (Nat.zero_lt_of_lt hj)
    have hq : j / size < count := Nat.div_lt_of_lt_mul (by rwa [Nat.mul_comm] at hj)
    have hr := Nat.mod_lt j hs
    have he : j / size * size + j % size = j := Nat.div_add_mod' j size
    have h := congrArg (·[j % size]?) (hi _ hq)
    unfold item at h
    simp only [getElem?_slice hr, he] at h
    exact h
  · rw [Array.getElem?_eq_none (by omega), Array.getElem?_eq_none (by omega)]

/-- What is the rest of some bytes, item by item. -/
theorem exists_append {rest : Bytes} {count taken : Nat} (hb : bytes.size = count * size)
    (ht : taken ≤ count) (hr : rest.size = (count - taken) * size)
    (hi : ∀ i < count - taken, rest.item size i = bytes.item size (taken + i)) :
    ∃ first : Bytes, first.size = taken * size ∧ bytes = first ++ rest := by
  have hfirst : (bytes.slice (0 * size) (taken * size)).size = taken * size :=
    size_slice_items (by omega) hb
  have hsize : (bytes.slice (0 * size) (taken * size) ++ rest).size = count * size := by
    rw [Array.size_append, hfirst, hr, ← Nat.add_mul, Nat.add_sub_cancel' ht]
  refine ⟨_, hfirst, eq_of_items hb hsize fun i hlt => ?_⟩
  rw [item_append hfirst]
  split
  · rw [item_slice (by omega) hb ‹_›, Nat.zero_add]
  · rw [hi _ (by omega), Nat.add_sub_cancel' (by omega)]

theorem item_zeroed (h : i < capacity) : (zeroed (capacity * size)).item size i = zeroed size := by
  have hle := item_le size h
  have hz : (zeroed size).slice 0 size = zeroed size := slice_all (size_zeroed size)
  rw [← hz]
  apply slice_eq_slice (by rwa [size_zeroed]) (by simp)
  intro j hj
  simp only [zeroed, Array.getElem?_replicate]
  rw [if_pos (by omega), if_pos (by omega)]

end StreamBuffer.Bytes
