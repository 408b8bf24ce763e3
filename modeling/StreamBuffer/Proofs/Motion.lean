import StreamBuffer.Proofs.Cursors.Attachment
import StreamBuffer.Proofs.Cursors.Relocation
import StreamBuffer.Proofs.Memory.Items

/-!
# Motions of a flat buffer

All that a call does to a flat buffer is a few motions, one after another: the cursors move, items
are written, runs of items are relocated. A `View` is what they act on, the cursors and the bytes
that readers see; a motion of a sound view leads to a sound view.
-/

namespace StreamBuffer

structure View where
  cursors : Cursors
  bytes : Bytes

def ItemMove.apply (size : Nat) (bytes : Bytes) (move : ItemMove) : Bytes :=
  bytes.splice (move.target * size) (bytes.slice (move.source * size) (move.count * size))

def Plan.relocate (plan : Plan) (size writeIndex : Nat) (bytes : Bytes) : Bytes :=
  (plan.moves writeIndex).foldl (ItemMove.apply size) bytes

/-- What is added to the stream; `none` if the stream does not tell what was written. -/
abbrev Sent := Option Bytes

namespace Sent

def nothing : Sent := some #[]

def andThen : Sent → Sent → Sent
  | some before, some after => some (before ++ after)
  | _, _ => none

@[simp] theorem andThen_nothing (sent : Sent) : sent.andThen nothing = sent := by
  cases sent <;> simp [andThen, nothing]

@[simp] theorem nothing_andThen (sent : Sent) : nothing.andThen sent = sent := by
  cases sent <;> simp [andThen, nothing]

@[simp] theorem andThen_none (sent : Sent) : sent.andThen none = none := by
  cases sent <;> rfl

theorem andThen_assoc (a b c : Sent) : (a.andThen b).andThen c = a.andThen (b.andThen c) := by
  cases a <;> cases b <;> cases c <;> simp [andThen]

end Sent

/-- When a reader with a look-back may come, and when a longer look-back may be declared. -/
structure Terms where
  attach : Cursors → Nat → Prop
  raise : Cursors → Nat → Prop

inductive Motion (terms : Terms) (capacity size : Nat) : View → Sent → View → Prop where
  | relocate {view : View} {plan : Plan} (ha : plan.Admissible view.cursors capacity) :
      Motion terms capacity size view .nothing
        ⟨plan.settled view.cursors, plan.relocate size view.cursors.writeIndex view.bytes⟩
  /-- The writer moves over items it has stored. -/
  | write {view : View} {items : Nat} {data : Bytes} (hroom : view.cursors.Room capacity items)
      (hcount : view.cursors.written + items + view.cursors.maxLookBack < Word.limit)
      (hdata : data.size = items * size) :
      Motion terms capacity size view (some data)
        ⟨view.cursors.wrote capacity items, view.bytes.splice (view.cursors.writeIndex * size) data⟩
  /-- The writer moves over whatever is there. -/
  | skip {view : View} {items : Nat}
      (hroom : view.cursors.Room capacity items ∨ view.cursors.readers = [])
      (hcount : view.cursors.written + items + view.cursors.maxLookBack < Word.limit) :
      Motion terms capacity size view none ⟨view.cursors.wrote capacity items, view.bytes⟩
  | consume {view : View} {reader : Reader} {items : Nat} (hr : reader ∈ view.cursors.readers)
      (hi : items ≤ view.cursors.available capacity reader) :
      Motion terms capacity size view .nothing
        ⟨(view.cursors.replace (view.cursors.consumed capacity reader items)).refreshed, view.bytes⟩
  | detach {view : View} (id : Nat) :
      Motion terms capacity size view .nothing ⟨(view.cursors.without id).refreshed, view.bytes⟩
  | raise {view : View} {lookBack delay : Nat} (hl : lookBack < capacity)
      (hu : view.cursors.Undisturbed lookBack)
      (hcount : view.cursors.written + max view.cursors.maxLookBack lookBack < Word.limit)
      (hdelay : delay + capacity < Word.limit) :
      Motion terms capacity size view .nothing ⟨view.cursors.raised lookBack delay, view.bytes⟩
  | join {view : View} {lookBack delay : Nat} (hl : lookBack < capacity)
      (ht : terms.attach view.cursors lookBack) (ha : view.cursors.Admits lookBack)
      (hcount : view.cursors.written + max view.cursors.maxLookBack lookBack < Word.limit)
      (hdelay : delay + capacity < Word.limit) :
      Motion terms capacity size view .nothing
        ⟨view.cursors.joined capacity lookBack delay, view.bytes⟩
  | declare {view : View} {reader : Reader} {delay : Nat} (hr : reader ∈ view.cursors.readers)
      (hdelay : delay + capacity < Word.limit) :
      Motion terms capacity size view .nothing
        ⟨(view.cursors.replace { reader with sampleDelay := delay }).raised 0 delay, view.bytes⟩
  /-- A relocation broke off after some of its moves. -/
  | spoil {view : View} {bytes : Bytes} (hsize : bytes.size = view.bytes.size) :
      Motion terms capacity size view none ⟨view.cursors, bytes⟩

inductive Path (terms : Terms) (capacity size : Nat) (start : View) : Sent → View → Prop where
  | refl : Path terms capacity size start .nothing start
  | tail {sent data : Sent} {mid view : View} (path : Path terms capacity size start sent mid)
      (motion : Motion terms capacity size mid data view) :
      Path terms capacity size start (sent.andThen data) view

structure View.Sound (capacity size : Nat) (view : View) : Prop where
  coherent : view.cursors.Coherent capacity
  counted : view.cursors.Counted
  delayed : view.cursors.maxDelay + capacity < Word.limit
  size_eq : view.bytes.size = capacity * size

variable {terms : Terms} {capacity size : Nat} {view start : View} {sent : Sent}

/-! ## The cursors -/

namespace Cursors

variable {cursors : Cursors} {items : Nat} {reader : Reader}

theorem Coherent.roved (h : cursors.Coherent capacity) (hn : cursors.readers = []) :
    (cursors.wrote capacity items).Coherent capacity := by
  have hpos := Nat.zero_lt_of_lt h.writeIndex_lt
  have ht : cursors.tail = none := by
    by_cases ht : cursors.tail = none
    · exact ht
    · obtain ⟨reader, hr, _⟩ := h.lagging ht
      rw [hn] at hr
      cases hr
  have hr : (cursors.wrote capacity items).readers = [] := hn
  refine ⟨⟨Nat.mod_lt _ hpos, ?_, ?_, h.maxLookBack_lt, ?_, ?_, ?_⟩, fun h => absurd ht h⟩
  · rw [hr]
    exact nofun
  · rw [hr]
    exact nofun
  · rw [hr]
    exact .nil
  · rw [hr]
    exact nofun
  · intro tail htail
    rw [show (cursors.wrote capacity items).tail = none from ht] at htail
    cases htail

theorem Coherent.declared (h : cursors.Coherent capacity) (hr : reader ∈ cursors.readers)
    (delay : Nat) :
    (cursors.replace { reader with sampleDelay := delay }).Coherent capacity := by
  refine ⟨h.replace hr rfl rfl ⟨(h.placed reader hr).read_le, (h.placed reader hr).along⟩,
    fun ht => ?_⟩
  obtain ⟨other, ho, hw⟩ := h.lagging ht
  by_cases hid : other.id = reader.id
  · have he := eq_of_id_eq h.ids_nodup ho hr hid
    subst he
    exact ⟨{ other with sampleDelay := delay },
      (mem_replace ho { other with sampleDelay := delay } rfl).mpr (.inl rfl), hw⟩
  · exact ⟨other, (mem_replace hr { reader with sampleDelay := delay } rfl).mpr (.inr ⟨ho, hid⟩),
      hw⟩

end Cursors

/-! ## The bytes -/

theorem ItemMove.size_apply {move : ItemMove} (hf : move.Fits capacity) {bytes : Bytes}
    (hb : bytes.size = capacity * size) : (move.apply size bytes).size = capacity * size := by
  have hs := Nat.mul_le_mul_right size hf.source_le
  have ht := Nat.mul_le_mul_right size hf.target_le
  rw [Nat.add_mul] at hs ht
  unfold apply
  rw [Bytes.size_splice (by rw [Bytes.size_slice (by omega)]; omega), hb]

/-- A move of items is read at the target, and what was there before is read elsewhere. -/
theorem ItemMove.item_apply {move : ItemMove} (hf : move.Fits capacity) {bytes : Bytes}
    (hb : bytes.size = capacity * size) {i : Nat} (hi : i < capacity) :
    (move.apply size bytes).item size i =
      if move.target ≤ i ∧ i < move.target + move.count then
        bytes.item size (move.source + (i - move.target))
      else bytes.item size i := by
  have hs := Nat.mul_le_mul_right size hf.source_le
  rw [Nat.add_mul] at hs
  unfold apply
  rw [Bytes.item_splice hb (Bytes.size_slice (by omega)) hf.target_le hi]
  split
  · exact Bytes.item_slice hf.source_le hb (by omega)
  · rfl

theorem Plan.size_relocate {plan : Plan} (h : view.cursors.Ordered capacity)
    (ha : plan.Admissible view.cursors capacity) (hb : view.bytes.size = capacity * size) :
    (plan.relocate size view.cursors.writeIndex view.bytes).size = capacity * size := by
  have hfit := plan.moves_fit h ha
  unfold relocate
  generalize plan.moves view.cursors.writeIndex = moves at hfit
  generalize view.bytes = bytes at hb
  induction moves generalizing bytes with
  | nil => exact hb
  | cons move rest ih =>
    exact ih (fun m hm => hfit m (List.mem_cons_of_mem _ hm)) _
      (ItemMove.size_apply (hfit move (List.mem_cons_self ..)) hb)

/-! ## Soundness -/

theorem Motion.sound {data : Sent} {after : View} (h : view.Sound capacity size)
    (hm : Motion terms capacity size view data after) : after.Sound capacity size := by
  obtain ⟨hcoh, hcount, hdelay, hsize⟩ := h
  cases hm with
  | relocate ha =>
    exact ⟨Plan.coherent_settled hcoh ha, hcount, hdelay,
      Plan.size_relocate hcoh.toOrdered ha hsize⟩
  | @write items data hroom hwritten hdata =>
    refine ⟨hcoh.wrote hroom, ?_, hdelay, ?_⟩
    · unfold Cursors.Counted
      simp only [Cursors.wrote]
      exact hwritten
    · have := Nat.mul_le_mul_right size hroom.end_le
      rw [Nat.add_mul] at this
      rw [Bytes.size_splice (by omega), hsize]
  | skip hroom hwritten =>
    refine ⟨?_, hwritten, hdelay, hsize⟩
    rcases hroom with hroom | hnone
    · exact hcoh.wrote hroom
    · exact hcoh.roved hnone
  | consume hr hi =>
    -- the tail window may be given up now, which touches no count
    refine ⟨(hcoh.consume hr hi).refreshed, ?_, ?_, hsize⟩
    · unfold Cursors.Counted
      rw [Cursors.written_refreshed, Cursors.maxLookBack_refreshed]
      exact hcount
    · rw [Cursors.maxDelay_refreshed]
      exact hdelay
  | detach id =>
    refine ⟨(hcoh.without id).refreshed, ?_, ?_, hsize⟩
    · unfold Cursors.Counted
      rw [Cursors.written_refreshed, Cursors.maxLookBack_refreshed]
      exact hcount
    · rw [Cursors.maxDelay_refreshed]
      exact hdelay
  | raise hl hu hwritten hdelays =>
    refine ⟨hcoh.raised hl hu _, ?_, ?_, hsize⟩
    · unfold Cursors.Counted
      simpa using hwritten
    · rw [Cursors.maxDelay_raised]
      omega
  | join hl _ ha hwritten hdelays =>
    refine ⟨hcoh.joined hl ha _, ?_, ?_, hsize⟩
    · unfold Cursors.Counted
      simpa [Cursors.joined] using hwritten
    · simp only [Cursors.joined, Cursors.maxDelay_raised]
      omega
  | @declare reader delay hr hdelays =>
    -- a delay alone raises no look-back, so no reader is put back
    have hd := hcoh.declared hr delay
    refine ⟨hd.raised (Nat.zero_lt_of_lt hcoh.writeIndex_lt)
      (fun hl => absurd hl (Nat.not_lt_zero _)) _, ?_, ?_, hsize⟩
    · unfold Cursors.Counted
      rw [Cursors.written_raised, Cursors.maxLookBack_raised, Nat.max_eq_left (Nat.zero_le _)]
      exact hcount
    · rw [Cursors.maxDelay_raised]
      simp only [Cursors.replace]
      omega
  | spoil hs => exact ⟨hcoh, hcount, hdelay, hs.trans hsize⟩

theorem Path.sound (h : start.Sound capacity size) (hp : Path terms capacity size start sent view) :
    view.Sound capacity size := by
  induction hp with
  | refl => exact h
  | tail _ motion ih => exact motion.sound ih

theorem Path.single {data : Sent} (hm : Motion terms capacity size start data view) :
    Path terms capacity size start data view := by
  rw [← Sent.nothing_andThen data]
  exact .tail .refl hm

theorem Path.trans {data : Sent} {mid : View} (hp : Path terms capacity size start sent mid)
    (hq : Path terms capacity size mid data view) :
    Path terms capacity size start (sent.andThen data) view := by
  induction hq with
  | refl =>
    rw [Sent.andThen_nothing]
    exact hp
  | tail _ motion ih =>
    rw [← Sent.andThen_assoc]
    exact .tail ih motion

end StreamBuffer
