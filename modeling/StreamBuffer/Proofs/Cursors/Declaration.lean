import StreamBuffer.Proofs.Transitions

/-!
# Declared look-back

No reader ever looks back further than the longest look-back that was declared. So declaring a
longer one can always put the readers where they have all of their look-back before them; what they
have consumed of it does not count for that.
-/

namespace StreamBuffer

def Limits.any : Limits where
  write _ _ := True
  read _ _ _ := True
  declare _ _ _ := True
  madeUp := True

namespace Cursors

def Known (cursors : Cursors) : Prop :=
  ∀ reader ∈ cursors.readers, reader.lookBack ≤ cursors.maxLookBack

structure Declared (cursors : Cursors) (lookBack delay : Nat) (others : Cursors) : Prop where
  writeIndex_eq : others.writeIndex = (cursors.raised lookBack delay).writeIndex
  written_eq : others.written = cursors.written
  tail_eq : others.tail = cursors.tail
  kept : ∀ id reader, (cursors.raised lookBack delay).reader? id = some reader →
    others.reader? id = some reader

variable {cursors others : Cursors} {capacity lookBack delay id : Nat} {reader : Reader}
variable {geometry : Geometry}
variable {limits : Limits} {events : List Event}

/-! ## Known look-back -/

namespace Known

theorem same (h : cursors.Known) (hl : cursors.maxLookBack ≤ others.maxLookBack)
    (hr : ∀ reader ∈ others.readers, ∃ old ∈ cursors.readers, reader.lookBack = old.lookBack) :
    others.Known := by
  intro reader hm
  obtain ⟨old, hold, he⟩ := hr reader hm
  exact he ▸ Nat.le_trans (h old hold) hl

theorem refresh (h : cursors.Known) (he : cursors.refreshTail = .ok others) : others.Known := by
  rcases refreshTail_eq_ok he with rfl | rfl <;> exact h

theorem raise (h : cursors.Known)
    (he : cursors.raise geometry lookBack delay = .ok (others, events)) :
    others.Known ∧ lookBack ≤ others.maxLookBack := by
  rcases raise_eq_ok he with rfl | ⟨_, _, _, rfl⟩
  · exact ⟨h.same (Nat.le_max_left ..) fun reader hm => ⟨reader, hm, rfl⟩, Nat.le_max_right ..⟩
  · refine ⟨h.same (Nat.le_max_left ..) fun reader hm => ?_, Nat.le_max_right ..⟩
    obtain ⟨old, hold, rfl⟩ := List.mem_map.mp hm
    exact ⟨old, hold, rfl⟩

theorem replace (h : cursors.Known) {other : Reader} (hr : reader ∈ cursors.readers)
    (hl : other.lookBack = reader.lookBack) : (cursors.replace other).Known := by
  refine h.same (Nat.le_refl _) fun landed hm => ?_
  obtain ⟨old, hold, rfl⟩ := List.mem_map.mp hm
  split
  · exact ⟨reader, hr, hl⟩
  · exact ⟨old, hold, rfl⟩

end Known

theorem Movement.known (hm : cursors.Movement limits geometry others) (h : cursors.Known) :
    others.Known := by
  cases hm with
  | write _ he =>
    rw [advanceWriter_eq_ok he]
    exact h
  | read hr _ he =>
    obtain ⟨readIndex, _, rfl⟩ := advanceReader_eq_ok he
    exact h.replace hr rfl
  | refresh he => exact h.refresh he
  | attach _ he =>
    obtain ⟨_, raised, _, readIndex, hraise, _, rfl⟩ := attach_eq_ok he
    have hnumbered : Known { cursors with nextReader := cursors.nextReader + 1 } := h
    obtain ⟨hraised, hl⟩ := hnumbered.raise hraise
    intro reader hr
    rcases List.mem_append.mp hr with hr | hr
    · exact hraised reader hr
    · rw [List.mem_singleton.mp hr]
      exact hl
  | raise _ _ he => exact (h.raise he).1
  | @detach id _ he =>
    have hwithout : (cursors.without id).Known :=
      fun reader hr => h reader (List.eraseP_sublist.subset hr)
    exact hwithout.refresh (detach_eq_ok he)
  | @declare reader delay _ hr _ he =>
    have hdeclared : (cursors.replace { reader with sampleDelay := delay }).Known :=
      h.replace hr rfl
    exact (hdeclared.raise he).1

theorem Relocated.known (hr : cursors.Relocated limits geometry others) (h : cursors.Known) :
    others.Known := by
  cases hr with
  | stay => exact h
  | settle _ _ he =>
    have hsettle := Plan.settle_eq_ok he
    refine h.same (Nat.le_of_eq hsettle.maxLookBack_eq.symm) fun reader hm => ?_
    obtain ⟨old, hold, readIndex, rfl⟩ := hsettle.reader reader hm
    exact ⟨old, hold, rfl⟩

/-! ## Declarations -/

theorem declared_raised : cursors.Declared lookBack delay (cursors.raised lookBack delay) :=
  ⟨rfl, written_raised, tail_raised, fun _ _ => id⟩

theorem declared_joined :
    cursors.Declared lookBack delay (cursors.joined capacity lookBack delay) := by
  refine ⟨rfl, written_raised, tail_raised, fun id reader hr => ?_⟩
  unfold reader? at hr ⊢
  unfold joined
  rw [List.find?_append, hr]
  rfl

theorem raised_of_not_reserved (h : ¬ (cursors.maxLookBack < lookBack ∧ cursors.written = 0)) :
    cursors.raised lookBack delay = cursors.withMaxima lookBack delay := if_neg h

theorem raised_of_reserved (hl : cursors.maxLookBack < lookBack) (hw : cursors.written = 0) :
    cursors.raised lookBack delay = (cursors.withMaxima lookBack delay).reserved := if_pos ⟨hl, hw⟩

theorem reader?_map {place : Reader → Nat} {moved : Cursors}
    (hm : moved.readers =
      cursors.readers.map fun reader => { reader with readIndex := place reader })
    (hr : cursors.reader? id = some reader) :
    moved.reader? id = some { reader with readIndex := place reader } := by
  unfold reader? at hr ⊢
  rw [hm, List.find?_map]
  have hsame : ((fun reader : Reader => reader.id == id) ∘
    fun reader : Reader => { reader with readIndex := place reader }) =
      fun reader => reader.id == id := rfl
  rw [hsame, hr]
  rfl

/-! ## Supply -/

theorem flatSupply_congr (hi : others.writeIndex = cursors.writeIndex)
    (hw : others.written = cursors.written) (ht : others.tail = cursors.tail) :
    others.flatSupply capacity reader = cursors.flatSupply capacity reader := by
  unfold flatSupply unread isWrapped wrapEnd unread
  rw [hi, hw, ht]

theorem flatSupply_of_read (hc : cursors.written + reader.lookBack < Word.limit)
    (hr : cursors.written + reader.lookBack ≤ reader.itemsRead) :
    cursors.flatSupply capacity reader = .ok 0 := by
  unfold flatSupply
  rw [unread_eq hc]
  exact if_pos (Nat.sub_eq_zero_of_le hr)

theorem flatSupply_of_back (hw : cursors.written = 0) (hc : reader.lookBack < Word.limit)
    (hp : reader.readIndex + reader.lookBack = cursors.writeIndex)
    (hr : reader.itemsRead < reader.lookBack) :
    cursors.flatSupply capacity reader = .ok reader.lookBack := by
  have hcount : cursors.written + reader.lookBack < Word.limit := by omega
  have hlag : 0 < cursors.lag reader := by
    unfold lag
    omega
  have hwrapped : ¬ cursors.Wrapped reader := by
    unfold Wrapped
    omega
  rw [flatSupply_of_lag hcount hlag, if_neg hwrapped, Word.sub_eq_ok (by omega)]
  exact congrArg Except.ok (by omega)

end Cursors

end StreamBuffer
