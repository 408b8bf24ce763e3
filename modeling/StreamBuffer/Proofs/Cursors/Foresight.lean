import StreamBuffer.Proofs.Cursors.Drainage
import StreamBuffer.Proofs.Cursors.Inversion
import StreamBuffer.Proofs.Transitions

/-!
# Look-back known from the start

If no longer look-back is declared once something is written, every copy to the front holds the
longest there will ever be. A reader that is left with nothing but look-back is then never behind
the tail window, and before the first item there is nothing but look-back in front of the writer.
-/

namespace StreamBuffer

/-- Longer look-back is declared only before the first item. -/
def Limits.early : Limits where
  write _ _ := True
  read _ _ _ := True
  declare cursors lookBack _ := cursors.maxLookBack < lookBack → cursors.written = 0
  madeUp := False

namespace Cursors

/-- All look-back was known before the first item. -/
structure Foreseen (cursors : Cursors) : Prop where
  window : ∀ tail, cursors.tail = some tail →
  0 < cursors.written ∧ tail.start + cursors.maxLookBack ≤ tail.stop
  front : cursors.written = 0 → cursors.writeIndex ≤ cursors.maxLookBack

variable {cursors others : Cursors} {geometry : Geometry} {lookBack delay : Nat}
variable {events : List Event} {plan : Plan}

theorem planHistory_eq_ok (he : cursors.planHistory geometry = .ok (.planned plan)) :
    ∃ start stop positions, plan = .history start stop positions ∧
    start + cursors.copied geometry = stop := by
  unfold planHistory at he
  generalize (if cursors.writeIndex = 0 then geometry.capacity else cursors.writeIndex) = stop at he
  obtain ⟨wanted, hw, he⟩ := bind_eq_ok.mp he
  obtain ⟨_, rfl⟩ := Word.add_eq_ok_iff.mp hw
  dsimp only at he
  split at he
  · cases he
  obtain ⟨positions, _, he⟩ := bind_eq_ok.mp he
  split at he
  · cases he
  cases he
  refine ⟨_, stop, positions, rfl, ?_⟩
  unfold copied
  omega

namespace Foreseen

/-- The tail window may go, items may come, and look-back may be declared before they do. -/
theorem of_le (h : cursors.Foreseen) (ht : others.tail = cursors.tail ∨ others.tail = none)
    (hw : cursors.written ≤ others.written) (hl : cursors.maxLookBack ≤ others.maxLookBack)
    (hs : 0 < cursors.written → others.maxLookBack = cursors.maxLookBack)
    (hi : others.written = 0 → others.writeIndex ≤ max cursors.writeIndex others.maxLookBack) :
    others.Foreseen := by
  refine ⟨fun tail he => ?_, fun h0 => ?_⟩
  · rcases ht with ht | ht
    · obtain ⟨hpos, hfits⟩ := h.window tail (ht ▸ he)
      rw [hs hpos]
      exact ⟨Nat.lt_of_lt_of_le hpos hw, hfits⟩
    · cases ht.symm.trans he
  · have := h.front (by omega)
    have := hi h0
    omega

theorem withReaders (h : cursors.Foreseen) (readers : List Reader) :
    Foreseen { cursors with readers } :=
  ⟨h.window, h.front⟩

theorem refresh (h : cursors.Foreseen) (he : cursors.refreshTail = .ok others) :
    others.Foreseen := by
  rcases refreshTail_eq_ok he with rfl | rfl
  · exact h
  · exact ⟨nofun, h.front⟩

theorem raise (h : cursors.Foreseen) (hd : cursors.maxLookBack < lookBack → cursors.written = 0)
    (he : cursors.raise geometry lookBack delay = .ok (others, events)) : others.Foreseen := by
  have hsame : 0 < cursors.written → max cursors.maxLookBack lookBack = cursors.maxLookBack :=
    fun hpos =>
    Nat.max_eq_left (Nat.le_of_not_lt fun hlt => Nat.ne_of_gt hpos (hd hlt))
  rcases raise_eq_ok he with rfl | ⟨_, _, _, rfl⟩
  · exact h.of_le (.inl rfl) (Nat.le_refl _) (Nat.le_max_left ..) hsame fun _ => Nat.le_max_left ..
  · exact h.of_le (.inl rfl) (Nat.le_refl _) (Nat.le_max_left ..) hsame fun _ => Nat.le_max_right ..

/-- A window that holds all look-back leaves no reader behind with nothing but look-back. -/
theorem dry {capacity : Nat} (h : cursors.Foreseen) (hcoh : cursors.Coherent capacity)
    (hc : cursors.Counted) (hd : cursors.Drained) : cursors.Dry capacity := by
  have hlag : ∀ reader ∈ cursors.readers, cursors.lag reader ≤ cursors.maxLookBack := by
    intro reader hr
    have := hd reader hr
    have := hcoh.lookBack_le reader hr
    unfold lag
    omega
  refine ⟨hcoh, hc, ?_, hlag⟩
  cases ht : cursors.tail with
  | none => rfl
  | some tail =>
    obtain ⟨reader, hr, hw⟩ := hcoh.lagging (ht ▸ Option.some_ne_none tail)
    have hplace := (hcoh.wrapped_iff hr).mp hw
    have hspan : cursors.span capacity = tail.start := by unfold span; rw [ht]
    have := (h.window tail ht).2
    have := (hcoh.window tail ht).copied
    have := hlag reader hr
    omega

end Foreseen

theorem Movement.foreseen (hm : cursors.Movement .early geometry others) (h : cursors.Foreseen) :
    others.Foreseen := by
  cases hm with
  | @write items _ _ he =>
    rw [advanceWriter_eq_ok he]
    refine h.of_le (.inl rfl) (Nat.le_add_right ..) (Nat.le_refl _) (fun _ => rfl) fun h0 => ?_
    have hitems : items = 0 := (Nat.add_eq_zero_iff.mp h0).2
    have := Nat.mod_le (cursors.writeIndex + items) geometry.capacity
    simp only [wrote]
    omega
  | read _ _ he =>
    obtain ⟨readIndex, _, rfl⟩ := advanceReader_eq_ok he
    exact h.withReaders _
  | refresh he => exact h.refresh he
  | attach hd he =>
    obtain ⟨_, raised, _, readIndex, hraise, _, rfl⟩ := attach_eq_ok he
    have hnumbered : Foreseen { cursors with nextReader := cursors.nextReader + 1 } :=
      ⟨h.window, h.front⟩
    exact (hnumbered.raise hd hraise).withReaders _
  | raise _ hd he => exact h.raise hd he
  | detach he => exact (h.withReaders _).refresh (detach_eq_ok he)
  | @declare reader delay _ _ hd he =>
    have hdeclared : (cursors.replace { reader with sampleDelay := delay }).Foreseen :=
      h.withReaders _
    exact hdeclared.raise hd he

theorem Relocated.foreseen (hr : cursors.Relocated .early geometry others) (h : cursors.Foreseen)
    (hcoh : cursors.Coherent geometry.capacity) (hc : cursors.Counted)
    (hcap : geometry.capacity < Word.limit) : others.Foreseen := by
  cases hr with
  | stay => exact h
  | settle hflat hd he =>
    cases hd with
    | history hneeded hplan =>
      obtain ⟨needed, hsame, hdue⟩ := needsHistory_eq hcoh.toOrdered hc
      cases hneeded.symm.trans hsame
      -- look-back is copied only after something was written
      have hwritten := (hdue.mp rfl).written_pos
      obtain ⟨start, stop, positions, rfl, hcopied⟩ := planHistory_eq_ok hplan
      obtain ⟨lagging, _, he⟩ := bind_eq_ok.mp he
      cases he
      refine ⟨fun tail ht => ⟨hwritten, ?_⟩, fun h0 => absurd h0 (Nat.ne_of_gt hwritten)⟩
      cases lagging <;> cases ht
      unfold copied at hcopied
      simp only
      omega
    | @input reader required available hr hs hplan =>
      unfold supply at hs
      rw [hflat] at hs
      cases hs.symm.trans (hcoh.flatSupply_eq hc hr)
      obtain ⟨decision, hdecision, hadmissible⟩ := planInput_eq hcoh.toOrdered hc hcap hr required
      cases hplan.symm.trans hdecision
      have hkind := kind_of_planInput hplan
      cases hadmissible _ rfl with
      | history | output => cases hkind
      | input hmoved hspan hroom hfront hat =>
        obtain ⟨readers, _, he⟩ := bind_eq_ok.mp he
        obtain ⟨writeIndex, hw, he⟩ := bind_eq_ok.mp he
        obtain ⟨_, rfl⟩ := Word.add_eq_ok_iff.mp hw
        cases he
        -- before the first item nobody has to come round, unless to its own look-back
        refine ⟨nofun, fun (h0 : cursors.written = 0) => ?_⟩
        obtain ⟨first, hfirst, hwrapped, rfl⟩ := hat
        have hplace := (hcoh.wrapped_iff hfirst).mp hwrapped
        have hlookBack := hcoh.lookBack_le first hfirst
        have hlag : cursors.lag first ≤ first.lookBack := by
          unfold lag
          omega
        simp only
        omega
    | wish hm => exact hm.elim
    | output hplan =>
      obtain ⟨front, kept, rfl, hkept⟩ := planOutput_eq_ok hplan
      obtain ⟨readers, _, he⟩ := bind_eq_ok.mp he
      cases he
      refine ⟨h.window, fun h0 => ?_⟩
      have := h.front h0
      simp only
      omega

end Cursors

end StreamBuffer
