import StreamBuffer.Proofs.Cursors.Polling

/-!
# Room behind what is unread

Unread data is brought to the front when nobody has to come round for it. The reader that was behind
then stands at the front, so it is in the way of any copy of look-back. Whether the room behind the
unread data is the writer's is a matter of whether such a copy is due.
-/

namespace StreamBuffer

namespace Cursors

def unreadRun (cursors : Cursors) : Nat :=
  cursors.writeIndex - ((cursors.readers.map (·.readIndex)).min?).getD 0

/-- Look-back has to be copied to the front once the unread data is there. -/
structure DueBehind (cursors : Cursors) (geometry : Geometry) : Prop where
  lookBack_pos : 0 < cursors.maxLookBack
  written_pos : 0 < cursors.written
  tail_eq : cursors.tail = none
  ended : geometry.capacity < cursors.unreadRun + geometry.writeMultiple ∨ cursors.unreadRun = 0

/-- **Backpressure.** Look-back would be copied over what the first reader has not read. -/
structure Held (cursors : Cursors) (geometry : Geometry) :
    Prop extends DueBehind cursors geometry where
  copied_lt : cursors.copied geometry < cursors.unreadRun

/-- A copy takes the room that was gained. -/
inductive Undone (cursors : Cursors) (geometry : Geometry) (room : Nat) : Prop where
  /-- The unread data is part of the copy, which is not made in place. -/
  | short (hd : cursors.DueBehind geometry) (hpos : 0 < cursors.unreadRun)
      (hle : cursors.unreadRun ≤ cursors.copied geometry)
  /-- There is no unread data, and a writer at the front is taken for one at the end. -/
  | refilled (hd : cursors.DueBehind geometry) (h0 : cursors.unreadRun = 0)
      (hle : cursors.writeIndex ≤ cursors.copied geometry)
      (hroom : 0 < room ∨ geometry.capacity ≤ cursors.copied geometry)

structure Cleared (cursors : Cursors) : Prop where
  countable : cursors.Countable
  passed : ∀ reader ∈ cursors.readers, ¬ cursors.Wrapped reader
  at_front : ∃ reader ∈ cursors.readers, reader.readIndex = 0

end Cursors

variable {start cursors others : Cursors} {capacity multiple front kept room more : Nat}
variable {force : Bool}
variable {geometry : Geometry} {plan : Plan} {reader : Reader}

namespace Plan.Admissible

variable (ha : (Plan.output multiple force front kept).Admissible cursors capacity)
include ha

theorem readers_ne : cursors.readers ≠ [] := by
  cases ha with
  | output _ _ _ hat =>
    obtain ⟨first, hfirst, _⟩ := hat
    exact List.ne_nil_of_mem hfirst

theorem passed : ∀ reader ∈ cursors.readers, ¬ cursors.Wrapped reader := by
  cases ha with
  | output _ _ hfront _ => exact fun reader hr => (hfront reader hr).1

theorem kept_lt : kept < cursors.writeIndex := by
  cases ha with
  | output => omega

theorem kept_eq : kept = cursors.unreadRun := by
  cases ha with
  | output _ hkept hfront hat =>
    obtain ⟨first, hfirst, hplace⟩ := hat
    have hmin : (cursors.readers.map (·.readIndex)).min? = some front := by
      refine List.min?_eq_some_iff.mpr
        ⟨List.mem_map.mpr ⟨first, hfirst, hplace⟩, fun position hp => ?_⟩
      obtain ⟨reader, hr, rfl⟩ := List.mem_map.mp hp
      exact (hfront reader hr).2
    unfold Cursors.unreadRun
    rw [hmin, Option.getD_some]
    omega

theorem cleared (hc : cursors.Countable) :
    ((Plan.output multiple force front kept).settled cursors).Cleared := by
  cases ha with
  | output hpos hkept hfront hat =>
    refine ⟨fun reader hr => ?_, fun reader hr => ?_, ?_⟩
    · obtain ⟨old, hold, rfl⟩ := List.mem_map.mp hr
      exact hc old hold
    · obtain ⟨old, hold, rfl⟩ := List.mem_map.mp hr
      obtain ⟨hw, hle⟩ := hfront old hold
      unfold Cursors.Wrapped at hw
      rw [wrapped_settled rfl]
      simp only [settled, landing]
      omega
    · obtain ⟨first, hfirst, rfl⟩ := hat
      exact ⟨_, List.mem_map.mpr ⟨first, hfirst, rfl⟩, Nat.sub_self _⟩

theorem due_iff (hc : cursors.Countable) :
    ((Plan.output multiple force front kept).settled cursors).Due geometry ↔
    cursors.DueBehind geometry := by
  have hkept := ha.kept_eq
  have hpassed := (ha.cleared hc).passed
  constructor
  · rintro ⟨hl, hw, ht, hends, _⟩
    exact ⟨hl, hw, ht, hkept ▸ hends⟩
  · rintro ⟨hl, hw, ht, hends⟩
    exact ⟨hl, hw, ht, hkept ▸ hends, .inr hpassed⟩

end Plan.Admissible

namespace Cursors

theorem Countable.flatRoom_of_passed (hc : cursors.Countable) (hw : cursors.writeIndex < capacity)
    (hp : ∀ reader ∈ cursors.readers, ¬ cursors.Wrapped reader) :
    cursors.flatRoom capacity = .ok (capacity - cursors.writeIndex) := by
  obtain ⟨room, hroom, hreach⟩ := hc.flatRoom_eq hw
  rcases hreach.tight with rfl | ⟨reader, hr, hwrapped, _⟩
  · exact hroom
  · exact absurd hwrapped (hp reader hr)

namespace Cleared

theorem planHistory_declined (h : cursors.Cleared)
    (hwanted : geometry.downstream - 1 + cursors.maxLookBack < Word.limit)
    (hpos : 0 < cursors.writeIndex) (plan : Plan) :
    cursors.planHistory geometry ≠ .ok (.planned plan) := by
  intro hp
  obtain ⟨first, hfirst, h0⟩ := h.at_front
  obtain ⟨decision, hdecision, hplan⟩ := h.countable.planHistory_eq hwanted
  cases hp.symm.trans hdecision
  obtain ⟨start, stop, _, hstart, hstop, _, hreader⟩ := hplan plan rfl
  -- the reader at the front is in the way
  have := hreader first hfirst
  unfold reckoned at this
  rw [if_neg (by omega)] at this
  omega

section Empty

variable (h : cursors.Cleared) (h0 : cursors.writeIndex = 0)
include h h0

theorem reckoned_eq (hr : reader ∈ cursors.readers) (stop : Nat) :
    cursors.reckoned stop reader = stop := by
  have hw := h.passed reader hr
  unfold Wrapped at hw
  exact if_pos (by omega)

variable (hwanted : geometry.downstream - 1 + cursors.maxLookBack < Word.limit)
  (hc : cursors.copied geometry < geometry.capacity)
include hwanted hc

theorem planHistory_planned : cursors.planHistory geometry = .ok (.planned (.history
    (geometry.capacity - cursors.copied geometry) geometry.capacity
    (cursors.readers.map (cursors.reckoned geometry.capacity)))) := by
  -- a writer at the front is taken for one at the end, and so is every reader
  have hend : cursors.newestEnd geometry.capacity = geometry.capacity := if_pos h0
  have hplan := h.countable.planHistory_planned hwanted (by rw [hend]; exact hc) fun reader hr => by
    rw [hend, h.reckoned_eq h0 hr]
    exact Nat.sub_le ..
  rw [hend] at hplan
  exact hplan

theorem room_of_copy (hp : cursors.planHistory geometry = .ok (.planned plan)) {event : Event}
    (hs : plan.settle cursors = .ok (others, event))
    (he : others.flatRoom geometry.capacity = .ok room) :
    room = geometry.capacity - cursors.copied geometry := by
  obtain ⟨hwrite, _⟩ := writeIndex_of_copy hp hs
  cases hp.symm.trans (h.planHistory_planned h0 hwanted hc)
  obtain ⟨hwritten, hreaders⟩ := readers_of_copy hs
  have hcountable : others.Countable := by
    intro reader hr
    obtain ⟨old, hold, rfl⟩ := hreaders reader hr
    rw [hwritten]
    exact h.countable old hold
  have hpassed : ∀ reader ∈ others.readers, ¬ others.Wrapped reader := by
    intro reader hr
    obtain ⟨old, hold, rfl⟩ := hreaders reader hr
    have hw := h.passed old hold
    rw [h.reckoned_eq h0 hold, if_pos (Nat.sub_le ..)]
    unfold Wrapped lag at *
    simp only
    omega
  rw [← hwrite] at hc ⊢
  exact Except.ok.inj (he.symm.trans (hcountable.flatRoom_of_passed hc hpassed))

end Empty

/-- The answer to a poll. -/
theorem asked (h : cursors.Cleared)
    (hwanted : geometry.downstream - 1 + cursors.maxLookBack < Word.limit)
    (hw : cursors.writeIndex < geometry.capacity) (hp : cursors.Asked geometry room others) :
    (¬ cursors.Due geometry → room = geometry.capacity - cursors.writeIndex) ∧
    (cursors.Due geometry → 0 < cursors.writeIndex → room = 0) ∧
    (cursors.Due geometry → cursors.writeIndex = 0 →
      room = geometry.capacity - cursors.copied geometry) := by
  refine ⟨fun hn => ?_, fun hd hpos => ?_, fun hd h0 => ?_⟩
  · cases hp with
    | direct _ he =>
      exact Except.ok.inj (he.symm.trans (h.countable.flatRoom_of_passed hw h.passed))
    | declined hd | copied hd => exact absurd hd hn
  · cases hp with
    | direct hn => exact absurd hd hn
    | declined => rfl
    | copied _ hplan => exact absurd hplan (h.planHistory_declined hwanted hpos _)
  · by_cases hc : cursors.copied geometry < geometry.capacity
    · cases hp with
      | direct hn => exact absurd hd hn
      | declined _ hn => exact absurd ⟨hd, _, h.planHistory_planned h0 hwanted hc⟩ hn
      | copied _ hplan hs he => exact h.room_of_copy h0 hwanted hc hplan hs he
    · -- the copy would be the whole region, and none is made
      have hchoked : cursors.Choked geometry := by
        refine ⟨hd, ?_⟩
        unfold newestEnd
        rw [if_pos h0]
        omega
      cases hp with
      | direct hn => exact absurd hd hn
      | declined => omega
      | copied _ hplan => exact absurd ⟨hd, _, hplan⟩ (hchoked.not_copies hwanted)

end Cleared

namespace Asked

theorem room_le (h : start.Asked geometry room cursors) (hc : cursors.Countable)
    (hw : cursors.writeIndex < geometry.capacity)
    (hp : ∀ reader ∈ cursors.readers, ¬ cursors.Wrapped reader) :
    room ≤ geometry.capacity - cursors.writeIndex := by
  cases h with
  | direct _ he | copied _ _ _ he =>
    exact Nat.le_of_eq (Except.ok.inj (he.symm.trans (hc.flatRoom_of_passed hw hp)))
  | declined => exact Nat.zero_le _

theorem eq_zero_of_due (h : start.Asked geometry room cursors) (hd : cursors.Due geometry)
    (hlt : cursors.copied geometry < cursors.writeIndex) : room = 0 := by
  cases h with
  | direct hn => exact absurd hd hn
  | declined => rfl
  | copied _ hp hs _ =>
    -- the writer would stand at the end of the copy
    obtain ⟨hwrite, hlookBack⟩ := writeIndex_of_copy hp hs
    unfold Cursors.copied at hlt hwrite
    rw [hlookBack] at hlt
    omega

/-- Bringing all that is unread to the front gains room, but for backpressure, where there is none
before and after, and for copies that take the room. -/
theorem gains (hbefore : start.Asked geometry room cursors) (hc : cursors.Countable)
    (hw : cursors.writeIndex < geometry.capacity)
    (hwanted : geometry.downstream - 1 + cursors.maxLookBack < Word.limit)
    (ha : (Plan.output multiple force front kept).Admissible cursors geometry.capacity)
    (hafter : ((Plan.output multiple force front kept).settled cursors).Asked geometry
      more others) :
    (cursors.Held geometry → room = 0 ∧ more = 0) ∧
    (¬ cursors.Held geometry → ¬ cursors.Undone geometry room → room < more) := by
  have hroom := hbefore.room_le hc hw ha.passed
  have hkept := ha.kept_lt
  have hrun := ha.kept_eq
  obtain ⟨hfree, hblocked, hcopy⟩ := (ha.cleared hc).asked hwanted (Nat.lt_trans hkept hw) hafter
  rw [ha.due_iff hc] at hfree hblocked hcopy
  change _ → more = geometry.capacity - kept at hfree
  change _ → 0 < kept → more = 0 at hblocked
  change _ → kept = 0 → more = geometry.capacity - cursors.copied geometry at hcopy
  constructor
  · rintro ⟨hd, hcopied⟩
    have hends := hd.ended
    have hdue : cursors.Due geometry :=
      ⟨hd.lookBack_pos, hd.written_pos, hd.tail_eq, .inl (by omega), .inr ha.passed⟩
    exact ⟨hbefore.eq_zero_of_due hdue (by omega), hblocked hd (by omega)⟩
  · intro hheld hundone
    by_cases hd : cursors.DueBehind geometry
    · rcases Nat.eq_zero_or_pos kept with h0 | hpos
      · have hmore := hcopy hd h0
        refine Nat.lt_of_not_le fun hle => hundone (.refilled hd (hrun ▸ h0) ?_ ?_) <;> omega
      · rcases Nat.lt_or_ge (cursors.copied geometry) kept with hcopied | hcopied
        · exact absurd ⟨hd, hrun ▸ hcopied⟩ hheld
        · exact absurd (.short hd (hrun ▸ hpos) (hrun ▸ hcopied)) hundone
    · rw [hfree hd]
      omega

end Asked

end Cursors

end StreamBuffer
