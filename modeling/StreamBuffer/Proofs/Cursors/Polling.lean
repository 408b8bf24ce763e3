import StreamBuffer.Proofs.Cursors.Foresight

/-!
# Asking for room twice

Whatever callers did, a copy of look-back is not followed by another one: the writer then stands at
the end of the copy, and there is nothing before it that is not copied. So the cursors are at rest
once room was asked for. If they call for a copy all the same, there is no room the next time.
-/

namespace StreamBuffer.Cursors

def Copies (cursors : Cursors) (geometry : Geometry) : Prop :=
  cursors.Due geometry ∧ ∃ plan, cursors.planHistory geometry = .ok (.planned plan)

/-- What asking for room gives, and what it makes of the cursors, wherever they are. -/
inductive Asked (cursors : Cursors) (geometry : Geometry) : Nat → Cursors → Prop where
  | direct {room : Nat} (hd : ¬ cursors.Due geometry)
      (he : cursors.flatRoom geometry.capacity = .ok room) :
      Asked cursors geometry room cursors
  | declined (hd : cursors.Due geometry) (hn : ¬ cursors.Copies geometry) :
      Asked cursors geometry 0 cursors
  | copied {plan : Plan} {others : Cursors} {event : Event} {room : Nat} (hd : cursors.Due geometry)
      (hp : cursors.planHistory geometry = .ok (.planned plan))
      (hs : plan.settle cursors = .ok (others, event))
      (he : others.flatRoom geometry.capacity = .ok room) : Asked cursors geometry room others

variable {cursors others last : Cursors} {geometry : Geometry} {plan : Plan} {event : Event}
variable {room more : Nat}

theorem mem_copied {start stop : Nat} {reader : Reader} :
    reader ∈ cursors.readers.zipWith (fun reader position =>
      if start ≤ position then { reader with readIndex := position - start } else reader)
      (cursors.readers.map (cursors.reckoned stop)) ↔
    ∃ old ∈ cursors.readers, reader = { old with
      readIndex := if start ≤ cursors.reckoned stop old then cursors.reckoned stop old - start
        else old.readIndex } := by
  rw [List.zipWith_map_right, List.zipWith_self, List.mem_map]
  refine exists_congr fun old => and_congr_right fun _ => ?_
  split <;> exact eq_comm

theorem readers_of_copy {start stop : Nat}
    (hs : (Plan.history start stop (cursors.readers.map (cursors.reckoned stop))).settle cursors =
      .ok (others, event)) :
    others.written = cursors.written ∧ ∀ reader ∈ others.readers, ∃ old ∈ cursors.readers,
    reader = { old with
      readIndex := if start ≤ cursors.reckoned stop old then cursors.reckoned stop old - start
        else old.readIndex } := by
  obtain ⟨lagging, _, hs⟩ := bind_eq_ok.mp hs
  cases hs
  exact ⟨rfl, fun reader hr => mem_copied.mp hr⟩

theorem Countable.settle_history (hc : cursors.Countable) (start stop : Nat) :
    ∃ others event, (Plan.history start stop (cursors.readers.map (cursors.reckoned stop))).settle
      cursors = .ok (others, event) ∧ others.Countable ∧ others.maxDelay = cursors.maxDelay ∧
        (cursors.readers ≠ [] → others.readers ≠ []) := by
  generalize hreaders : cursors.readers.zipWith (fun reader position =>
    if start ≤ position then { reader with readIndex := position - start } else reader)
    (cursors.readers.map (cursors.reckoned stop)) = readers
  have hmoved : Countable { cursors with readers, writeIndex := stop - start } := by
    intro reader hr
    obtain ⟨old, hold, rfl⟩ := mem_copied.mp (hreaders ▸ hr)
    exact hc old hold
  obtain ⟨lagging, hl⟩ :
    ∃ lagging, Cursors.anyWrapped { cursors with readers, writeIndex := stop - start } =
    .ok lagging := ⟨_, hmoved.anyWrapped_eq⟩
  refine ⟨{ cursors with
    readers, writeIndex := stop - start, tail := if lagging then some ⟨start, stop⟩ else none },
    .historyRelocated start stop (stop - start) lagging, ?_, hmoved, rfl, fun hne hn => hne ?_⟩
  · subst hreaders
    exact bind_ok hl
  · change readers = [] at hn
    rw [← hreaders, List.zipWith_map_right, List.zipWith_self] at hn
    exact List.map_eq_nil_iff.mp hn

theorem writeIndex_of_copy (hp : cursors.planHistory geometry = .ok (.planned plan))
    (hs : plan.settle cursors = .ok (others, event)) :
    others.writeIndex = cursors.copied geometry ∧ others.maxLookBack = cursors.maxLookBack := by
  obtain ⟨start, stop, positions, rfl, hcopied⟩ := planHistory_eq_ok hp
  obtain ⟨lagging, _, hs⟩ := bind_eq_ok.mp hs
  cases hs
  exact ⟨by simp only; omega, rfl⟩

theorem choked_of_copy (hp : cursors.planHistory geometry = .ok (.planned plan))
    (hs : plan.settle cursors = .ok (others, event)) (hd : others.Due geometry) :
    others.Choked geometry := by
  obtain ⟨hwrite, hlookBack⟩ := writeIndex_of_copy hp hs
  refine ⟨hd, ?_⟩
  -- all that is before the writer is the copy
  unfold newestEnd copied at *
  rw [hlookBack]
  split <;> omega

theorem Choked.not_copies (hc : cursors.Choked geometry)
    (hwanted : geometry.downstream - 1 + cursors.maxLookBack < Word.limit) :
    ¬ cursors.Copies geometry :=
  fun ⟨_, plan, hplan⟩ => Dry.planHistory_declined hwanted hc.end_le plan hplan

namespace Asked

/-- **Rest.** Once room was asked for, nothing is going to be copied. -/
theorem not_copies (h : cursors.Asked geometry room others)
    (hwanted : geometry.downstream - 1 + cursors.maxLookBack < Word.limit) :
    ¬ others.Copies geometry := by
  cases h with
  | direct hd => exact fun hc => hd hc.1
  | declined _ hn => exact hn
  | copied _ hp hs _ =>
    rw [← (writeIndex_of_copy hp hs).2] at hwanted
    exact fun hc => (choked_of_copy hp hs hc.1).not_copies hwanted hc

/-- The second answer is the first, but there is no room for cursors that are choked. -/
theorem answers_again (h : cursors.Asked geometry room others)
    (hn : others.Asked geometry more last)
    (hwanted : geometry.downstream - 1 + cursors.maxLookBack < Word.limit) :
    (others.Choked geometry → more = 0) ∧ (¬ others.Choked geometry → more = room) := by
  have hrest := h.not_copies hwanted
  cases hn with
  | copied hd hp _ _ => exact absurd ⟨hd, _, hp⟩ hrest
  | direct hd he =>
    refine ⟨fun hc => absurd hc.due hd, fun _ => ?_⟩
    cases h with
    | direct _ hroom | copied _ _ _ hroom => exact Except.ok.inj (he.symm.trans hroom)
    | declined hdue => exact absurd hdue hd
  | declined hd _ =>
    refine ⟨fun _ => rfl, fun hc => ?_⟩
    cases h with
    | direct hdue => exact absurd hd hdue
    | declined => rfl
    | copied _ hp hs _ => exact absurd (choked_of_copy hp hs hd) hc

theorem not_choked (h : cursors.Asked geometry room others) (hpos : 0 < room)
    (hfits : geometry.downstream - 1 + cursors.maxLookBack + geometry.writeMultiple ≤
      geometry.capacity) :
    ¬ others.Choked geometry := by
  intro hc
  cases h with
  | direct hd => exact hd hc.due
  | declined => exact Nat.lt_irrefl 0 hpos
  | copied hd hp hs _ =>
    obtain ⟨hwrite, _⟩ := writeIndex_of_copy hp hs
    have := hd.lookBack_pos
    have := hc.due.ended
    unfold Cursors.copied at hwrite
    omega

end Asked

end StreamBuffer.Cursors
