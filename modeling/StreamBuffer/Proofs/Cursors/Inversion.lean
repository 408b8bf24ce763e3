import StreamBuffer.Proofs.Cursors.Attachment
import StreamBuffer.Proofs.Cursors.Relocation

/-!
# What a movement has done

A cursor function that gave a result says by it what became of the cursors, without anything known
of the cursors before.
-/

namespace StreamBuffer

theorem exists_of_mapM_eq_ok {ε α β : Type} {f : α → Except ε β} : ∀ {l : List α} {r : List β},
    l.mapM f = .ok r → ∀ b ∈ r, ∃ a ∈ l, f a = .ok b
  | [], _, h, b, hb => by
    cases h
    cases hb
  | a :: l, r, h, b, hb => by
    rw [List.mapM_cons] at h
    obtain ⟨first, hf, h⟩ := bind_eq_ok.mp h
    obtain ⟨rest, hr, h⟩ := bind_eq_ok.mp h
    cases h
    rcases List.mem_cons.mp hb with rfl | hm
    · exact ⟨a, List.mem_cons_self .., hf⟩
    · obtain ⟨c, hc, he⟩ := exists_of_mapM_eq_ok hr b hm
      exact ⟨c, List.mem_cons_of_mem _ hc, he⟩

theorem eq_ok_of_mem_zip {ε α β : Type} {f : α → Except ε β} : ∀ {l : List α} {r : List β},
    l.mapM f = .ok r → ∀ pair ∈ l.zip r, f pair.1 = .ok pair.2
  | [], _, _, pair, hp => by cases hp
  | a :: l, r, h, pair, hp => by
    rw [List.mapM_cons] at h
    obtain ⟨first, hf, h⟩ := bind_eq_ok.mp h
    obtain ⟨rest, hr, h⟩ := bind_eq_ok.mp h
    cases h
    rcases List.mem_cons.mp hp with rfl | hm
    · exact hf
    · exact eq_ok_of_mem_zip hr pair hm

theorem eq_map_of_mapM_eq_ok {ε α β : Type} {f : α → Except ε β} {g : α → β} :
    ∀ {l : List α} {r : List β},
    (∀ a ∈ l, ∀ b, f a = .ok b → b = g a) → l.mapM f = .ok r → r = l.map g
  | [], _, _, h => by
    cases h
    rfl
  | a :: l, r, hg, h => by
    rw [List.mapM_cons] at h
    obtain ⟨first, hf, h⟩ := bind_eq_ok.mp h
    obtain ⟨rest, hr, h⟩ := bind_eq_ok.mp h
    cases h
    rw [hg a (List.mem_cons_self ..) first hf,
      eq_map_of_mapM_eq_ok (fun b hb => hg b (List.mem_cons_of_mem _ hb)) hr]
    rfl

theorem Ring.eq_of_advance_eq_ok {capacity position count place : Nat}
    (h : advance capacity position count = .ok place) :
    place = (position + count) % capacity := by
  unfold advance at h
  split at h
  · cases h
  obtain ⟨target, ht, h⟩ := bind_eq_ok.mp h
  obtain ⟨_, rfl⟩ := Word.add_eq_ok_iff.mp ht
  cases h
  rfl

namespace Cursors

variable {cursors others : Cursors} {reader : Reader}
variable {capacity items lookBack history delay id : Nat}
variable {event : Event} {events : List Event} {geometry : Geometry}

theorem le_of_checkHistory {checked : Unit} (h : checkHistory geometry history = .ok checked) :
    history ≤ geometry.capacity := by
  unfold checkHistory at h
  split at h
  · cases h
  · omega

theorem advanceWriter_eq_ok (he : cursors.advanceWriter capacity items = .ok (others, event)) :
    others = cursors.wrote capacity items := by
  obtain ⟨writeIndex, hw, he⟩ := bind_eq_ok.mp he
  obtain ⟨written, hn, he⟩ := bind_eq_ok.mp he
  cases he
  obtain ⟨_, rfl⟩ := Word.add_eq_ok_iff.mp hn
  rw [Ring.eq_of_advance_eq_ok hw]
  rfl

/-- Without a tail window all readers come round at the end of the region. -/
theorem nextIndex_eq_ok (ht : cursors.tail = none) {readIndex : Nat}
    (he : cursors.nextIndex capacity reader items = .ok readIndex) :
    readIndex = (reader.readIndex + items) % capacity := by
  obtain ⟨wrapped, _, he⟩ := bind_eq_ok.mp he
  obtain ⟨reached, _, he⟩ := bind_eq_ok.mp he
  rw [ht] at he
  exact Ring.eq_of_advance_eq_ok he

theorem advanceReader_eq_ok
    (he : cursors.advanceReader capacity reader items = .ok (others, event)) :
    ∃ readIndex, cursors.nextIndex capacity reader items = .ok readIndex ∧
      others = cursors.replace
        { reader with readIndex, itemsRead := reader.itemsRead + items } := by
  obtain ⟨readIndex, hn, he⟩ := bind_eq_ok.mp he
  obtain ⟨itemsRead, hi, he⟩ := bind_eq_ok.mp he
  cases he
  obtain ⟨_, rfl⟩ := Word.add_eq_ok_iff.mp hi
  exact ⟨readIndex, hn, rfl⟩

theorem refreshTail_eq_ok (he : cursors.refreshTail = .ok others) :
    others = cursors ∨ others = { cursors with tail := none } := by
  unfold refreshTail at he
  split at he
  · cases he
    exact .inl rfl
  obtain ⟨any, _, he⟩ := bind_eq_ok.mp he
  split at he
  · cases he
    exact .inl rfl
  · cases he
    exact .inr rfl

/-- Only flat storage has the cursors put back. -/
theorem raise_eq_ok (he : cursors.raise geometry lookBack delay = .ok (others, events)) :
    others = cursors.withMaxima lookBack delay ∨ geometry.mapping = .single ∧
      cursors.maxLookBack < lookBack ∧ cursors.written = 0 ∧
      others = (cursors.withMaxima lookBack delay).reserved := by
  unfold raise at he
  dsimp only at he
  split at he
  · rename_i hg
    obtain ⟨readers, hm, he⟩ := bind_eq_ok.mp he
    cases he
    refine .inr ⟨hg.2.1, hg.1, hg.2.2, ?_⟩
    rw [eq_map_of_mapM_eq_ok (g := fun old : Reader =>
      { old with readIndex := max cursors.maxLookBack lookBack - old.lookBack }) ?_ hm]
    · rfl
    · intro old _ new hnew
      obtain ⟨position, hp, hnew⟩ := bind_eq_ok.mp hnew
      cases hnew
      rw [(Word.sub_eq_ok_iff.mp hp).2]
  · cases he
    exact .inl rfl

theorem attach_eq_ok (he : cursors.attach geometry history delay = .ok (id, others, events)) :
    history ≤ geometry.capacity ∧ ∃ raised told readIndex,
      Cursors.raise { cursors with nextReader := cursors.nextReader + 1 } geometry
        (history - 1) delay = .ok (raised, told) ∧
      Ring.distance geometry.capacity raised.writeIndex (history - 1) = .ok readIndex ∧
      others = { raised with readers := raised.readers ++ [{
        id := cursors.nextReader
        readIndex
        itemsRead := raised.written
        lookBack := history - 1
        sampleDelay := delay }] } := by
  obtain ⟨_, hcheck, he⟩ := bind_eq_ok.mp he
  obtain ⟨nextReader, hid, he⟩ := bind_eq_ok.mp he
  obtain ⟨⟨raised, told⟩, hraise, he⟩ := bind_eq_ok.mp he
  obtain ⟨readIndex, hd, he⟩ := bind_eq_ok.mp he
  cases he
  obtain ⟨_, rfl⟩ := Word.add_eq_ok_iff.mp (liftM_eq_ok.mp hid)
  exact ⟨le_of_checkHistory hcheck, raised, told, readIndex, liftM_eq_ok.mp hraise,
    liftM_eq_ok.mp hd, rfl⟩

theorem detach_eq_ok (he : cursors.detach id = .ok (others, event)) :
    (cursors.without id).refreshTail = .ok others := by
  obtain ⟨kept, hk, he⟩ := bind_eq_ok.mp he
  cases he
  exact hk

end Cursors

structure Cursors.Rearranged (cursors others : Cursors) : Prop where
  written_eq : others.written = cursors.written
  maxDelay_eq : others.maxDelay = cursors.maxDelay
  maxLookBack_eq : others.maxLookBack = cursors.maxLookBack
  reader : ∀ reader ∈ others.readers, ∃ old ∈ cursors.readers, ∃ readIndex,
    reader = { old with readIndex }

theorem Plan.settle_eq_ok {plan : Plan} {cursors others : Cursors} {event : Event}
    (he : plan.settle cursors = .ok (others, event)) : cursors.Rearranged others := by
  cases plan with
  | history start stop positions =>
    obtain ⟨lagging, _, he⟩ := bind_eq_ok.mp he
    cases he
    refine ⟨rfl, rfl, rfl, fun reader hr => ?_⟩
    obtain ⟨⟨old, position⟩, hp, rfl⟩ := List.mem_map.mp (List.map_uncurry_zip_eq_zipWith ▸ hr)
    refine ⟨old, (List.of_mem_zip hp).1, ?_⟩
    by_cases hs : start ≤ position
    · exact ⟨position - start, if_pos hs⟩
    · exact ⟨old.readIndex, if_neg hs⟩
  | input required front moved wrapped =>
    obtain ⟨readers, hm, he⟩ := bind_eq_ok.mp he
    obtain ⟨writeIndex, _, he⟩ := bind_eq_ok.mp he
    cases he
    refine ⟨rfl, rfl, rfl, fun reader hr => ?_⟩
    obtain ⟨⟨old, flag⟩, hold, ho⟩ := exists_of_mapM_eq_ok hm reader hr
    refine ⟨old, (List.of_mem_zip hold).1, ?_⟩
    cases flag <;> obtain ⟨readIndex, _, ho⟩ :=
      bind_eq_ok.mp ho <;> cases ho <;> exact ⟨readIndex, rfl⟩
  | output multiple force front kept =>
    obtain ⟨readers, hm, he⟩ := bind_eq_ok.mp he
    cases he
    refine ⟨rfl, rfl, rfl, fun reader hr => ?_⟩
    obtain ⟨old, hold, ho⟩ := exists_of_mapM_eq_ok hm reader hr
    obtain ⟨readIndex, _, ho⟩ := bind_eq_ok.mp ho
    cases ho
    exact ⟨old, hold, readIndex, rfl⟩

end StreamBuffer
