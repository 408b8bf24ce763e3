import StreamBuffer.Proofs.Cursors.Relocation

/-!
# Drained cursors

Once all readers have consumed what was written, nothing is left to them but look-back. Where there
is no tail window, the longest lag then tells who has to come round, how much room there is, and
what is decided about a relocation.

Room is not always found. A copy of look-back that does not fit in front of its source is not made,
and neither is it made in place, where nothing would have to be moved.
-/

namespace StreamBuffer.Cursors

def Drained (cursors : Cursors) : Prop :=
  ∀ reader ∈ cursors.readers, cursors.written ≤ reader.itemsRead

instance : DecidablePred Drained := fun cursors =>
  inferInstanceAs (Decidable (∀ reader ∈ cursors.readers, cursors.written ≤ reader.itemsRead))

structure Dry (cursors : Cursors) (capacity : Nat) : Prop extends Coherent cursors capacity where
  counted : cursors.Counted
  tail_eq : cursors.tail = none
  lag_le : ∀ reader ∈ cursors.readers, cursors.lag reader ≤ cursors.maxLookBack

/-- The items before this position are the newest ones. -/
def newestEnd (cursors : Cursors) (capacity : Nat) : Nat :=
  if cursors.writeIndex = 0 then capacity else cursors.writeIndex

def copied (cursors : Cursors) (geometry : Geometry) : Nat :=
  max (geometry.downstream - 1 + cursors.maxLookBack) 1

/-- Look-back has to be copied to the front, and there is no more than that before the writer. -/
structure Choked (cursors : Cursors) (geometry : Geometry) : Prop where
  due : cursors.Due geometry
  end_le : cursors.newestEnd geometry.capacity ≤ cursors.copied geometry

/-- **No room will come**, though nothing is left to read. -/
inductive Stalled (cursors : Cursors) (geometry : Geometry) : Prop where
  /-- The region does not hold the copy and one more item. -/
  | small {most : Nat} (hm : cursors.Longest most) (hl : 0 < cursors.maxLookBack)
      (hw : 0 < cursors.written)
      (hfull : geometry.capacity ≤ geometry.downstream - 1 + cursors.maxLookBack)
      (hend : cursors.writeIndex = 0 ∨
        most = 0 ∧ geometry.capacity < cursors.writeIndex + geometry.writeMultiple)
  /-- There is nothing but the copy at the front, and no multiple fits behind what is kept of it. -/
  | short {most : Nat} (hm : cursors.Longest most) (hl : 0 < cursors.maxLookBack)
      (hw : 0 < cursors.written)
      (hpos : 0 < most) (hle : most ≤ cursors.writeIndex)
      (hfront : cursors.writeIndex ≤ geometry.downstream - 1 + cursors.maxLookBack)
      (hend : geometry.capacity < most + geometry.writeMultiple)

structure Compacted (cursors : Cursors) (capacity most : Nat) (others : Cursors) :
    Prop extends Dry others capacity where
  longest : others.Longest most
  writeIndex_eq : others.writeIndex = most
  written_eq : others.written = cursors.written
  maxLookBack_eq : others.maxLookBack = cursors.maxLookBack

variable {cursors others : Cursors} {capacity most room : Nat} {geometry : Geometry}
variable {reader : Reader} {plan : Plan}

theorem Longest.unique {other : Nat} (hm : cursors.Longest most) (ho : cursors.Longest other) :
    most = other := by
  obtain ⟨first, hfirst, rfl⟩ := hm.attained
  obtain ⟨second, hsecond, rfl⟩ := ho.attained
  exact Nat.le_antisymm (ho.le first hfirst) (hm.le second hsecond)

/-- Look-back is copied if no reader is before it. -/
theorem Countable.planHistory_planned (hn : cursors.Countable)
    (hwanted : geometry.downstream - 1 + cursors.maxLookBack < Word.limit)
    (hc : cursors.copied geometry < cursors.newestEnd geometry.capacity)
    (hbehind : ∀ reader ∈ cursors.readers,
      cursors.newestEnd geometry.capacity - cursors.copied geometry ≤
        cursors.reckoned (cursors.newestEnd geometry.capacity) reader) :
    cursors.planHistory geometry =
      .ok (.planned (.history (cursors.newestEnd geometry.capacity - cursors.copied geometry)
      (cursors.newestEnd geometry.capacity)
      (cursors.readers.map (cursors.reckoned (cursors.newestEnd geometry.capacity))))) := by
  generalize hstop : cursors.newestEnd geometry.capacity = stop at hc hbehind ⊢
  have hmap : cursors.readers.mapM (cursors.positionBefore stop) =
      .ok (cursors.readers.map (cursors.reckoned stop)) :=
    mapM_eq_ok fun reader hr => positionBefore_eq (hn reader hr)
  have hslowest : stop - cursors.copied geometry ≤
      ((cursors.readers.map (cursors.reckoned stop)).min?).getD stop := by
    cases hmin : (cursors.readers.map (cursors.reckoned stop)).min? with
    | none => exact Nat.sub_le ..
    | some least =>
      obtain ⟨reader, hr, rfl⟩ := List.mem_map.mp (List.min?_eq_some_iff.mp hmin).1
      exact hbehind reader hr
  have hkeep : min (max (geometry.downstream - 1 + cursors.maxLookBack) 1) stop =
      cursors.copied geometry :=
    Nat.min_eq_left (Nat.le_of_lt hc)
  unfold planHistory
  simp only [show (if cursors.writeIndex = 0 then geometry.capacity else cursors.writeIndex) =
    stop from hstop, Word.add_eq_ok hwanted, hmap, bind, Except.bind, pure, Except.pure]
  rw [hkeep, if_neg (by omega), if_neg (by omega)]

namespace Dry

theorem span_eq (h : cursors.Dry capacity) : cursors.span capacity = capacity :=
  span_of_no_tail h.tail_eq

theorem wrapped_iff (h : cursors.Dry capacity) (hr : reader ∈ cursors.readers) :
    cursors.Wrapped reader ↔ cursors.writeIndex < cursors.lag reader := by
  have hlag := h.lag_le reader hr
  have hlt := h.maxLookBack_lt
  constructor
  · intro hw
    have := (h.toOrdered.wrapped_iff hr).mp hw
    rw [h.span_eq] at this
    omega
  · intro hw
    apply Decidable.byContradiction
    intro hn
    have := (h.toOrdered.not_wrapped_iff hr).mp hn
    omega

/-- Nobody has to come round, or the reader that lags most has to. -/
theorem wrapped_longest (h : cursors.Dry capacity) (hm : cursors.Longest most) :
    (∃ reader ∈ cursors.readers, cursors.Wrapped reader) ↔ cursors.writeIndex < most := by
  constructor
  · rintro ⟨reader, hr, hw⟩
    exact Nat.lt_of_lt_of_le ((h.wrapped_iff hr).mp hw) (hm.le reader hr)
  · intro hlt
    obtain ⟨reader, hr, rfl⟩ := hm.attained
    exact ⟨reader, hr, (h.wrapped_iff hr).mpr hlt⟩

theorem longest_le (h : cursors.Dry capacity) (hm : cursors.Longest most) :
    most ≤ cursors.maxLookBack := by
  obtain ⟨reader, hr, rfl⟩ := hm.attained
  exact h.lag_le reader hr

theorem flatRoom_eq (h : cursors.Dry capacity) (hm : cursors.Longest most) :
    cursors.flatRoom capacity = .ok (capacity - max cursors.writeIndex most) :=
  h.toOrdered.flatRoom_of_no_tail (h.counted.countable h.toOrdered) h.tail_eq hm

/-! ## Relocations -/

theorem settled (h : cursors.Dry capacity) (ha : plan.Admissible cursors capacity)
    (ht : (plan.settled cursors).tail = none) : (plan.settled cursors).Dry capacity := by
  refine ⟨Plan.coherent_settled h.toCoherent ha, h.counted, ht, fun reader hr => ?_⟩
  obtain ⟨old, hold, rfl⟩ := List.mem_map.mp hr
  exact h.lag_le old hold

theorem longest_settled (hm : cursors.Longest most) : (plan.settled cursors).Longest most := by
  obtain ⟨⟨first, hfirst, hlag⟩, hle⟩ := hm
  refine ⟨⟨_, List.mem_map.mpr ⟨first, hfirst, rfl⟩, hlag⟩, fun reader hr => ?_⟩
  obtain ⟨old, hold, rfl⟩ := List.mem_map.mp hr
  exact hle old hold

theorem newestEnd_le (h : cursors.Dry capacity) : cursors.newestEnd capacity ≤ capacity := by
  have := h.writeIndex_lt
  unfold newestEnd
  split <;> omega

section History

variable (h : cursors.Dry geometry.capacity) (hd : cursors.Due geometry)
  (hwanted : geometry.downstream - 1 + cursors.maxLookBack < Word.limit)

include hwanted in
theorem planHistory_declined (hc : cursors.newestEnd geometry.capacity ≤ cursors.copied geometry)
    (plan : Plan) :
    cursors.planHistory geometry ≠ .ok (.planned plan) := by
  unfold newestEnd copied at hc
  unfold planHistory
  simp only [Word.add_eq_ok hwanted, bind, Except.bind, pure, Except.pure]
  rw [if_pos (by omega)]
  exact nofun

include h hd hwanted in
/-- All readers look at nothing older than what is copied, so that nobody is in the way and nobody
lags behind the copy. -/
theorem planHistory_planned (hc : cursors.copied geometry < cursors.newestEnd geometry.capacity) :
    ∃ plan, cursors.planHistory geometry = .ok (.planned plan) ∧
      (plan.settled cursors).Dry geometry.capacity ∧
      (plan.settled cursors).writeIndex = cursors.copied geometry := by
  have hend := h.newestEnd_le
  have hreader : ∀ reader ∈ cursors.readers,
      cursors.reckoned (cursors.newestEnd geometry.capacity) reader +
      cursors.lag reader = cursors.newestEnd geometry.capacity :=
    fun reader hr => reckoned_add_lag h.toOrdered h.tail_eq hd.passed rfl hr
  have hbehind : ∀ reader ∈ cursors.readers,
      cursors.newestEnd geometry.capacity - cursors.copied geometry ≤
      cursors.reckoned (cursors.newestEnd geometry.capacity) reader := by
    intro reader hr
    have := hreader reader hr
    have := h.lag_le reader hr
    unfold copied
    omega
  refine ⟨_, (h.counted.countable h.toOrdered).planHistory_planned hwanted hc hbehind, ?_, ?_⟩
  · have hpos : 0 < cursors.copied geometry := by unfold copied; omega
    have hadmissible : Plan.Admissible cursors geometry.capacity
        (.history (cursors.newestEnd geometry.capacity - cursors.copied geometry)
          (cursors.newestEnd geometry.capacity)
          (cursors.readers.map (cursors.reckoned (cursors.newestEnd geometry.capacity)))) :=
      .history (by omega) (by omega) hend h.tail_eq hd.written_pos fun reader hr =>
        ⟨hreader reader hr, Nat.le_trans (Nat.min_le_left ..) (hbehind reader hr)⟩
    refine h.settled hadmissible (if_neg ?_)
    rintro ⟨reader, hr, hlags⟩
    exact absurd (hbehind reader hr) (Nat.not_le_of_lt hlags)
  · exact Nat.sub_sub_self (Nat.le_of_lt hc)

end History

theorem not_wrapped (h : cursors.Dry capacity) (hm : cursors.Longest most)
    (hlt : most < cursors.writeIndex) :
    ∀ reader ∈ cursors.readers, ¬ cursors.Wrapped reader := fun reader hr hw =>
  Nat.lt_asymm hlt ((h.wrapped_longest hm).mp ⟨reader, hr, hw⟩)

/-- With nobody to come round, the reader that lags most is the first. -/
theorem first_eq (h : cursors.Dry capacity) (hm : cursors.Longest most)
    (hlt : most < cursors.writeIndex) :
    (cursors.readers.map (·.readIndex)).min? = some (cursors.writeIndex - most) := by
  have hplace : ∀ reader ∈ cursors.readers, reader.readIndex + cursors.lag reader =
      cursors.writeIndex :=
    fun reader hr => (h.toOrdered.not_wrapped_iff hr).mp (h.not_wrapped hm hlt reader hr)
  refine List.min?_eq_some_iff.mpr ⟨?_, fun position hp => ?_⟩
  · obtain ⟨first, hfirst, rfl⟩ := hm.attained
    have := hplace first hfirst
    exact List.mem_map.mpr ⟨first, hfirst, by omega⟩
  · obtain ⟨reader, hr, rfl⟩ := List.mem_map.mp hp
    have := hplace reader hr
    have := hm.le reader hr
    omega

/-- Unread look-back comes to the front, unless it is there or somebody has to come round. -/
theorem planOutput_planned (h : cursors.Dry geometry.capacity) (hm : cursors.Longest most)
    {multiple : Nat} {force : Bool}
    (hwish : force = true ∨ 0 < geometry.capacity - max cursors.writeIndex most ∧
      geometry.capacity - max cursors.writeIndex most < multiple)
    (hlt : most < cursors.writeIndex) :
    ∃ plan, cursors.planOutput geometry multiple force = .ok (.planned plan) ∧
      cursors.Compacted geometry.capacity most (plan.settled cursors) := by
  have hempty : cursors.readers.isEmpty = false := by
    obtain ⟨first, hfirst, _⟩ := hm.attained
    exact List.isEmpty_eq_false_iff.mpr (List.ne_nil_of_mem hfirst)
  have hany : (cursors.readers.any fun reader => decide (cursors.Wrapped reader)) = false :=
    List.any_eq_false.mpr fun reader hr => by simpa using h.not_wrapped hm hlt reader hr
  have hplan : cursors.planOutput geometry multiple force =
      .ok (.planned (.output multiple force (cursors.writeIndex - most) most)) := by
    unfold planOutput
    simp only [hempty, h.flatRoom_eq hm, (h.counted.countable h.toOrdered).anyWrapped_eq, hany,
      h.first_eq hm hlt,
      Option.getD_some, bind, Except.bind, pure, Except.pure, if_pos hwish, Bool.false_eq_true,
      if_false]
    rw [if_neg (by omega), Word.sub_eq_ok (Nat.sub_le ..), Nat.sub_sub_self (Nat.le_of_lt hlt)]
  obtain ⟨decision, hdecision, hadmissible⟩ :=
    Cursors.planOutput_eq h.toOrdered h.counted multiple force
  cases hplan.symm.trans hdecision
  exact ⟨_, hplan, h.settled (hadmissible _ rfl) h.tail_eq, longest_settled hm, rfl, rfl, rfl⟩

theorem planOutput_declined (h : cursors.Dry geometry.capacity) (hm : cursors.Longest most)
    {multiple : Nat} {force : Bool} (hle : cursors.writeIndex ≤ most) (plan : Plan) :
    cursors.planOutput geometry multiple force ≠ .ok (.planned plan) := by
  intro he
  obtain ⟨first, hfirst, rfl⟩ := hm.attained
  unfold planOutput at he
  split at he
  · cases he
  obtain ⟨room, _, he⟩ := bind_eq_ok.mp he
  split at he
  · obtain ⟨any, hany, he⟩ := bind_eq_ok.mp he
    rw [(h.counted.countable h.toOrdered).anyWrapped_eq] at hany
    cases hany
    split at he
    · cases he
    rename_i hnone
    have hw : ¬ cursors.Wrapped first :=
      fun hw => hnone (List.any_eq_true.mpr ⟨first, hfirst, by simpa using hw⟩)
    have := (h.toOrdered.not_wrapped_iff hfirst).mp hw
    have hfront := List.min?_getD_le_of_mem (k := 0)
      (List.mem_map_of_mem (f := (·.readIndex)) hfirst)
    dsimp only at he
    rw [if_pos (by omega)] at he
    cases he
  · cases he

/-! ## Asking for room -/

/-- There is no need to copy look-back while a multiple fits before the end, nor while somebody has
to come round. -/
theorem not_due (h : cursors.Dry geometry.capacity) (hm : cursors.Longest most)
    (hd : ¬ cursors.Due geometry) (hl : 0 < cursors.maxLookBack) (hw : 0 < cursors.written) :
    0 < cursors.writeIndex ∧
      (cursors.writeIndex + geometry.writeMultiple ≤ geometry.capacity ∨
        cursors.writeIndex < most) := by
  rcases Nat.eq_zero_or_pos cursors.writeIndex with h0 | hpos
  · exact absurd ⟨hl, hw, h.tail_eq, .inr h0, .inl h0⟩ hd
  refine ⟨hpos, ?_⟩
  rcases Nat.lt_or_ge cursors.writeIndex most with hlt | hle
  · exact .inr hlt
  rcases Nat.lt_or_ge geometry.capacity (cursors.writeIndex + geometry.writeMultiple) with hend |
    hfits
  · refine absurd ⟨hl, hw, h.tail_eq, .inl hend, .inr fun reader hr hw => ?_⟩ hd
    exact Nat.not_lt_of_le hle ((h.wrapped_longest hm).mp ⟨reader, hr, hw⟩)
  · exact .inl hfits

/-- What is choked, told from the writer and the longest lag alone. -/
theorem choked_iff (h : cursors.Dry geometry.capacity) (hm : cursors.Longest most) :
    cursors.Choked geometry ↔
    0 < cursors.maxLookBack ∧ 0 < cursors.written ∧
      (cursors.writeIndex = 0 ∧ geometry.capacity ≤ geometry.downstream - 1 + cursors.maxLookBack ∨
        0 < cursors.writeIndex ∧ most ≤ cursors.writeIndex ∧
          geometry.capacity < cursors.writeIndex + geometry.writeMultiple ∧
          cursors.writeIndex ≤ geometry.downstream - 1 + cursors.maxLookBack) := by
  have hpassed : (∀ reader ∈ cursors.readers, ¬ cursors.Wrapped reader) ↔
      most ≤ cursors.writeIndex := by
    rw [← Nat.not_lt, ← h.wrapped_longest hm]
    simp
  constructor
  · rintro ⟨hd, hend⟩
    have hl := hd.lookBack_pos
    have hends := hd.ended
    have hle := hd.passed.imp_right hpassed.mp
    unfold newestEnd copied at hend
    refine ⟨hl, hd.written_pos, ?_⟩
    split at hend <;> omega
  · rintro ⟨hl, hw, hends⟩
    refine ⟨⟨hl, hw, h.tail_eq, by omega, ?_⟩, ?_⟩
    · exact hends.imp And.left fun hr => hpassed.mpr hr.2.1
    · unfold newestEnd copied
      split <;> omega

theorem polled_of_choked (hwanted : geometry.downstream - 1 + cursors.maxLookBack < Word.limit)
    (hc : cursors.Choked geometry) (hp : cursors.Polled geometry room others) :
    room = 0 ∧ others = cursors := by
  cases hp with
  | direct hd => exact absurd hc.due hd
  | declined => exact ⟨rfl, rfl⟩
  | copied _ hp => exact absurd hp (planHistory_declined hwanted hc.end_le _)

/-- All else leaves room: what the writer and the longest lag leave, or what the copy leaves. -/
theorem polled_of_not_choked (h : cursors.Dry geometry.capacity) (hm : cursors.Longest most)
    (hwanted : geometry.downstream - 1 + cursors.maxLookBack < Word.limit)
    (hc : ¬ cursors.Choked geometry) (hp : cursors.Polled geometry room others) :
    ¬ cursors.Due geometry ∧ others = cursors ∧
    room = geometry.capacity - max cursors.writeIndex most ∨
      cursors.Due geometry ∧ cursors.copied geometry < geometry.capacity ∧
        room = geometry.capacity - cursors.copied geometry := by
  have hfits : cursors.Due geometry →
      cursors.copied geometry < cursors.newestEnd geometry.capacity :=
    fun hd => Nat.lt_of_not_le fun hle => hc ⟨hd, hle⟩
  cases hp with
  | direct hd he =>
    cases he.symm.trans (h.flatRoom_eq hm)
    exact .inl ⟨hd, rfl, rfl⟩
  | declined hd hn =>
    obtain ⟨plan, hplan, _⟩ := h.planHistory_planned hd hwanted (hfits hd)
    exact absurd hplan (hn plan)
  | @copied plan _ hd hplan he =>
    obtain ⟨same, hsame, hdry, hwrite⟩ := h.planHistory_planned hd hwanted (hfits hd)
    cases hplan.symm.trans hsame
    have hmost : most ≤ cursors.copied geometry := by
      have := h.longest_le hm
      unfold Cursors.copied
      omega
    cases he.symm.trans (hdry.flatRoom_eq (longest_settled hm))
    rw [hwrite, Nat.max_eq_left hmost]
    exact .inr ⟨hd, Nat.lt_of_lt_of_le (hfits hd) h.newestEnd_le, rfl⟩

theorem room_pos (h : cursors.Dry geometry.capacity) (hm : cursors.Longest most)
    (hwanted : geometry.downstream - 1 + cursors.maxLookBack < Word.limit)
    (hc : ¬ cursors.Choked geometry) (hp : cursors.Polled geometry room others) : 0 < room := by
  have hlt := h.writeIndex_lt
  have hmost := h.longest_le hm
  have hlookBack := h.maxLookBack_lt
  rcases h.polled_of_not_choked hm hwanted hc hp with ⟨_, _, rfl⟩ | ⟨_, hcopied, rfl⟩ <;> omega

/-- What is choked but not stalled has room once unread look-back came to the front. -/
theorem relieved (h : cursors.Dry geometry.capacity) (hm : cursors.Longest most)
    (hc : cursors.Choked geometry) (hs : ¬ cursors.Stalled geometry) : most < cursors.writeIndex ∧
      ∀ others, cursors.Compacted geometry.capacity most others → ¬ others.Choked geometry := by
  obtain ⟨hl, hw, hends⟩ := (h.choked_iff hm).mp hc
  rcases hends with ⟨h0, hfull⟩ | ⟨hpos, hle, hend, hfront⟩
  · exact absurd (.small hm hl hw hfull (.inl h0)) hs
  refine ⟨Nat.lt_of_le_of_ne hle ?_, fun others ho hchoked => hs ?_⟩
  · rintro rfl
    exact hs (.short hm hl hw hpos (Nat.le_refl _) hfront hend)
  obtain ⟨_, _, hafter⟩ := (ho.choked_iff ho.longest).mp hchoked
  rw [ho.writeIndex_eq, ho.maxLookBack_eq] at hafter
  rcases hafter with ⟨h0, hfull⟩ | ⟨hmost, _, hshort, _⟩
  · exact .small hm hl hw hfull (.inr ⟨h0, hend⟩)
  · exact .short hm hl hw hmost hle hfront hshort

/-- With a margin there is a whole multiple, unless nobody looks back and the writer is near the
end. -/
theorem offers (h : cursors.Dry geometry.capacity) (hm : cursors.Longest most)
    (hwanted : geometry.downstream - 1 + cursors.maxLookBack < Word.limit)
    (hfits : geometry.writeMultiple + (geometry.downstream - 1) + cursors.maxLookBack ≤
      geometry.capacity)
    (hfront : cursors.written = 0 → cursors.writeIndex ≤ cursors.maxLookBack)
    (hp : cursors.Polled geometry room others) : geometry.writeMultiple ≤ room ∨
      others = cursors ∧ cursors.maxLookBack = 0 ∧ most < cursors.writeIndex ∧
        0 < geometry.capacity - max cursors.writeIndex most ∧
        geometry.capacity - max cursors.writeIndex most < geometry.writeMultiple := by
  have hlt := h.writeIndex_lt
  have hmost := h.longest_le hm
  -- choked, the copy of look-back leaves no multiple, against `hfits`
  by_cases hc : cursors.Choked geometry
  · obtain ⟨_, _, hends⟩ := (h.choked_iff hm).mp hc
    omega
  rcases h.polled_of_not_choked hm hwanted hc hp with ⟨hd, rfl, rfl⟩ | ⟨hd, _, rfl⟩
  · rcases Nat.eq_zero_or_pos others.maxLookBack with hl | hl
    · rcases Nat.lt_or_ge
        (geometry.capacity - max others.writeIndex most) geometry.writeMultiple with hshort | hfits
      · exact .inr ⟨rfl, hl, by omega, by omega, hshort⟩
      · exact .inl hfits
    rcases Nat.eq_zero_or_pos others.written with h0 | hw
    · have := hfront h0
      omega
    · have := h.not_due hm hd hl hw
      omega
  · have := hd.lookBack_pos
    unfold copied
    omega

end Dry

namespace Stalled

theorem choked (hs : cursors.Stalled geometry) (h : cursors.Dry geometry.capacity) :
    cursors.Choked geometry := by
  have hlt := h.writeIndex_lt
  cases hs with
  | small hm hl hw hfull hend => exact (h.choked_iff hm).mpr ⟨hl, hw, by omega⟩
  | short hm hl hw hpos hle hfront hend => exact (h.choked_iff hm).mpr ⟨hl, hw, by omega⟩

/-- To bring unread look-back to the front is of no use. -/
theorem compacted (hs : cursors.Stalled geometry) (hm : cursors.Longest most)
    (hlt : most < cursors.writeIndex) (hc : cursors.Compacted geometry.capacity most others) :
    others.Stalled geometry := by
  have hplace := hc.writeIndex_eq
  have hlookBack := hc.maxLookBack_eq
  cases hs with
  | small ho hl hw hfull hend =>
    cases hm.unique ho
    exact .small hc.longest (hlookBack ▸ hl) (hc.written_eq ▸ hw) (by omega) (.inl (by omega))
  | short ho hl hw hpos hle hfront hend =>
    cases hm.unique ho
    exact .short hc.longest (hlookBack ▸ hl) (hc.written_eq ▸ hw) hpos (Nat.le_of_eq hplace.symm)
      (by omega) hend

/-- Capacity for the longest look-back and a multiple more, written or read, excludes it. -/
theorem capacity_lt (hs : cursors.Stalled geometry) (h : cursors.Dry geometry.capacity) :
    geometry.capacity < cursors.maxLookBack + max geometry.downstream geometry.writeMultiple := by
  have hlookBack := h.maxLookBack_lt
  cases hs with
  | small hm hl hw hfull hend => omega
  | short hm hl hw hpos hle hfront hend =>
    have := h.longest_le hm
    omega

end Stalled

end StreamBuffer.Cursors
