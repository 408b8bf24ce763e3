import StreamBuffer.Cursors.Relocation
import StreamBuffer.Proofs.Cursors.Movement

/-!
# Relocations keep the cursors coherent

`Plan.Admissible` says what is true of a plan that was decided on for coherent cursors. Its moves
then stay in the region, it can be settled, and no reader gains or loses an item by it.
-/

namespace StreamBuffer

structure ItemMove.Fits (move : ItemMove) (capacity : Nat) : Prop where
  source_le : move.source + move.count ≤ capacity
  target_le : move.target + move.count ≤ capacity
  apart : move.overlapping = false → move.target + move.count ≤ move.source

namespace Cursors

/-- The position of a reader for a copy of the items before `stop`. A reader that has nothing left
has read them all. -/
def reckoned (cursors : Cursors) (stop : Nat) (reader : Reader) : Nat :=
  if reader.readIndex = cursors.writeIndex ∧ cursors.lag reader = 0 then stop else reader.readIndex

theorem reckoned_of_lt {cursors : Cursors} {stop : Nat} {reader : Reader}
    (h : cursors.reckoned stop reader < stop) :
    cursors.reckoned stop reader = reader.readIndex := by
  unfold reckoned at h ⊢
  split
  · rw [if_pos ‹_›] at h
    omega
  · rfl

end Cursors

namespace Plan

/-- What is true of a plan that was decided on. -/
inductive Admissible (cursors : Cursors) (capacity : Nat) : Plan → Prop where
  | history {start stop : Nat} (hstart : 0 < start) (hstop : start < stop) (hle : stop ≤ capacity)
      (htail : cursors.tail = none) (hwritten : 0 < cursors.written)
      (hreader : ∀ reader ∈ cursors.readers,
        cursors.reckoned stop reader + cursors.lag reader = stop ∧
          min start (stop - start) ≤ cursors.reckoned stop reader) :
      Admissible cursors capacity
        (.history start stop (cursors.readers.map (cursors.reckoned stop)))
  | input {required front moved : Nat} (hmoved : 0 < moved)
      (hspan : front + moved = cursors.span capacity) (hroom : cursors.writeIndex + moved ≤ front)
      (hfront : ∀ reader ∈ cursors.readers, cursors.Wrapped reader → front ≤ reader.readIndex)
      (hat : ∃ reader ∈ cursors.readers, cursors.Wrapped reader ∧ reader.readIndex = front) :
      Admissible cursors capacity
        (.input required front moved
          (cursors.readers.map fun reader => decide (cursors.Wrapped reader)))
  | output {multiple front kept : Nat} {force : Bool} (hpos : 0 < front)
      (hkept : front + kept = cursors.writeIndex)
      (hfront : ∀ reader ∈ cursors.readers, ¬ cursors.Wrapped reader ∧ front ≤ reader.readIndex)
      (hat : ∃ reader ∈ cursors.readers, reader.readIndex = front) :
      Admissible cursors capacity (.output multiple force front kept)

def landing (plan : Plan) (cursors : Cursors) (reader : Reader) : Nat :=
  match plan with
  | history start stop _ =>
    if start ≤ cursors.reckoned stop reader then cursors.reckoned stop reader - start
    else reader.readIndex
  | input _ front moved _ =>
    if cursors.Wrapped reader then reader.readIndex - front else reader.readIndex + moved
  | output _ _ front _ => reader.readIndex - front

def Lags (cursors : Cursors) (start stop : Nat) : Prop :=
  ∃ reader ∈ cursors.readers, cursors.reckoned stop reader < start

instance (cursors : Cursors) (start stop : Nat) : Decidable (Lags cursors start stop) :=
  inferInstanceAs (Decidable (∃ reader ∈ cursors.readers, cursors.reckoned stop reader < start))

def settled (plan : Plan) (cursors : Cursors) : Cursors :=
  { cursors with
    writeIndex :=
      match plan with
      | history start stop _ => stop - start
      | input _ _ moved _ => cursors.writeIndex + moved
      | output _ _ _ kept => kept
    readers := cursors.readers.map
      fun reader => { reader with readIndex := plan.landing cursors reader }
    tail :=
      match plan with
      | history start stop _ => if Lags cursors start stop then some ⟨start, stop⟩ else none
      | input .. => none
      | output .. => cursors.tail }

variable {cursors : Cursors} {capacity : Nat} {plan : Plan} {reader : Reader}

theorem moves_fit (h : cursors.Ordered capacity) (ha : Admissible cursors capacity plan) :
    ∀ move ∈ plan.moves cursors.writeIndex, move.Fits capacity := by
  obtain ⟨h1, h2, h3, h4⟩ := h.ring
  have hw := h.writeIndex_lt
  intro move hm
  cases ha with
  | @history start stop hstart hstop hle _ _ _ =>
    rw [List.mem_singleton.mp hm]
    refine ⟨by simp only; omega, by simp only; omega, fun hapart => ?_⟩
    have := of_decide_eq_false hapart
    simp only
    omega
  | @input required front moved hmoved hspan hroom _ _ =>
    rcases List.mem_cons.mp hm with rfl | hm
    · exact ⟨by simp only; omega, by simp only; omega, nofun⟩
    · rw [List.mem_singleton.mp hm]
      exact ⟨by simp only; omega, by simp only; omega, fun _ => by simp only; omega⟩
  | @output multiple front kept force hpos hkept _ _ =>
    rw [List.mem_singleton.mp hm]
    exact ⟨by simp only; omega, by simp only; omega, nofun⟩

/-! ## The cursors after a relocation -/

theorem lag_settled {position : Nat} :
    (plan.settled cursors).lag { reader with readIndex := position } = cursors.lag reader := rfl

theorem wrapped_settled {other : Reader} {position : Nat}
    (ho : other = { reader with readIndex := position }) :
    (plan.settled cursors).Wrapped other ↔ (plan.settled cursors).writeIndex < position ∨
      position = (plan.settled cursors).writeIndex ∧ 0 < cursors.lag reader := by
  subst ho
  rfl

theorem writeIndex_settled_lt (h : cursors.Ordered capacity)
    (ha : Admissible cursors capacity plan) :
    (plan.settled cursors).writeIndex < capacity := by
  have hring := h.ring
  have hlt := h.writeIndex_lt
  cases ha with
  | history hstart hstop hle _ _ _ => simp only [settled]; omega
  | input hmoved hspan hroom _ _ => simp only [settled]; omega
  | output hpos hkept _ _ => simp only [settled]; omega

/-- A copy that a reader lags behind does not reach its own source. -/
theorem Lags.lt {start stop : Nat} (hl : Lags cursors start stop)
    (hreader : ∀ reader ∈ cursors.readers,
      cursors.reckoned stop reader + cursors.lag reader = stop ∧
      min start (stop - start) ≤ cursors.reckoned stop reader) :
    stop - start < start := by
  obtain ⟨reader, hr, hbehind⟩ := hl
  have := hreader reader hr
  omega

theorem placed_settled (h : cursors.Coherent capacity) (ha : Admissible cursors capacity plan)
    (hr : reader ∈ cursors.readers) :
    (plan.settled cursors).Placed capacity
      { reader with readIndex := plan.landing cursors reader } := by
  have hring := h.ring
  refine ⟨(h.placed reader hr).read_le, ?_⟩
  rw [lag_settled]
  cases ha with
  | @history start stop hstart hstop hle _ _ hreader =>
    obtain ⟨hpos, hfloor⟩ := hreader reader hr
    simp only [landing]
    split
    · exact .inl (by simp only [settled]; omega)
    · -- a reader that stays lags behind the copy, and so there is a tail window
      have hl : Lags cursors start stop := ⟨reader, hr, by omega⟩
      have := hl.lt hreader
      have := cursors.reckoned_of_lt (show cursors.reckoned stop reader < stop by omega)
      simp only [settled, Cursors.span, if_pos hl]
      omega
  | @input required front moved hmoved hspan hroom hfront _ =>
    left
    simp only [landing, settled]
    split
    · have := (h.wrapped_iff hr).mp ‹_›
      have := hfront reader hr ‹_›
      omega
    · have := (h.not_wrapped_iff hr).mp ‹_›
      omega
  | @output multiple front kept force hpos hkept hfront _ =>
    left
    obtain ⟨hw, hle⟩ := hfront reader hr
    have := (h.not_wrapped_iff hr).mp hw
    simp only [landing, settled]
    omega

/-- Only look-back that was copied leaves a tail window, and only for readers that lag behind. -/
theorem window_settled (h : cursors.Coherent capacity) (ha : Admissible cursors capacity plan)
    {tail : Tail} (ht : (plan.settled cursors).tail = some tail) :
    (plan.settled cursors).Window capacity tail ∧ ∃ reader ∈ cursors.readers,
      (plan.settled cursors).Wrapped { reader with readIndex := plan.landing cursors reader } := by
  cases ha with
  | @history start stop hstart hstop hle htail hwritten hreader =>
    simp only [settled] at ht
    split at ht
    · have hlt := Lags.lt ‹_› hreader
      cases ht
      refine ⟨⟨hstop, hle, by simp only [settled]; omega, by simp only [settled]; omega, hwritten⟩,
        ?_⟩
      obtain ⟨reader, hr, hpos⟩ := ‹Lags cursors start stop›
      refine ⟨reader, hr, (wrapped_settled rfl).mpr ?_⟩
      obtain ⟨hsum, hfloor⟩ := hreader reader hr
      have := cursors.reckoned_of_lt (show cursors.reckoned stop reader < stop by omega)
      simp only [settled, landing, if_neg (show ¬ start ≤ cursors.reckoned stop reader by omega)]
      omega
    · cases ht
  | input => cases ht
  | @output multiple front kept force hpos hkept hfront _ =>
    obtain ⟨reader, hr, hw⟩ :=
      h.lagging (show cursors.tail ≠ none from ht ▸ Option.some_ne_none tail)
    exact absurd hw (hfront reader hr).1

theorem coherent_settled (h : cursors.Coherent capacity) (ha : Admissible cursors capacity plan) :
    (plan.settled cursors).Coherent capacity := by
  have hids : (plan.settled cursors).readers.map (·.id) = cursors.readers.map (·.id) := by
    simp only [settled, List.map_map]
    rfl
  have hmem : ∀ {motive : Reader → Prop}, (∀ reader ∈ cursors.readers,
      motive { reader with readIndex := plan.landing cursors reader }) →
      ∀ other ∈ (plan.settled cursors).readers, motive other := by
    intro motive hall other hm
    obtain ⟨reader, hr, rfl⟩ := List.mem_map.mp hm
    exact hall reader hr
  refine ⟨⟨writeIndex_settled_lt h.toOrdered ha, hmem fun reader hr => placed_settled h ha hr,
    hmem fun reader hr => h.lookBack_le reader hr, h.maxLookBack_lt, hids ▸ h.ids_nodup,
    hmem fun reader hr => h.id_lt reader hr, fun tail ht => (window_settled h ha ht).1⟩, ?_⟩
  intro ht
  obtain ⟨tail, ht⟩ := Option.ne_none_iff_exists'.mp ht
  obtain ⟨reader, hr, hw⟩ := (window_settled h ha ht).2
  exact ⟨_, List.mem_map.mpr ⟨reader, hr, rfl⟩, hw⟩

/-! ## The plan is carried out as it says -/

section History

variable {start stop : Nat}

theorem wrapped_copied (h : cursors.Ordered capacity) (hstop : start < stop)
    (hreader : ∀ reader ∈ cursors.readers,
      cursors.reckoned stop reader + cursors.lag reader = stop ∧
      min start (stop - start) ≤ cursors.reckoned stop reader)
    (hr : reader ∈ cursors.readers) :
    Cursors.Wrapped { cursors with writeIndex := stop - start } { reader with
      readIndex := if start ≤ cursors.reckoned stop reader then cursors.reckoned stop reader - start
        else reader.readIndex } ↔ cursors.reckoned stop reader < start := by
  obtain ⟨hpos, hfloor⟩ := hreader reader hr
  have := (h.placed reader hr).read_le
  unfold Cursors.lag at hpos
  unfold Cursors.Wrapped Cursors.lag
  simp only
  split
  · omega
  · have := cursors.reckoned_of_lt (show cursors.reckoned stop reader < stop by omega)
    omega

theorem anyWrapped_copied (h : cursors.Ordered capacity) (hc : cursors.Counted)
    (hstop : start < stop)
    (hreader : ∀ reader ∈ cursors.readers,
      cursors.reckoned stop reader + cursors.lag reader = stop ∧
      min start (stop - start) ≤ cursors.reckoned stop reader) :
    Cursors.anyWrapped { cursors with
      writeIndex := stop - start
      readers := cursors.readers.map fun reader => { reader with
        readIndex := if start ≤ cursors.reckoned stop reader
          then cursors.reckoned stop reader - start
          else reader.readIndex } } = .ok (decide (Lags cursors start stop)) := by
  refine (anyM_eq_ok (p := fun other =>
    decide (Cursors.Wrapped { cursors with writeIndex := stop - start } other))
      fun other hm => ?_).trans
    (congrArg Except.ok (Bool.eq_iff_iff.mpr ?_))
  · obtain ⟨reader, hr, rfl⟩ := List.mem_map.mp hm
    have := hc.lookBack h hr
    exact Cursors.isWrapped_eq this
  · simp only [List.any_map, List.any_eq_true, Function.comp, decide_eq_true_eq]
    constructor
    · rintro ⟨reader, hr, hw⟩
      exact ⟨reader, hr, (wrapped_copied h hstop hreader hr).mp hw⟩
    · rintro ⟨reader, hr, hl⟩
      exact ⟨reader, hr, (wrapped_copied h hstop hreader hr).mpr hl⟩

end History

theorem shifted_eq (h : cursors.Ordered capacity) {front moved : Nat}
    (hroom : cursors.writeIndex + moved < Word.limit)
    (hfront : ∀ reader ∈ cursors.readers, cursors.Wrapped reader → front ≤ reader.readIndex) :
    (cursors.readers.zip
      (cursors.readers.map fun reader => decide (cursors.Wrapped reader))).mapM (fun pair => do
        let readIndex ←
          if pair.2 then Word.sub pair.1.readIndex front else Word.add pair.1.readIndex moved
        return ({ pair.1 with readIndex } : Reader) : _ → Checked Reader) =
      .ok (cursors.readers.map fun reader => { reader with
        readIndex := if cursors.Wrapped reader then reader.readIndex - front
          else reader.readIndex + moved }) := by
  rw [zip_map_self, List.mapM_map]
  apply mapM_eq_ok
  intro reader hr
  have hlt := h.readIndex_lt hr
  simp only [Function.comp, decide_eq_true_eq]
  split
  · rw [Word.sub_eq_ok (hfront reader hr ‹_›)]
    rfl
  · have := (h.not_wrapped_iff hr).mp ‹_›
    rw [Word.add_eq_ok (by omega)]
    rfl

theorem settle_output {multiple front kept : Nat} {force : Bool}
    (ha : (output multiple force front kept).Admissible cursors capacity) :
    (output multiple force front kept).settle cursors =
      .ok ((output multiple force front kept).settled cursors,
        .compacted multiple force front kept) := by
  cases ha with
  | output _ _ hfront _ =>
    have hmap : cursors.readers.mapM (fun reader => do
          return { reader with readIndex := ← Word.sub reader.readIndex front } : _ →
          Checked Reader) =
        .ok (cursors.readers.map fun reader =>
          { reader with readIndex := reader.readIndex - front }) := by
      apply mapM_eq_ok
      intro reader hr
      rw [Word.sub_eq_ok (hfront reader hr).2]
      rfl
    exact bind_ok hmap

theorem settle_eq (h : cursors.Coherent capacity) (hc : cursors.Counted)
    (hcap : capacity < Word.limit) (ha : Admissible cursors capacity plan) :
    ∃ event, plan.settle cursors = .ok (plan.settled cursors, event) := by
  have hring := h.ring
  cases ha with
  | @history start stop hstart hstop hle htail hwritten hreader =>
    have hzip : cursors.readers.zipWith (fun reader position =>
        if start ≤ position then { reader with readIndex := position - start } else reader)
        (cursors.readers.map (cursors.reckoned stop)) =
          cursors.readers.map fun reader => { reader with
          readIndex := if start ≤ cursors.reckoned stop reader
            then cursors.reckoned stop reader - start else reader.readIndex } := by
      rw [List.zipWith_map_right, List.zipWith_self]
      apply List.map_congr_left
      intro reader _
      split <;> rfl
    refine ⟨.historyRelocated start stop (stop - start) (decide (Lags cursors start stop)), ?_⟩
    simp only [settle, hzip]
    refine (bind_ok (anyWrapped_copied h.toOrdered hc hstop hreader)).trans ?_
    simp only [pure, Except.pure, decide_eq_true_eq]
    rfl
  | @input required front moved hmoved hspan hroom hfront hat =>
    refine ⟨.tailRelocated required moved (cursors.writeIndex + moved), ?_⟩
    refine (bind_ok (shifted_eq h.toOrdered (by omega) hfront)).trans ?_
    rw [Word.add_eq_ok (by omega)]
    rfl
  | @output multiple front kept force hpos hkept hfront hat =>
    have ha : (output multiple force front kept).Admissible cursors capacity :=
      .output hpos hkept hfront hat
    exact ⟨_, settle_output ha⟩

end Plan

namespace Cursors

variable {cursors : Cursors} {capacity : Nat} {geometry : Geometry} {reader : Reader}

/-! ## Decisions -/

structure Due (cursors : Cursors) (geometry : Geometry) : Prop where
  lookBack_pos : 0 < cursors.maxLookBack
  written_pos : 0 < cursors.written
  tail_eq : cursors.tail = none
  ended : geometry.capacity < cursors.writeIndex + geometry.writeMultiple ∨ cursors.writeIndex = 0
  passed : cursors.writeIndex = 0 ∨ ∀ reader ∈ cursors.readers, ¬ cursors.Wrapped reader

theorem Countable.needsHistory_eq (hc : cursors.Countable)
    (hw : cursors.writeIndex < geometry.capacity) :
    ∃ needed, cursors.needsHistory geometry = .ok needed ∧
    (needed = true ↔ cursors.Due geometry) := by
  unfold needsHistory
  rw [Word.sub_eq_ok (Nat.le_of_lt hw), hc.anyWrapped_eq]
  simp only [bind, Except.bind, pure, Except.pure, hasHistory, decide_eq_true_eq]
  split
  · rename_i hg
    obtain ⟨hl, hw, ht, hends⟩ := hg
    split
    · rename_i h0
      exact ⟨true, rfl, fun _ => ⟨hl, hw, ht, .inr h0, .inl h0⟩, fun _ => rfl⟩
    · rename_i h0
      refine ⟨_, rfl, ?_⟩
      simp only [Bool.not_eq_true', List.any_eq_false, decide_eq_true_eq]
      exact ⟨fun hn => ⟨hl, hw, ht, .inl (by omega), .inr hn⟩, fun hd => hd.passed.resolve_left h0⟩
  · rename_i hg
    refine ⟨false, rfl, nofun,
      fun hd => absurd ⟨hd.lookBack_pos, hd.written_pos, hd.tail_eq, ?_⟩ hg⟩
    have := hd.ended
    omega

theorem needsHistory_eq (h : cursors.Ordered geometry.capacity) (hc : cursors.Counted) :
    ∃ needed, cursors.needsHistory geometry = .ok needed ∧ (needed = true ↔ cursors.Due geometry) :=
  (hc.countable h).needsHistory_eq h.writeIndex_lt

theorem positionBefore_eq (hc : cursors.written + reader.lookBack < Word.limit) {stop : Nat} :
    cursors.positionBefore stop reader = .ok (cursors.reckoned stop reader) := by
  unfold positionBefore reckoned
  rw [unread_eq hc]
  simp only [bind, Except.bind, pure, Except.pure]
  by_cases hp : reader.readIndex = cursors.writeIndex
  · by_cases hl : cursors.lag reader = 0
    · rw [if_pos hp, if_pos hl, if_pos ⟨hp, hl⟩]
    · rw [if_pos hp, if_neg hl, if_neg fun h => hl h.2]
  · rw [if_neg hp, if_neg fun h => hp h.1]

/-- For a copy of what was written last, no reader is further along than it has read. -/
theorem reckoned_add_lag (h : cursors.Ordered capacity) (ht : cursors.tail = none)
    (hn : cursors.writeIndex = 0 ∨ ∀ reader ∈ cursors.readers, ¬ cursors.Wrapped reader)
    {stop : Nat} (hs : (if cursors.writeIndex = 0 then capacity else cursors.writeIndex) = stop)
    (hr : reader ∈ cursors.readers) : cursors.reckoned stop reader + cursors.lag reader = stop := by
  have hspan : cursors.span capacity = capacity := span_of_no_tail ht
  unfold reckoned
  by_cases hw : cursors.Wrapped reader
  · have := (h.wrapped_iff hr).mp hw
    have h0 : cursors.writeIndex = 0 := hn.resolve_right fun hn => hn reader hr hw
    rw [if_pos h0] at hs
    rw [if_neg (by omega)]
    omega
  · have := (h.not_wrapped_iff hr).mp hw
    split at hs <;> split <;> omega

theorem Countable.planHistory_eq (hc : cursors.Countable)
    (hwanted : geometry.downstream - 1 + cursors.maxLookBack < Word.limit) :
    ∃ decision, cursors.planHistory geometry = .ok decision ∧ ∀ plan, decision = .planned plan →
      ∃ start stop, plan = .history start stop (cursors.readers.map (cursors.reckoned stop)) ∧
      0 < start ∧
        start < stop ∧ (if cursors.writeIndex = 0 then geometry.capacity else cursors.writeIndex) =
          stop ∧
        ∀ reader ∈ cursors.readers, min start (stop - start) ≤ cursors.reckoned stop reader := by
  have hmap : ∀ stop, cursors.readers.mapM (cursors.positionBefore stop) =
      .ok (cursors.readers.map (cursors.reckoned stop)) :=
    fun stop => mapM_eq_ok fun reader hr => positionBefore_eq (hc reader hr)
  unfold planHistory
  generalize (if cursors.writeIndex = 0 then geometry.capacity else cursors.writeIndex) = stop
  simp only [Word.add_eq_ok hwanted, hmap, bind, Except.bind, pure, Except.pure]
  generalize hk : min (max (geometry.downstream - 1 + cursors.maxLookBack) 1) stop = keep
  by_cases hkeep : stop ≤ keep
  · rw [if_pos hkeep]
    exact ⟨_, rfl, nofun⟩
  rw [if_neg hkeep]
  split
  · exact ⟨_, rfl, nofun⟩
  rename_i hslow
  refine ⟨_, rfl, fun plan hplan => ?_⟩
  cases hplan
  refine ⟨_, stop, rfl, by omega, by omega, rfl, fun reader hr => ?_⟩
  have := List.min?_getD_le_of_mem (k := stop) (List.mem_map_of_mem (f := cursors.reckoned stop) hr)
  omega

theorem planHistory_eq (h : cursors.Coherent geometry.capacity) (hc : cursors.Counted)
    (hdown : geometry.downstream ≤ geometry.capacity) (hcap : 2 * geometry.capacity ≤ Word.limit)
    (hw : 0 < cursors.written) (ht : cursors.tail = none)
    (hn : cursors.writeIndex = 0 ∨ ∀ reader ∈ cursors.readers, ¬ cursors.Wrapped reader) :
    ∃ decision, cursors.planHistory geometry = .ok decision ∧
      ∀ plan, decision = .planned plan → plan.Admissible cursors geometry.capacity := by
  have hlt := h.writeIndex_lt
  have hm := h.maxLookBack_lt
  have hwanted : geometry.downstream - 1 + cursors.maxLookBack < Word.limit := by omega
  obtain ⟨decision, hdecision, hplan⟩ := (hc.countable h.toOrdered).planHistory_eq hwanted
  refine ⟨decision, hdecision, fun plan he => ?_⟩
  obtain ⟨start, stop, rfl, hstart, hstop, hs, hreader⟩ := hplan plan he
  exact .history hstart hstop (by split at hs <;> omega) ht hw fun reader hr =>
    ⟨reckoned_add_lag h.toOrdered ht hn hs hr, hreader reader hr⟩

theorem min_wrapped {front : Nat} (hfront : ((cursors.readers.zip
      (cursors.readers.map fun reader => decide (cursors.Wrapped reader))).filterMap fun pair =>
        if pair.2 = true then some pair.1.readIndex else none).min? = some front) :
    (∃ reader ∈ cursors.readers, cursors.Wrapped reader ∧ reader.readIndex = front) ∧
      ∀ reader ∈ cursors.readers, cursors.Wrapped reader → front ≤ reader.readIndex := by
  have hpositions : ∀ position, position ∈ (cursors.readers.zip
      (cursors.readers.map fun reader => decide (cursors.Wrapped reader))).filterMap
        (fun pair => if pair.2 = true then some pair.1.readIndex else none) ↔
      ∃ reader ∈ cursors.readers, cursors.Wrapped reader ∧ reader.readIndex = position := by
    intro position
    simp only [zip_map_self, List.filterMap_map, List.mem_filterMap, Function.comp,
      decide_eq_true_eq, Option.ite_none_right_eq_some, Option.some.injEq]
  obtain ⟨hmem, hmin⟩ := List.min?_eq_some_iff.mp hfront
  refine ⟨(hpositions front).mp hmem, ?_⟩
  intro reader hr hw
  exact hmin _ ((hpositions _).mpr ⟨reader, hr, hw, rfl⟩)

theorem planInput_eq (h : cursors.Ordered capacity) (hc : cursors.Counted)
    (hcap : capacity < Word.limit) (hr : reader ∈ cursors.readers) (required : Nat) :
    ∃ decision, cursors.planInput required (cursors.available capacity reader) reader.readIndex =
      .ok decision ∧ ∀ plan, decision = .planned plan → plan.Admissible cursors capacity := by
  obtain ⟨h1, h2, h3, h4⟩ := h.ring
  have hle := (h.available_spec hr).2.2
  have hmap : cursors.readers.mapM cursors.isWrapped =
      .ok (cursors.readers.map fun reader => decide (cursors.Wrapped reader)) :=
    mapM_eq_ok fun _ hm => isWrapped_eq (hc.lookBack h hm)
  unfold planInput
  simp only [hmap, bind, Except.bind]
  split
  · exact ⟨.idle, rfl, nofun⟩
  rename_i front hfront
  obtain ⟨⟨first, hfm, hfw, hfr⟩, hbehind⟩ := min_wrapped hfront
  have hw := (h.wrapped_iff hfm).mp hfw
  -- the plan is the same for both ends of the run; only which end it is differs
  suffices hrest : ∀ stop, (front < stop → stop = cursors.span capacity) → ∃ decision,
      ((do
        if stop ≤ front then return .idle
        let room ← Word.sub front cursors.writeIndex
        if room < stop - front then return .blocked (.tailTooLong required (stop - front) room)
        return .planned (.input required front (stop - front)
          (cursors.readers.map fun reader => decide (cursors.Wrapped reader)))) :
          Checked Decision) =
        .ok decision ∧ ∀ plan, decision = .planned plan → plan.Admissible cursors capacity by
    cases ht : cursors.tail with
    | some tail => exact hrest tail.start fun _ => by unfold span; rw [ht]
    | none =>
      have hs : cursors.span capacity = capacity := span_of_no_tail ht
      have he : cursors.wrapEnd capacity = capacity := by unfold wrapEnd; rw [ht]
      simp only [Word.add_eq_ok
        (show reader.readIndex + cursors.available capacity reader < Word.limit by omega)]
      apply hrest _
      intro hlt
      unfold available at hlt ⊢
      split
      · have := (h.wrapped_iff hr).mp ‹_›
        omega
      · rw [if_neg ‹_›] at hlt
        have := (h.not_wrapped_iff hr).mp ‹_›
        omega
  intro stop hspan
  simp only [Word.sub_eq_ok (show cursors.writeIndex ≤ front by omega), bind, Except.bind, pure,
    Except.pure]
  split
  · exact ⟨.idle, rfl, nofun⟩
  split
  · exact ⟨_, rfl, nofun⟩
  refine ⟨_, rfl, fun plan hplan => ?_⟩
  cases hplan
  have := hspan (by omega)
  exact .input (by omega) (by omega) (by omega) hbehind ⟨first, hfm, hfw, hfr⟩

theorem kind_of_planInput {required available readIndex : Nat} {plan : Plan}
    (he : cursors.planInput required available readIndex = .ok (.planned plan)) :
    plan.kind = .input := by
  unfold planInput at he
  obtain ⟨wrapped, _, he⟩ := bind_eq_ok.mp he
  dsimp only at he
  split at he
  · cases he
  rename_i front _
  have hrest : ∀ stop,
      (do
        if stop ≤ front then return .idle
        let room ← Word.sub front cursors.writeIndex
        if room < stop - front then return .blocked (.tailTooLong required (stop - front) room)
        return .planned (.input required front (stop - front) wrapped) : Checked Decision) = .ok
          (.planned plan) →
      plan.kind = .input := by
    intro stop he
    split at he
    · cases he
    obtain ⟨room, _, he⟩ := bind_eq_ok.mp he
    split at he
    · cases he
    cases he
    rfl
  split at he
  · exact hrest _ he
  · obtain ⟨stop, _, he⟩ := bind_eq_ok.mp he
    exact hrest stop he

theorem Countable.planOutput_eq (hc : cursors.Countable)
    (hw : cursors.writeIndex < geometry.capacity) (multiple : Nat) (force : Bool) :
    ∃ decision, cursors.planOutput geometry multiple force = .ok decision ∧
      ∀ plan, decision = .planned plan → plan.Admissible cursors geometry.capacity := by
  obtain ⟨room, hroom, _⟩ := hc.flatRoom_eq hw
  unfold planOutput
  simp only [hroom, hc.anyWrapped_eq, bind, Except.bind, pure, Except.pure]
  split
  · exact ⟨.idle, rfl, nofun⟩
  rename_i hempty
  split
  · split
    · exact ⟨_, rfl, nofun⟩
    rename_i hany
    have hnone : ∀ reader ∈ cursors.readers, ¬ cursors.Wrapped reader := by simpa using hany
    have hne : cursors.readers.map (·.readIndex) ≠ [] := by simpa using hempty
    split
    · exact ⟨.idle, rfl, nofun⟩
    rename_i hfront
    obtain ⟨front, hmin⟩ : ∃ front, (cursors.readers.map (·.readIndex)).min? = some front := by
      cases hm : (cursors.readers.map (·.readIndex)).min? with
      | none => exact absurd (List.min?_eq_none_iff.mp hm) hne
      | some front => exact ⟨front, rfl⟩
    obtain ⟨hmem, hle⟩ := List.min?_eq_some_iff.mp hmin
    obtain ⟨first, hfm, hfr⟩ := List.mem_map.mp hmem
    -- nobody is wrapped, so the first reader is not past the writer
    have hfw : first.readIndex ≤ cursors.writeIndex :=
      Nat.le_of_not_lt fun hlt => hnone first hfm (.inl hlt)
    simp only [hmin, Option.getD_some] at hfront ⊢
    rw [Word.sub_eq_ok (show front ≤ cursors.writeIndex by omega)]
    refine ⟨_, rfl, fun plan hplan => ?_⟩
    cases hplan
    exact .output (by omega) (by omega)
      (fun reader hr => ⟨hnone reader hr, hle _ (List.mem_map_of_mem hr)⟩) ⟨first, hfm, hfr⟩
  · exact ⟨.idle, rfl, nofun⟩

theorem planOutput_eq (h : cursors.Ordered geometry.capacity) (hc : cursors.Counted)
    (multiple : Nat) (force : Bool) :
    ∃ decision, cursors.planOutput geometry multiple force = .ok decision ∧
      ∀ plan, decision = .planned plan → plan.Admissible cursors geometry.capacity :=
  (hc.countable h).planOutput_eq h.writeIndex_lt multiple force

/-! ## Asking for room -/

theorem flatRoom_eq (h : cursors.Ordered capacity) (hc : cursors.Counted) :
    ∃ room, cursors.flatRoom capacity = .ok room ∧ cursors.Room capacity room := by
  obtain ⟨room, he, hreach⟩ := (hc.countable h).flatRoom_eq h.writeIndex_lt
  have hle := hreach.le
  have hlt := h.writeIndex_lt
  exact ⟨room, he, by omega, hreach.before⟩

/-- What asking for room gives, and what it makes of the cursors. -/
inductive Polled (cursors : Cursors) (geometry : Geometry) : Nat → Cursors → Prop where
  | direct {room : Nat} (hd : ¬ cursors.Due geometry)
      (he : cursors.flatRoom geometry.capacity = .ok room) :
      Polled cursors geometry room cursors
  | declined (hd : cursors.Due geometry)
      (hp : ∀ plan, cursors.planHistory geometry ≠ .ok (.planned plan)) :
      Polled cursors geometry 0 cursors
  | copied {plan : Plan} {room : Nat} (hd : cursors.Due geometry)
      (hp : cursors.planHistory geometry = .ok (.planned plan))
      (he : (plan.settled cursors).flatRoom geometry.capacity = .ok room) :
      Polled cursors geometry room (plan.settled cursors)

theorem Polled.room {others : Cursors} {room : Nat} (hp : cursors.Polled geometry room others)
    (h : others.Ordered geometry.capacity) (hc : others.Counted) :
    others.Room geometry.capacity room := by
  have hroom : others.flatRoom geometry.capacity = .ok room →
      others.Room geometry.capacity room := by
    intro he
    obtain ⟨same, hsame, hroom⟩ := flatRoom_eq h hc
    cases he.symm.trans hsame
    exact hroom
  cases hp with
  | direct _ he => exact hroom he
  | declined => exact ⟨Nat.le_of_lt h.writeIndex_lt, fun _ hr hw => ((h.wrapped_iff hr).mp hw).1⟩
  | copied _ _ he => exact hroom he

end Cursors

end StreamBuffer
