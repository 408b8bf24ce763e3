import StreamBuffer.Proofs.Sites

/-!
# What the operations do

One specification for each operation on a sound site: by which motions it moves the site and what
it gives back. An operation whose caller keeps to the terms stops only where a device refuses.
-/

namespace StreamBuffer

namespace Site

variable {terms : Terms} {site mid after : Site} {α : Type}

/-! ## Tags -/

def Hides (site : Site) (action : Action Site α) : Prop :=
  action.Ensures site (fun _ after => site.Same after) fun _ _ => False

theorem Hides.bind {β : Type} {action : Action Site α} {next : α → Action Site β}
    (h : site.Hides action) (hn : ∀ a mid, site.Same mid → mid.Hides (next a)) :
    site.Hides (action >>= next) :=
  Action.Ensures.bind h fun a mid hs => (hn a mid hs).mono (fun _ _ ht => hs.trans ht)
    fun _ _ hf => hf

theorem Hides.takes {action : Action Site α} (hh : site.Hides action) (h : site.Sound) :
    site.Takes terms action fun _ sent after => sent = .nothing ∧ site.Same after :=
  Action.Ensures.mono hh (fun _ _ hs => ⟨.nothing, hs.moves h, rfl, hs⟩) fun _ _ hs => hs.elim

theorem prune_hides (hd : site.buffer.cursors.maxDelay + site.buffer.geometry.capacity < Word.limit)
    (time : Nat) : site.Hides (prune time) := by
  obtain ⟨kept, hprune, _⟩ := site.buffer.tags.prune_eq_ok time hd
  unfold prune
  refine .get_bind (.lift_bind hprune (.modify_bind ?_))
  split
  · exact ⟨rfl, rfl, rfl, rfl⟩
  · exact ⟨rfl, rfl, rfl, rfl⟩

theorem pruneBehindReaders_hides
    (hd : site.buffer.cursors.maxDelay + site.buffer.geometry.capacity < Word.limit) :
    site.Hides pruneBehindReaders := by
  unfold pruneBehindReaders
  refine .get_bind ?_
  dsimp only
  split
  · refine ((prune_hides hd _).bind fun _ mid _ => Action.Ensures.pure (.refl mid)).bind
      fun _ mid _ => ?_
    exact ⟨rfl, rfl, rfl, rfl⟩
  · exact Same.refl site

/-! ## Room -/

theorem Sound.noRoom (h : site.Sound) : site.buffer.cursors.Room site.buffer.geometry.capacity 0 :=
  ⟨Nat.le_of_lt h.coherent.writeIndex_lt, fun _ hr hw => ((h.coherent.wrapped_iff hr).mp hw).1⟩

theorem flatSpace_spec (h : site.Sound) : site.Takes terms flatSpace fun room sent after =>
    sent = .nothing ∧ site.buffer.cursors.Polled site.buffer.geometry room
      after.buffer.cursors := by
  obtain ⟨needed, hneeded, hdue⟩ := Cursors.needsHistory_eq h.coherent.toOrdered h.counted
  unfold flatSpace
  refine .get_bind (.lift_bind hneeded ?_)
  cases needed with
  | false =>
    obtain ⟨room, he, _⟩ := Cursors.flatRoom_eq h.coherent.toOrdered h.counted
    exact .get_bind (.lift he ⟨_, h.moves, rfl, .direct (fun hd => nomatch hdue.mpr hd) he⟩)
  | true =>
    -- look-back is due: the room is measured after the copy, if it is made
    have hd := hdue.mp rfl
    obtain ⟨decision, hdecision, hplan⟩ :=
      Cursors.planHistory_eq h.coherent h.counted h.measured.downstream_le
      h.measured.twice_le hd.written_pos hd.tail_eq hd.passed
    refine .lift_bind hdecision ?_
    apply (follow_spec h hplan).bind
    rintro moved sent mid hm ⟨hs, hc⟩
    have hmid := hm.sound h
    obtain ⟨room, he, _⟩ := Cursors.flatRoom_eq hmid.coherent.toOrdered hmid.counted
    rw [hm.geometry_eq] at he
    cases moved with
    | false =>
      refine .pure hmid ⟨by rw [hs]; rfl, ?_⟩
      generalize mid.buffer.cursors = others at hc
      cases hc with
      | declined hn =>
        exact .declined hd fun plan hp => hn plan (Except.ok.inj (hdecision.symm.trans hp))
    | true =>
      refine Action.Ensures.get_bind (.lift he ⟨_, hmid.moves, by rw [hs]; rfl, ?_⟩)
      generalize mid.buffer.cursors = others at hc he
      cases hc with
      | planned hp => exact .copied hd (hp ▸ hdecision) he

/-- What readers get the room from is the cursors. -/
theorem space_polls (h : site.Sound) (hr : site.buffer.cursors.readers ≠ []) :
    site.Takes terms space fun room sent after =>
      sent = .nothing ∧ site.buffer.cursors.Polled site.buffer.geometry room
        after.buffer.cursors := by
  unfold space
  refine .get_bind ?_
  dsimp only
  rw [if_neg (by simpa using hr)]
  apply ((pruneBehindReaders_hides h.delayed).takes h).bind
  rintro _ sent mid hm ⟨hs, hsame⟩
  rw [h.flat, hs]
  apply (flatSpace_spec (hm.sound h)).mono
  rintro room data after _ ⟨hd, hp⟩
  rw [hsame.cursors_eq, hsame.geometry_eq] at hp
  exact ⟨by rw [hd]; rfl, hp⟩

/-- Without readers the room is not what the cursors have. -/
theorem space_spec (h : site.Sound) : site.Takes terms space fun room sent after =>
    sent = .nothing ∧ site.buffer.cursors.Relocates after.buffer.cursors ∧
      (site.buffer.cursors.readers ≠ [] →
        after.buffer.cursors.Room site.buffer.geometry.capacity room) ∧
      room ≤ site.buffer.geometry.capacity := by
  by_cases hr : site.buffer.cursors.readers = []
  · have hpos := Nat.zero_lt_of_lt h.coherent.writeIndex_lt
    unfold space
    refine .get_bind ?_
    dsimp only
    rw [if_pos (List.isEmpty_iff.mpr hr)]
    exact .lift (Word.sub_eq_ok hpos)
      ⟨_, h.moves, rfl, .inl rfl, fun hne => absurd hr hne, Nat.sub_le ..⟩
  · apply (space_polls h hr).mono
    rintro room sent after hm ⟨hs, hp⟩
    have hafter := hm.sound h
    have hroom : after.buffer.cursors.Room site.buffer.geometry.capacity room :=
      hp.room (hm.geometry_eq ▸ hafter.coherent.toOrdered) hafter.counted
    have := hroom.end_le
    exact ⟨hs, hp.relocates, fun _ => hroom, by omega⟩

/-! ## Production -/

theorem advance_turns {items : Nat} (h0 : 0 < site.buffer.geometry.capacity)
    (hplace : site.buffer.cursors.writeIndex + items < Word.limit)
    (hcount : site.buffer.cursors.written + items < Word.limit) :
    (advance items).Ensures site
      (fun _ after => site.Turns
        (site.buffer.cursors.wrote site.buffer.geometry.capacity items) after)
      fun _ _ => False := by
  obtain ⟨event, he⟩ := Cursors.advanceWriter_eq h0 hplace hcount
  unfold advance
  exact .get_bind (.lift_bind he ⟨rfl, rfl, rfl, rfl⟩)

theorem advance_spec (h : site.Sound) (items : Nat) (hitems : items ≤ site.buffer.geometry.capacity)
    (hcount : site.buffer.cursors.written + items + site.buffer.cursors.maxLookBack < Word.limit) :
    (advance items).Ensures site
      (fun _ after => site.Turns
        (site.buffer.cursors.wrote site.buffer.geometry.capacity items) after)
      fun _ _ => False := by
  have hcap := h.measured.twice_le
  have hlt := h.coherent.writeIndex_lt
  exact advance_turns (Nat.zero_lt_of_lt hlt) (by omega) (by omega)

theorem write_spec (h : site.Sound) {items : Nat} {source : Nat → UInt8}
    (hroom : site.buffer.cursors.Room site.buffer.geometry.capacity items)
    (hcount : site.buffer.cursors.written + items + site.buffer.cursors.maxLookBack < Word.limit) :
    site.Takes terms (write items source) fun _ sent _ =>
      sent = some (produced site.buffer.geometry.itemSize items source) := by
  have hend := hroom.end_le
  have hdeposit := (deposit_spec h.toSolid source hend).mono (fun _ _ hd => hd)
    fun _ _ hb => hb.stopped h terms
  unfold Takes Action.Ensures
  rw [write_eq source hend]
  apply Action.Ensures.bind hdeposit
  intro _ mid hm
  have hkeeps := hm.keeps
  have hmid := (hm.spoils h terms).sound h
  refine (advance_spec hmid items ?_ ?_).sure fun _ after ht => ?_
  · rw [hm.geometry_eq]
    omega
  · rw [hm.cursors_eq]
    exact hcount
  · refine ⟨_, ⟨hkeeps.trans (ht.keeps hmid), ?_⟩, rfl⟩
    rw [ht.view_eq, hm.cursors_eq, hm.readable_eq, hm.geometry_eq]
    exact .single (.write hroom hcount (size_produced ..))

/-! ## Whole steps -/

theorem grow_spec (h : site.Sound) {items : Nat}
    (hcount : site.buffer.cursors.written + items + site.buffer.cursors.maxLookBack < Word.limit) :
    site.Takes terms (Call.advance items).perform fun _ sent _ => sent = none := by
  unfold Call.perform
  apply (space_spec h).bind
  rintro room _ mid hm ⟨_, hc, hroom, hle⟩
  have hmid := hm.sound h
  have hcount' : mid.buffer.cursors.written + min items room + mid.buffer.cursors.maxLookBack <
      Word.limit := by
    rw [hc.written_eq, hc.maxLookBack_eq]
    omega
  have hcap : min items room ≤ mid.buffer.geometry.capacity := by
    rw [hm.geometry_eq]
    omega
  have hdone : mid.Takes terms (advance (min items room)) fun _ sent _ => sent = none := by
    refine (advance_spec hmid _ hcap hcount').sure fun _ after ht => ?_
    refine ⟨none, ht.moves hmid (.skip ?_ hcount'), rfl⟩
    rw [hm.geometry_eq]
    by_cases hn : site.buffer.cursors.readers = []
    · exact .inr (hc.readers_eq_nil_iff.mpr hn)
    · obtain ⟨hend, hbefore⟩ := hroom hn
      refine .inl ⟨?_, fun reader hr hw => ?_⟩
      · change mid.buffer.cursors.writeIndex + _ ≤ _
        omega
      · have := hbefore reader hr hw
        change mid.buffer.cursors.writeIndex + _ ≤ _
        omega
  apply hdone.bind
  intro _ sent last hl hs
  exact .pure (hl.sound hmid) (by rw [hs, Sent.andThen_nothing, Sent.andThen_none])

theorem produce_spec (h : site.Sound) {items multiple : Nat} {source : Nat → UInt8}
    (hne : site.buffer.cursors.readers ≠ [])
    (hcount : site.buffer.cursors.written + items + site.buffer.cursors.maxLookBack < Word.limit) :
    site.Takes terms (produce items multiple source) fun answer sent _ =>
      sent = some (produced site.buffer.geometry.itemSize answer.2 source) := by
  unfold produce
  apply (space_spec h).bind
  rintro room sent mid hm ⟨hs, hc, hroom, _⟩
  have hmid := hm.sound h
  obtain ⟨hend, hbefore⟩ := hroom hne
  dsimp only
  generalize hw : min items room - min items room % max multiple 1 = written
  have hfit : written ≤ items ∧ written ≤ room := by omega
  have hroom' : mid.buffer.cursors.Room mid.buffer.geometry.capacity written := by
    rw [hm.geometry_eq]
    refine ⟨by omega, fun reader hr hw => ?_⟩
    have := hbefore reader hr hw
    omega
  have hcount' : mid.buffer.cursors.written + written + mid.buffer.cursors.maxLookBack <
      Word.limit := by
    rw [hc.written_eq, hc.maxLookBack_eq]
    omega
  apply (write_spec hmid hroom' hcount').bind
  intro _ data last hl hd
  refine .pure (hl.sound hmid) ?_
  rw [hs, hd, hm.geometry_eq, Sent.andThen_nothing, Sent.nothing_andThen]

/-! ## Readers -/

variable {id : Nat} {reader : Reader}

theorem reader_eq (hr : site.buffer.cursors.reader? id = some reader) :
    Site.reader id site = .ok reader site := by
  have hget : (get : Action Site Site) site = .ok site site := rfl
  unfold Site.reader
  change EStateM.bind get _ site = _
  simp only [EStateM.bind, hget, hr]
  rfl

theorem supply_eq (h : site.Sound) (hr : reader ∈ site.buffer.cursors.readers) :
    site.buffer.supply reader =
      .ok (site.buffer.cursors.available site.buffer.geometry.capacity reader) := by
  unfold Buffer.supply Cursors.supply
  rw [h.flat]
  exact h.coherent.flatSupply_eq h.counted hr

theorem supply_run (h : site.Sound) (hr : site.buffer.cursors.reader? id = some reader) :
    supply id site = .ok
      (site.buffer.cursors.available site.buffer.geometry.capacity reader) site := by
  unfold supply
  rw [Action.bind_of_ok _ (reader_eq hr)]
  change (liftM (site.buffer.supply reader) : Action Site Nat) site = _
  rw [supply_eq h (Cursors.mem_of_reader? hr).1]
  rfl

theorem attach_turns (h : site.buffer.cursors.Housed site.buffer.geometry.capacity)
    (hflat : site.buffer.geometry.mapping = .single) {history : Nat}
    (hh : history ≤ site.buffer.geometry.capacity)
    (hid : site.buffer.cursors.nextReader + 1 < Word.limit) (delay : Nat) :
    (attach history delay).Ensures site
      (fun _ after => site.Turns
        (site.buffer.cursors.joined site.buffer.geometry.capacity (history - 1) delay) after)
      fun _ _ => False := by
  obtain ⟨events, he⟩ := Cursors.attach_eq h hflat rfl hh hid delay
  unfold attach
  refine .get_bind (.attempt_bind he (.modify_bind ?_))
  apply Action.Ensures.bind (forM_log_spec events _)
  intro _ after hs
  exact ⟨hs.geometry_eq, hs.storage_eq, hs.cursors_eq, hs.devices_eq⟩

theorem attach_spec (h : site.Sound) {history delay : Nat}
    (hh : history ≤ site.buffer.geometry.capacity)
    (hcount : site.buffer.cursors.written + max site.buffer.cursors.maxLookBack (history - 1) <
      Word.limit)
    (hdelay : delay + site.buffer.geometry.capacity < Word.limit)
    (hid : site.buffer.cursors.nextReader + 1 < Word.limit)
    (hterms : terms.attach site.buffer.cursors (history - 1))
    (ha : site.buffer.cursors.Admits (history - 1)) :
    site.Takes terms (attach history delay) fun _ sent _ => sent = .nothing := by
  have hpos := Nat.zero_lt_of_lt h.coherent.writeIndex_lt
  refine (attach_turns h.coherent.housed h.flat hh hid delay).sure fun _ after ht => ?_
  exact ⟨_, ht.moves h (.join (by omega) hterms ha hcount hdelay), rfl⟩

theorem raiseHistory_turns (h : site.buffer.cursors.Housed site.buffer.geometry.capacity)
    (hflat : site.buffer.geometry.mapping = .single) {history : Nat}
    (hh : history ≤ site.buffer.geometry.capacity) (delay : Nat) :
    (raiseHistory history delay).Ensures site
      (fun _ after => site.Turns (site.buffer.cursors.raised (history - 1) delay) after)
        fun _ _ => False := by
  have hcheck : Cursors.checkHistory site.buffer.geometry history = .ok ⟨⟩ := by
    unfold Cursors.checkHistory
    rw [if_neg (by omega)]
    rfl
  obtain ⟨events, he⟩ := Cursors.raise_eq hflat h.lookBack_le (history - 1) delay
  unfold raiseHistory
  refine .get_bind (.attempt_bind hcheck (.lift_bind he (.modify_bind ?_)))
  refine (forM_log_spec events _).sure fun _ after hs => ?_
  exact ⟨hs.geometry_eq, hs.storage_eq, hs.cursors_eq, hs.devices_eq⟩

theorem raiseHistory_spec (h : site.Sound) {history delay : Nat}
    (hh : history ≤ site.buffer.geometry.capacity)
    (hcount : site.buffer.cursors.written + max site.buffer.cursors.maxLookBack (history - 1) <
      Word.limit)
    (hdelay : delay + site.buffer.geometry.capacity < Word.limit)
    (hu : site.buffer.cursors.Undisturbed (history - 1)) :
    site.Takes terms (raiseHistory history delay) fun _ sent _ => sent = .nothing := by
  have hpos := Nat.zero_lt_of_lt h.coherent.writeIndex_lt
  refine (raiseHistory_turns h.coherent.housed h.flat hh delay).sure fun _ after ht => ?_
  exact ⟨_, ht.moves h (.raise (by omega) hu hcount hdelay), rfl⟩

theorem detach_turns (hc : site.buffer.cursors.Countable)
    (hr : site.buffer.cursors.reader? id = some reader) :
    (detach id).Ensures site
      (fun _ after => site.Turns (site.buffer.cursors.without id).refreshed after)
      fun _ _ => False := by
  obtain ⟨event, he⟩ := hc.detach_eq id
  unfold detach
  refine .ok_bind (a := ⟨⟩) (t := site) ?_ (.get_bind (.lift_bind he ⟨rfl, rfl, rfl, rfl⟩))
  exact Action.bind_of_ok _ (reader_eq hr)

theorem detach_spec (h : site.Sound) (hr : site.buffer.cursors.reader? id = some reader) :
    site.Takes terms (detach id) fun _ sent _ => sent = .nothing :=
  (detach_turns (h.counted.countable h.coherent.toOrdered) hr).sure
    fun _ _ ht => ⟨_, ht.moves h (.detach id), rfl⟩

theorem read_turns {items : Nat} {cursors : Cursors} {event : Event}
    (hr : site.buffer.cursors.reader? id = some reader)
    (he : site.buffer.cursors.advanceReader site.buffer.geometry.capacity reader items =
      .ok (cursors, event))
    (hc : cursors.Countable) :
    (read id items).Ensures site (fun _ after => site.Turns cursors.refreshed after)
      fun _ _ => False := by
  unfold read
  apply Action.Ensures.ok_bind (reader_eq hr)
  refine .get_bind (.lift_bind he ?_)
  -- the reader is moved, the event written down, and last the tail window is looked at again
  refine .modify_bind (.modify_bind ?_)
  exact .lift_bind hc.refreshTail_eq ⟨rfl, rfl, rfl, rfl⟩

/-- A reader within its supply goes on. -/
theorem read_consumes (h : site.Sound) {items : Nat}
    (hr : site.buffer.cursors.reader? id = some reader)
    (hi : items ≤ site.buffer.cursors.available site.buffer.geometry.capacity reader) :
    (read id items).Ensures site
      (fun _ after => site.Turns (site.buffer.cursors.replace
        (site.buffer.cursors.consumed site.buffer.geometry.capacity reader items)).refreshed after)
      fun _ _ => False := by
  obtain ⟨hm, _⟩ := Cursors.mem_of_reader? hr
  obtain ⟨event, he⟩ := h.coherent.advanceReader_eq h.counted h.capacity_lt hm hi
  have hcount : (site.buffer.cursors.replace
      (site.buffer.cursors.consumed site.buffer.geometry.capacity reader items)).Counted :=
      h.counted
  exact read_turns hr he (hcount.countable (h.coherent.consume hm hi))

theorem read_spec (h : site.Sound) {items : Nat} (hr : site.buffer.cursors.reader? id = some reader)
    (hi : items ≤ site.buffer.cursors.available site.buffer.geometry.capacity reader) :
    site.Takes terms (read id items) fun _ sent _ => sent = .nothing := by
  obtain ⟨hm, _⟩ := Cursors.mem_of_reader? hr
  refine (read_consumes h hr hi).sure fun _ _ ht => ?_
  exact ⟨_, ht.moves h (.consume hm hi), rfl⟩

theorem declareDelay_turns (h : site.Sound) {delay : Nat}
    (hr : site.buffer.cursors.reader? id = some reader) :
    (declareDelay id delay).Ensures site
      (fun _ after => site.Turns
        ((site.buffer.cursors.replace { reader with sampleDelay := delay }).raised 0 delay) after)
      fun _ _ => False := by
  obtain ⟨hm, _⟩ := Cursors.mem_of_reader? hr
  obtain ⟨events, he⟩ := Cursors.raise_eq h.flat (h.coherent.declared hm delay).lookBack_le 0 delay
  unfold declareDelay
  refine .ok_bind (reader_eq hr) (.get_bind (.lift_bind he (.modify_bind ?_)))
  refine (forM_log_spec events _).sure fun _ after hs => ?_
  exact ⟨hs.geometry_eq, hs.storage_eq, hs.cursors_eq, hs.devices_eq⟩

theorem declareDelay_spec (h : site.Sound) {delay : Nat}
    (hr : site.buffer.cursors.reader? id = some reader)
    (hdelay : delay + site.buffer.geometry.capacity < Word.limit) :
    site.Takes terms (declareDelay id delay) fun _ sent _ => sent = .nothing :=
  (declareDelay_turns h hr).sure
    fun _ _ ht => ⟨_, ht.moves h (.declare (Cursors.mem_of_reader? hr).1 hdelay), rfl⟩

/-! ## Blocked stages -/

theorem isFlat_eq (hs : site.buffer.geometry.mapping = .single) : isFlat site = .ok true site := by
  change EStateM.Result.ok (site.buffer.geometry.mapping == .single) site = _
  rw [hs]
  rfl

/-- A reader that asks for items has what is planned for it carried out. -/
theorem unblockInput_follows {decision : Decision} {done : Bool → Site → Prop}
    {stopped : Stop → Site → Prop} (h : site.Sound) {required : Nat}
    (hr : site.buffer.cursors.reader? id = some reader)
    (hd : site.buffer.cursors.planInput required
      (site.buffer.cursors.available site.buffer.geometry.capacity reader) reader.readIndex =
        .ok decision)
    (hfollow : (follow decision).Ensures site done stopped) :
    (unblockInput id required).Ensures site done stopped := by
  unfold unblockInput unblockInputAt
  apply Action.Ensures.ok_bind (isFlat_eq h.flat)
  apply Action.Ensures.ok_bind (reader_eq hr)
  apply Action.Ensures.ok_bind (supply_run h hr)
  apply Action.Ensures.ok_bind (isFlat_eq h.flat)
  exact .get_bind (.lift_bind hd hfollow)

theorem unblockInput_spec (h : site.Sound) {required : Nat}
    (hr : site.buffer.cursors.reader? id = some reader) :
    site.Takes terms (unblockInput id required) fun _ sent _ => sent = .nothing := by
  obtain ⟨hm, _⟩ := Cursors.mem_of_reader? hr
  obtain ⟨decision, hd, hplan⟩ :=
    Cursors.planInput_eq h.coherent.toOrdered h.counted h.capacity_lt hm required
  have hfollow : site.Takes terms (follow decision) fun _ sent _ => sent = .nothing :=
    (follow_spec h hplan).mono fun _ _ _ _ hs => hs.1
  exact unblockInput_follows h hr hd hfollow

theorem unblockOutput_spec (h : site.Sound) {multiple : Nat} {force : Bool} :
    site.Takes terms (unblockOutput multiple force) fun moved sent after => sent = .nothing ∧
      ∃ decision, site.buffer.cursors.planOutput site.buffer.geometry multiple force =
        .ok decision ∧ site.buffer.cursors.Followed decision moved after.buffer.cursors := by
  obtain ⟨decision, hd, hplan⟩ :=
    Cursors.planOutput_eq h.coherent.toOrdered h.counted multiple force
  unfold unblockOutput
  refine .ok_bind (isFlat_eq h.flat) (.get_bind (.lift_bind hd ?_))
  exact (follow_spec h hplan).mono fun _ _ _ _ hs => ⟨hs.1, decision, hd, hs.2⟩

theorem isInputBlockedAt_spec (h : site.Sound) {required readIndex : Nat} :
    site.Hides (isInputBlockedAt required readIndex) := by
  unfold isInputBlockedAt
  exact .get_bind (.ok_bind (isFlat_eq h.flat) (Same.refl site))

theorem isInputBlocked_spec (h : site.Sound) {required : Nat}
    (hr : site.buffer.cursors.reader? id = some reader) :
    site.Hides (isInputBlocked id required) := by
  unfold isInputBlocked
  exact .ok_bind (isFlat_eq h.flat) (.ok_bind (reader_eq hr) (isInputBlockedAt_spec h))

theorem isOutputBlocked_spec (h : site.Sound) {multiple : Nat} :
    site.Takes terms (isOutputBlocked multiple) fun _ sent _ => sent = .nothing := by
  unfold isOutputBlocked
  refine .ok_bind (isFlat_eq h.flat) ?_
  refine (space_spec h).bind fun _ sent mid hm hs => .pure (hm.sound h) ?_
  rw [hs.1, Sent.andThen_nothing]

theorem tags_hides (hr : site.buffer.cursors.reader? id = some reader) {start stop consumer : Nat}
    (ht : ∀ tag ∈ site.buffer.tags.tags, tag.offset + reader.sampleDelay < Word.limit) :
    site.Hides (tags id start stop consumer) := by
  unfold tags
  refine .ok_bind (reader_eq hr) (.get_bind ?_)
  dsimp only
  generalize hs : (Tag.Index.range _ _ _).filter (fun tag => !tag.isHiddenFrom consumer) = shown
  have hshown : ∀ tag ∈ shown, tag ∈ site.buffer.tags.tags := fun tag hm => by
    rw [← hs, Tag.Index.range_eq] at hm
    exact (List.mem_filter.mp (List.mem_filter.mp hm).1).1
  refine .lift (mapM_eq_ok (g := fun tag : Tag =>
    { tag with offset := tag.offset + reader.sampleDelay, hiddenFrom := [] }) fun tag hm => ?_)
      (Same.refl site)
  rw [Word.add_eq_ok (ht tag (hshown tag hm))]
  rfl

end Site

/-! ## Calls -/

structure Terms.Places (terms : Terms) : Prop where
  attach : ∀ {cursors capacity lookBack}, Cursors.Coherent cursors capacity →
    terms.attach cursors lookBack → cursors.Admits lookBack
  raise : ∀ {cursors capacity lookBack}, Cursors.Coherent cursors capacity →
    terms.raise cursors lookBack → cursors.Undisturbed lookBack

theorem Terms.early_places : Terms.early.Places where
  attach h hf := ⟨fun _ _ => hf.2, fun ht => absurd (h.tail_eq_none hf.1) ht⟩
  raise _ hf _ _ := hf.2

theorem Terms.admitted_places : Terms.admitted.Places := ⟨fun _ ha => ha, fun _ hu => hu⟩

namespace Call

variable {site : Site} {terms : Terms} {call : Call}

theorem perform_spec (hp : terms.Places) (h : site.Sound) (hr : call.Respects terms site) :
    site.Takes terms call.perform fun answer sent _ =>
      sent = call.brings site.buffer.geometry.itemSize answer := by
  cases call with
  | space => exact (Site.space_spec h).map h fun _ _ _ hs => hs.1
  | advance items => exact (Site.grow_spec h hr).mono fun _ _ _ _ hs => hs
  | produce items multiple source => exact (Site.produce_spec h hr.1 hr.2).map h fun _ _ _ hs => hs
  | write items source => exact hr.elim
  | attach history delay =>
    obtain ⟨⟨hh, hcount, hdelay⟩, hid, ha⟩ := hr
    exact (Site.attach_spec h hh hcount hdelay hid ha (hp.attach h.coherent ha)).map h
      fun _ _ _ hs => hs
  | raiseHistory history delay =>
    obtain ⟨⟨hh, hcount, hdelay⟩, ha⟩ := hr
    exact (Site.raiseHistory_spec h hh hcount hdelay (hp.raise h.coherent ha)).map h
      fun _ _ _ hs => hs
  | detach id =>
    obtain ⟨reader, hr⟩ := hr
    exact (Site.detach_spec h hr).map h fun _ _ _ hs => hs
  | read id items =>
    obtain ⟨reader, supply, hr, hs, hi⟩ := hr
    rw [Site.supply_eq h (Cursors.mem_of_reader? hr).1] at hs
    cases hs
    exact (Site.read_spec h hr hi).map h fun _ _ _ hs => hs
  | supply id =>
    obtain ⟨reader, hr⟩ := hr
    exact .ok_bind (Site.supply_run h hr) (Site.Takes.pure h rfl)
  | declareDelay id delay =>
    obtain ⟨⟨reader, hr⟩, hdelay⟩ := hr
    exact (Site.declareDelay_spec h hr hdelay).map h fun _ _ _ hs => hs
  | unblockInput id required =>
    obtain ⟨reader, hr⟩ := hr
    exact (Site.unblockInput_spec h hr).map h fun _ _ _ hs => hs
  | unblockInputAt required available readIndex => exact hr.elim
  | unblockOutput multiple force => exact (Site.unblockOutput_spec h).map h fun _ _ _ hs => hs.1
  | isInputBlocked id required =>
    obtain ⟨reader, hr⟩ := hr
    exact ((Site.isInputBlocked_spec h hr).takes h).map h fun _ _ _ hs => hs.1
  | isInputBlockedAt required readIndex =>
    exact ((Site.isInputBlockedAt_spec h).takes h).map h fun _ _ _ hs => hs.1
  | isOutputBlocked multiple => exact (Site.isOutputBlocked_spec h).map h fun _ _ _ hs => hs
  | tag new => exact ⟨.nothing, Site.Same.moves ⟨rfl, rfl, rfl, rfl⟩ h, rfl⟩
  | untag old consumer => exact ⟨.nothing, Site.Same.moves ⟨rfl, rfl, rfl, rfl⟩ h, rfl⟩
  | prune time => exact ((Site.prune_hides h.delayed time).takes h).map h fun _ _ _ hs => hs.1
  | tags id start stop consumer =>
    obtain ⟨reader, hr, ht⟩ := hr
    exact ((Site.tags_hides hr ht).takes h).map h fun _ _ _ hs => hs.1
  | setDone done => exact ⟨.nothing, Site.Same.moves ⟨rfl, rfl, rfl, rfl⟩ h, rfl⟩

end Call

end StreamBuffer
