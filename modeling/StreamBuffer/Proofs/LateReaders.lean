import StreamBuffer.Proofs.Cursors.Misplacement
import StreamBuffer.Proofs.Safety

/-!
# Readers that come late

A reader is placed on the whole region, whatever ring the others walk on. Where `Admits` allows it
to come, at any time, the counts of all readers stay right; where it does not, callers who do
nothing wrong can bring a reader to a wrong count.
-/

namespace StreamBuffer

/-- Every reader is told of a number of items, no more than it has left, and of none only if it
has none left. -/
def Site.CountsHold (site : Site) : Prop :=
  ∀ reader ∈ site.buffer.cursors.readers, ∃ supply, site.buffer.supply reader = .ok supply ∧
    reader.itemsRead + supply ≤ site.buffer.cursors.written + reader.lookBack ∧
    (supply = 0 → reader.itemsRead = site.buffer.cursors.written + reader.lookBack)

def Terms.anytime : Terms := ⟨fun _ _ => True, fun _ _ => True⟩

/-- A run on the terms of admitted readers comes to these cursors, on a buffer of this geometry. -/
def Site.Leads (site : Site) (geometry : Geometry) (cursors : Cursors) : Prop :=
  ∃ sent last, Run (Call.Respects .admitted) site sent last ∧
    last.buffer.geometry = geometry ∧ last.buffer.cursors = cursors

def Site.Fails (site : Site) : Prop :=
  ∃ sent last, Run (Call.Respects .admitted) site sent last ∧ ¬ last.CountsHold

variable {site : Site} {sent : Sent} {call : Call} {cursors others : Cursors} {reader : Reader}
variable {tail : Tail}
variable {geometry : Geometry}

theorem Site.Sound.countsHold (h : site.Sound) : site.CountsHold := by
  intro reader hr
  obtain ⟨hlag, hzero, _⟩ := h.coherent.available_spec hr
  have hread := (h.coherent.placed reader hr).read_le
  refine ⟨_, Site.supply_eq h hr, ?_, fun h0 => ?_⟩
  · unfold Cursors.lag at hlag
    omega
  · have := hzero h0
    unfold Cursors.lag at this
    omega

theorem Cursors.Miscounts.not_countsHold (hflat : site.buffer.geometry.mapping = .single)
    (h : site.buffer.cursors.Miscounts site.buffer.geometry.capacity) : ¬ site.CountsHold := by
  intro hcounts
  obtain ⟨reader, hr, hwrong⟩ := h
  obtain ⟨supply, hs, hle, hzero⟩ := hcounts reader hr
  unfold Buffer.supply Cursors.supply at hs
  rw [hflat] at hs
  rcases hwrong supply hs with hw | ⟨h0, hw⟩
  · unfold Cursors.lag at hw
    omega
  · have := hzero h0
    unfold Cursors.lag at hw
    omega

theorem Call.after_turns (call : Call)
    (h : call.perform.Ensures site (fun _ after => site.Turns cursors after) fun _ _ => False) :
    site.Turns cursors (call.after site) := by
  unfold Action.Ensures at h
  unfold Call.after
  split at h
  · rename_i he
    rw [he]
    exact h
  · exact h.elim

/-! ## Calls without soundness -/

namespace Site

theorem space_rewound (hflat : site.buffer.geometry.mapping = .single)
    (hcap : site.buffer.geometry.capacity < Word.limit)
    (hd : site.buffer.cursors.maxDelay + site.buffer.geometry.capacity < Word.limit)
    (hr : site.buffer.cursors.Rewound site.buffer.geometry.capacity reader) :
    space.Ensures site
      (fun room after => site.Same after ∧
        room = site.buffer.geometry.capacity - site.buffer.cursors.writeIndex)
      fun _ _ => False := by
  have hsome : site.buffer.cursors.readers ≠ [] := List.ne_nil_of_mem hr.mem
  unfold space
  refine .get_bind ?_
  dsimp only
  rw [if_neg (by simpa using hsome)]
  apply Action.Ensures.bind (pruneBehindReaders_hides hd)
  intro _ mid hsame
  rw [hflat]
  have hneeds : mid.buffer.cursors.needsHistory mid.buffer.geometry = .ok false := by
    rw [hsame.cursors_eq, hsame.geometry_eq]
    unfold Cursors.needsHistory
    rw [Word.sub_eq_ok (Nat.le_of_lt hr.writeIndex_lt)]
    simp [bind, Except.bind, hr.written_eq, pure, Except.pure]
  have hroom : mid.buffer.cursors.flatRoom mid.buffer.geometry.capacity =
      .ok (site.buffer.geometry.capacity - site.buffer.cursors.writeIndex) := by
    rw [hsame.cursors_eq, hsame.geometry_eq]
    exact hr.room hcap
  unfold flatSpace
  exact .get_bind (.lift_bind hneeds (.get_bind (.lift hroom ⟨hsame, rfl⟩)))

theorem Turns.leads {after : Site} (h : site.Turns cursors after) :
    after.Leads site.buffer.geometry cursors :=
  ⟨_, _, .refl, h.geometry_eq, h.cursors_eq⟩

namespace Leads

theorem fails (h : site.Leads geometry cursors) (hflat : geometry.mapping = .single)
    (hm : cursors.Miscounts geometry.capacity) : site.Fails := by
  obtain ⟨sent, last, hrun, hg, rfl⟩ := h
  rw [← hg] at hm hflat
  exact ⟨sent, last, hrun, hm.not_countsHold hflat⟩

theorem step (call : Call) (h : site.Leads geometry cursors)
    (hc : ∀ last : Site, last.buffer.geometry = geometry → last.buffer.cursors = cursors →
      call.Respects .admitted last ∧
      call.perform.Ensures last (fun _ after => last.Turns others after) fun _ _ => False) :
    site.Leads geometry others := by
  obtain ⟨sent, last, hrun, hg, he⟩ := h
  obtain ⟨hr, hperform⟩ := hc last hg he
  have hturns := call.after_turns hperform
  exact ⟨_, _, hrun.tail call hr, hturns.geometry_eq.trans hg, hturns.cursors_eq⟩

theorem detach (h : site.Leads geometry cursors) (hc : cursors.Countable) {id : Nat}
    (hr : cursors.reader? id = some reader) :
    site.Leads geometry (cursors.without id).refreshed := by
  apply h.step (.detach id)
  intro last _ he
  subst he
  refine ⟨⟨reader, hr⟩, ?_⟩
  exact Action.Ensures.bind (detach_turns hc hr) fun _ _ ht => ht

theorem read (h : site.Leads geometry cursors) (hflat : geometry.mapping = .single)
    {id items supply : Nat} {event : Event} (hr : cursors.reader? id = some reader)
    (hs : cursors.flatSupply geometry.capacity reader = .ok supply) (hi : items ≤ supply)
    (he : cursors.advanceReader geometry.capacity reader items = .ok (others, event))
    (hc : others.Countable) : site.Leads geometry others.refreshed := by
  apply h.step (.read id items)
  intro last hg hcursors
  subst hcursors
  rw [← hg] at hflat hs he
  refine ⟨⟨reader, supply, hr, ?_, hi⟩, ?_⟩
  · unfold Buffer.supply Cursors.supply
    rw [hflat]
    exact hs
  · exact Action.Ensures.bind (read_turns hr he hc) fun _ _ ht => ht

theorem advance (h : site.Leads geometry cursors) (hflat : geometry.mapping = .single)
    (hcap : geometry.capacity < Word.limit)
    (hd : cursors.maxDelay + geometry.capacity < Word.limit)
    (hr : cursors.Rewound geometry.capacity reader) :
    site.Leads geometry (cursors.wrote geometry.capacity 1) := by
  apply h.step (.advance 1)
  intro last hg he
  subst he
  rw [← hg] at hflat hcap hd hr ⊢
  have hwritten := hr.written_eq
  have hwrite := hr.writeIndex_lt
  have hlookBack := hr.maxLookBack_lt
  refine ⟨show last.buffer.cursors.written + 1 + last.buffer.cursors.maxLookBack <
    Word.limit by omega, ?_⟩
  apply Action.Ensures.bind (space_rewound hflat hcap hd hr)
  rintro room mid ⟨hsame, hroom⟩
  have hone : min 1 room = 1 := by omega
  rw [hone]
  rw [← hsame.geometry_eq, ← hsame.cursors_eq] at hwrite
  rw [← hsame.cursors_eq] at hwritten
  rw [← hsame.geometry_eq] at hcap
  have hadvance : (Site.advance 1).Ensures mid _ fun _ _ => False :=
    advance_turns (by omega) (by omega) (by omega)
  apply Action.Ensures.bind hadvance
  intro _ after ht
  rw [hsame.geometry_eq, hsame.cursors_eq] at ht
  exact Turns.trans hsame ht

/-- All others go; the tail window stays, since the reader is wrapped. -/
theorem alone {rest : List Reader}
    (h : site.Leads geometry { cursors with readers := rest ++ [reader] })
    (hc : Cursors.Countable { cursors with readers := rest ++ [reader] })
    (hw : cursors.Wrapped reader) :
    site.Leads geometry (cursors.lone reader) := by
  induction rest with
  | nil => exact h
  | cons first rest ih =>
    have hc' : Cursors.Countable { cursors with readers := rest ++ [reader] } :=
      fun other hm => hc other (List.mem_cons_of_mem _ hm)
    have hfirst : Cursors.reader? { cursors with readers := first :: rest ++ [reader] } first.id =
        some first := by
      simp [Cursors.reader?]
    have hgone :
        (Cursors.without { cursors with readers := first :: rest ++ [reader] } first.id).refreshed =
        { cursors with readers := rest ++ [reader] } := by
      rw [show Cursors.without { cursors with readers := first :: rest ++ [reader] } first.id =
        { cursors with readers := rest ++ [reader] } by simp [Cursors.without]]
      exact Cursors.refreshed_of_wrapped (List.mem_append_right _ (List.mem_singleton_self _)) hw
    refine ih ?_ hc'
    rw [← hgone]
    exact h.detach hc hfirst

end Leads

/-- Alone, a reader that went astray reads to the window, and on to the writer. -/
theorem Leads.astray (h : site.Leads geometry cursors) {rest : List Reader}
    (hreaders : cursors.readers = rest ++ [reader]) (hflat : geometry.mapping = .single)
    (hcap : geometry.capacity < Word.limit) (hc : cursors.Countable)
    (ha : cursors.Astray geometry.capacity tail reader) : site.Fails := by
  by_cases hp : tail.stop ≤ reader.readIndex
  · refine h.fails hflat (ha.miscounts ?_ hp)
    rw [hreaders]
    exact List.mem_append_right _ (List.mem_singleton_self _)
  have hp' : reader.readIndex < tail.stop := Nat.lt_of_not_le hp
  have halone : site.Leads geometry (cursors.lone reader) := by
    have he : { cursors with readers := rest ++ [reader] } = cursors := by rw [← hreaders]
    rw [← he] at h hc
    exact h.alone hc ha.wrapped
  -- in front it is not wrapped, so the tail window goes, and with it the end of its next run
  have hlapped := ha.lapped hp'
  have hfront : site.Leads geometry
      ({ cursors with tail := none }.lone (Cursors.fronted tail reader)) := by
    obtain ⟨event, he⟩ := ha.lone.advanceReader_eq hcap hp'
    have hs := ha.lone.flatSupply_eq.trans (Word.sub_eq_ok (Nat.le_of_lt hp'))
    have hread := halone.read hflat Cursors.reader?_lone hs
      (Nat.sub_le_sub_right (Nat.le_of_lt ha.window.start_lt) _) he
    have hstay : ¬ cursors.Wrapped (Cursors.fronted tail reader) := hlapped.not_wrapped
    rw [Cursors.lone_replace (by rfl), Cursors.lone_refreshed hstay] at hread
    exact hread (Cursors.lone_countable ha.counted)
  have hcaught : site.Leads geometry ({ cursors with tail := none }.lone
      (Cursors.caughtUp { cursors with tail := none } (Cursors.fronted tail reader))) := by
    obtain ⟨event, he⟩ := hlapped.lone.advanceReader_eq hcap
    have hread := hfront.read hflat Cursors.reader?_lone hlapped.lone.flatSupply_eq
      (Nat.le_refl _) he
    rw [Cursors.lone_replace (by rfl), Cursors.refreshed_of_none (by rfl)] at hread
    exact hread (Cursors.lone_countable ha.counted)
  exact hcaught.fails hflat hlapped.miscounts

/-- Put back, a reader that moved is wrong at once, or when the next item comes. -/
theorem Leads.rewound (h : site.Leads geometry cursors) (hflat : geometry.mapping = .single)
    (hcap : geometry.capacity < Word.limit)
    (hd : cursors.maxDelay + geometry.capacity < Word.limit)
    (hr : cursors.Rewound geometry.capacity reader) : site.Fails := by
  by_cases hl : cursors.lag reader = 0
  · exact (h.advance hflat hcap hd hr).fails hflat (hr.wrote_miscounts hcap hl)
  · exact h.fails hflat (hr.miscounts hcap (Nat.pos_of_ne_zero hl))

end Site

/-! ## The condition -/

namespace Call

theorem attach_fails (h : site.Sound) {history delay : Nat}
    (hr : (attach history delay).Respects .anytime site)
    (ha : ¬ site.buffer.cursors.Admits (history - 1)) :
    ((attach history delay).after site).Fails := by
  obtain ⟨⟨hh, hcount, hdelay⟩, hid, _⟩ := hr
  have hpos := Nat.zero_lt_of_lt h.coherent.writeIndex_lt
  have hl : history - 1 < site.buffer.geometry.capacity := by omega
  have hattach := Site.attach_turns h.coherent.housed h.flat hh hid delay
  have hjoined := Call.after_turns (attach history delay) (hattach.bind fun _ _ ht => ht)
  by_cases hu : site.buffer.cursors.Undisturbed (history - 1)
  · obtain ⟨tail, hastray⟩ := h.coherent.astray (by omega) hl hu ha delay
    have hcounted : (site.buffer.cursors.raised (history - 1) delay).Counted := by
      unfold Cursors.Counted
      rw [Cursors.written_raised, Cursors.maxLookBack_raised]
      exact hcount
    exact hjoined.leads.astray rfl h.flat h.capacity_lt
      (Cursors.joined_countable (h.coherent.raised hl hu delay).toOrdered hcounted) hastray
  · obtain ⟨hle, reader, hrewound⟩ := h.coherent.rewound hl hu delay
    refine hjoined.leads.rewound h.flat h.capacity_lt ?_ (hrewound.joined hle)
    have := h.delayed
    change (site.buffer.cursors.raised (history - 1) delay).maxDelay + _ < _
    rw [Cursors.maxDelay_raised]
    omega

theorem raiseHistory_fails (h : site.Sound) {history delay : Nat}
    (hr : (raiseHistory history delay).Respects .anytime site)
    (hu : ¬ site.buffer.cursors.Undisturbed (history - 1)) :
    ((raiseHistory history delay).after site).Fails := by
  obtain ⟨⟨hh, hcount, hdelay⟩, _⟩ := hr
  have hpos := Nat.zero_lt_of_lt h.coherent.writeIndex_lt
  have hl : history - 1 < site.buffer.geometry.capacity := by omega
  have hraise := Site.raiseHistory_turns h.coherent.housed h.flat hh delay
  have hraised := Call.after_turns (raiseHistory history delay) (hraise.bind fun _ _ ht => ht)
  obtain ⟨_, reader, hrewound⟩ := h.coherent.rewound hl hu delay
  refine hraised.leads.rewound h.flat h.capacity_lt ?_ hrewound
  have := h.delayed
  rw [Cursors.maxDelay_raised]
  omega

/-- Only where readers come do the terms differ. -/
theorem admitted_or_fails (h : site.Sound) (hr : call.Respects .anytime site) :
    call.Respects .admitted site ∨ (call.after site).Fails := by
  cases call with
  | attach history delay =>
    by_cases ha : site.buffer.cursors.Admits (history - 1)
    · exact .inl ⟨hr.1, hr.2.1, ha⟩
    · exact .inr (attach_fails h hr ha)
  | raiseHistory history delay =>
    by_cases hu : site.buffer.cursors.Undisturbed (history - 1)
    · exact .inl ⟨hr.1, hu⟩
    · exact .inr (raiseHistory_fails h hr hu)
  | _ => exact .inl hr

end Call

variable {backend : Backend} {request : Request} {id : Nat} {machine allocated : Machine}
variable {buffer : Buffer}

/-- **Late readers.** As long as readers come where they are admitted all counts hold. And no less
will do: after any other coming, a run on the very same terms leads to a count that does not. -/
theorem counts_hold_iff_admitted (hr : backend.Ready machine.devices)
    (hflat : request.mapping = .single)
    (ha : Buffer.allocate backend request id machine = .ok buffer allocated)
    (hrun : Run (Call.Respects .admitted) ⟨allocated, buffer⟩ sent site) :
    site.CountsHold ∧ ∀ call : Call, call.Respects .anytime site →
      ((∀ data last, Run (Call.Respects .admitted) (call.after site) data last → last.CountsHold) ↔
        call.Respects .admitted site) := by
  obtain ⟨hstart, _⟩ := Buffer.allocate_sound hr hflat ha
  have h := hrun.sound Terms.admitted_places hstart
  refine ⟨h.countsHold, fun call hc => ?_⟩
  constructor
  · intro hcounts
    rcases call.admitted_or_fails h hc with ha | ⟨data, last, hlast, hwrong⟩
    · exact ha
    · exact absurd (hcounts data last hlast) hwrong
  · intro ha data last hlast
    have hafter := (call.moves Terms.admitted_places h ha).sound h
    exact (hlast.sound Terms.admitted_places hafter).countsHold

/-- On the heap: after three items, a reader that looks back two is welcome. -/
theorem counts_hold_iff_admitted_heap :
    ∃ site, Run (Call.Respects .admitted) (Site.onHeap 4 1) (some #[7, 7, 7]) site ∧
    site.CountsHold ∧
      ∀ data last, Run (Call.Respects .admitted) ((Call.attach 3 0).after site) data last →
      last.CountsHold := by
  have hready : Backend.Ready .heap ({} : Machine).devices := trivial
  have hallocate := Buffer.allocate_onHeap 4 1 1 (by decide)
  have hstart : Run (Call.Respects .admitted) (Site.onHeap 4 1) .nothing _ := .refl
  have hattached := hstart.tail (.attach 2 0) ⟨by decide, by decide, nofun, nofun⟩
  have hrun := hattached.tail (.produce 3 1 fun _ => 7) ⟨by decide, by decide⟩
  obtain ⟨hcounts, hexact⟩ := counts_hold_iff_admitted hready rfl hallocate hrun
  refine ⟨_, hrun, hcounts,
    (hexact (.attach 3 0) ⟨by decide, by decide, trivial⟩).mpr ⟨by decide, by decide, ?_⟩⟩
  exact ⟨nofun, nofun⟩

/-- A late reader whose count no computation survives: it looks back past the front while there is
a tail window. -/
theorem late_reader_underflows :
    Buffer.allocate .heap { items := 16, itemSize := 1, producer := { outputMultiple := 4 } } 0 {} =
        .ok (Site.onHeap 16 1 4).buffer (Site.onHeap 16 1 4).machine ∧
      ∃ sent site reader, Run (Call.Respects .anytime) (Site.onHeap 16 1 4) sent site ∧
        reader ∈ site.buffer.cursors.readers ∧ site.buffer.supply reader = .error .subOverflow := by
  have hstart : Run (Call.Respects .anytime) (Site.onHeap 16 1 4) .nothing _ := .refl
  have hattached := hstart.tail (.attach 3 0) ⟨by decide, by decide, trivial⟩
  have hwritten := hattached.tail (.produce 12 1 fun _ => 7) ⟨by decide, by decide⟩
  have hread := hwritten.tail (.read 0 4) ⟨⟨0, 0, 0, 2, 0⟩, 14, rfl, rfl, by decide⟩
  -- the writer goes to the front, and what is unread before the end becomes the tail window
  have hasked := hread.tail .space trivial
  have hlate := hasked.tail (.attach 4 0) ⟨by decide, by decide +kernel, trivial⟩
  refine ⟨rfl, _, _, ⟨1, 15, 12, 3, 0⟩, hlate, ?_, ?_⟩
  · decide +kernel
  · rfl

end StreamBuffer
