import StreamBuffer.Proofs.Cursors.Declaration
import StreamBuffer.Proofs.Safety

/-!
# Declarations and the readers that are there

A stage that comes, or that asks for more look-back, leaves the other readers as they are once
something is written. Before that the writer makes room for the longest look-back, and all readers
are put behind it by all of theirs, whatever they have taken of it. A reader that took some is given
it once more.
-/

namespace StreamBuffer

namespace Site

def shows (site : Site) (reader : Reader) : Checked (Nat × Bytes) := do
  let supply ← site.buffer.supply reader
  return (supply, site.peek reader supply)

/-- Where the reader is going to be put, other bytes lie than where it is. -/
def Displaces (site : Site) (lookBack : Nat) (reader : Reader) : Prop :=
  site.peek reader reader.lookBack ≠
    site.peek { reader with readIndex := lookBack - reader.lookBack } reader.lookBack

/-- The look-back is the first of its length, nothing is written, and the reader is going to be put
behind the writer by all of its own look-back. Some of that it has taken, or the bytes there are
others. -/
structure Uproots (site : Site) (lookBack : Nat) (reader : Reader) : Prop where
  longest : site.buffer.cursors.maxLookBack < lookBack
  written_eq : site.buffer.cursors.written = 0
  unread : reader.itemsRead < reader.lookBack
  moves : site.buffer.supply reader ≠ .ok reader.lookBack ∨ site.Displaces lookBack reader

structure Outlasts (site after : Site) (lookBack : Nat) (reader other : Reader) : Prop where
  other_eq : ∃ readIndex, other = { reader with readIndex }
  shows_iff : after.shows other = site.shows reader ↔ ¬ site.Uproots lookBack reader
  /-- If the count is what is left to read, it is told by the items read. -/
  uproots_iff : site.buffer.supply reader =
      .ok (site.buffer.cursors.written + reader.lookBack - reader.itemsRead) →
    (site.Uproots lookBack reader ↔ site.buffer.cursors.maxLookBack < lookBack ∧
      site.buffer.cursors.written = 0 ∧ reader.itemsRead < reader.lookBack ∧
      (0 < reader.itemsRead ∨ site.Displaces lookBack reader))
  /-- A count that was right stays right, unless look-back that was taken is given once more. -/
  counts_iff : ∀ supply, site.buffer.supply reader = .ok supply →
    reader.itemsRead + supply ≤ site.buffer.cursors.written + reader.lookBack →
    ∃ more, after.buffer.supply other = .ok more ∧
      (reader.itemsRead + more ≤ after.buffer.cursors.written + reader.lookBack ↔
        ¬ (site.Uproots lookBack reader ∧ 0 < reader.itemsRead))

variable {site start after : Site} {others : Cursors} {lookBack delay granted items : Nat}
variable {reader : Reader}

theorem Turns.peek_eq (ht : site.Turns others after) (reader : Reader) (items : Nat) :
    after.peek reader items = site.peek reader items := by
  unfold peek
  rw [ht.geometry_eq, ht.storage_eq, ht.devices_eq]

theorem shows_of_supply {supply : Nat} (hs : site.buffer.supply reader = .ok supply) :
    site.shows reader = .ok (supply, site.peek reader supply) := bind_ok hs

theorem shows_eq_iff {supply : Nat} {bytes : Bytes} : site.shows reader = .ok (supply, bytes) ↔
    site.buffer.supply reader = .ok supply ∧ site.peek reader supply = bytes := by
  constructor
  · intro h
    obtain ⟨found, hs, h⟩ := bind_eq_ok.mp h
    cases h
    exact ⟨hs, rfl⟩
  · rintro ⟨hs, rfl⟩
    exact shows_of_supply hs

theorem uproots_iff_read (hs : site.buffer.supply reader =
      .ok (site.buffer.cursors.written + reader.lookBack - reader.itemsRead)) :
    site.Uproots lookBack reader ↔ site.buffer.cursors.maxLookBack < lookBack ∧
      site.buffer.cursors.written = 0 ∧ reader.itemsRead < reader.lookBack ∧
      (0 < reader.itemsRead ∨ site.Displaces lookBack reader) := by
  have htaken : site.buffer.cursors.written = 0 → reader.itemsRead < reader.lookBack →
      (site.buffer.supply reader ≠ .ok reader.lookBack ↔ 0 < reader.itemsRead) := by
    intro hw hr
    rw [hs, ne_eq, Except.ok.injEq]
    omega
  constructor
  · rintro ⟨hl, hw, hr, hm⟩
    exact ⟨hl, hw, hr, hm.imp_left (htaken hw hr).mp⟩
  · rintro ⟨hl, hw, hr, hm⟩
    exact ⟨hl, hw, hr, hm.imp_left (htaken hw hr).mpr⟩

theorem shows_of_none (hs : site.buffer.supply reader = .ok 0) :
    site.shows reader = .ok (0, #[]) := by
  rw [shows_of_supply hs]
  simp [peek, Bytes.slice]

theorem Turns.shows_eq (ht : site.Turns others after)
    (hflat : site.buffer.geometry.mapping = .single)
    (hi : others.writeIndex = site.buffer.cursors.writeIndex)
    (hw : others.written = site.buffer.cursors.written)
    (htail : others.tail = site.buffer.cursors.tail) (reader : Reader) :
    after.buffer.supply reader = site.buffer.supply reader ∧
    after.shows reader = site.shows reader := by
  have hsupply : after.buffer.supply reader = site.buffer.supply reader := by
    unfold Buffer.supply Cursors.supply
    rw [ht.geometry_eq, ht.cursors_eq, hflat]
    exact Cursors.flatSupply_congr hi hw htail
  refine ⟨hsupply, ?_⟩
  unfold shows
  rw [hsupply]
  simp only [ht.peek_eq]

theorem supply_flat (hflat : site.buffer.geometry.mapping = .single) (reader : Reader) :
    site.buffer.supply reader =
      site.buffer.cursors.flatSupply site.buffer.geometry.capacity reader := by
  unfold Buffer.supply Cursors.supply
  rw [hflat]

theorem Turns.written_declared (ht : site.Turns others after)
    (hd : site.buffer.cursors.Declared lookBack delay others) :
    after.buffer.cursors.written = site.buffer.cursors.written := by
  rw [ht.cursors_eq, hd.written_eq]

theorem Turns.spares_reader (ht : site.Turns others after)
    (hflat : site.buffer.geometry.mapping = .single)
    (hd : site.buffer.cursors.Declared lookBack delay others)
    (hn : ¬ (site.buffer.cursors.maxLookBack < lookBack ∧ site.buffer.cursors.written = 0)) :
    site.Outlasts after lookBack reader reader := by
  have hi := hd.writeIndex_eq
  rw [Cursors.raised_of_not_reserved hn] at hi
  obtain ⟨hsupply, hshows⟩ := ht.shows_eq hflat hi hd.written_eq hd.tail_eq reader
  have hstays : ¬ site.Uproots lookBack reader := fun hu => hn ⟨hu.longest, hu.written_eq⟩
  refine ⟨⟨_, rfl⟩, iff_of_true hshows hstays, uproots_iff_read,
    fun supply hs hcount => ⟨supply, hsupply.trans hs, iff_of_true ?_ ?_⟩⟩
  · rw [ht.written_declared hd]
    exact hcount
  · exact fun hu => hstays hu.1

theorem supply_of_read (hflat : site.buffer.geometry.mapping = .single)
    (hc : site.buffer.cursors.written + reader.lookBack < Word.limit)
    (hr : site.buffer.cursors.written + reader.lookBack ≤ reader.itemsRead) :
    site.buffer.supply reader = .ok 0 :=
  (supply_flat hflat reader).trans (Cursors.flatSupply_of_read hc hr)

section Reserved

variable (ht : site.Turns others after) (hflat : site.buffer.geometry.mapping = .single)
  (hd : site.buffer.cursors.Declared lookBack delay others) (hlimit : reader.lookBack < Word.limit)
  (hl : site.buffer.cursors.maxLookBack < lookBack) (hw : site.buffer.cursors.written = 0)
include ht hflat hd hlimit hw

/-- A reader that has taken all of its look-back finds nothing, wherever it is. -/
theorem Turns.reserves_read (hr : reader.lookBack ≤ reader.itemsRead) (readIndex : Nat) :
    site.Outlasts after lookBack reader { reader with readIndex } := by
  have hwritten := (ht.written_declared hd).trans hw
  have hbefore : site.buffer.supply reader = .ok 0 :=
    supply_of_read hflat (by rw [hw, Nat.zero_add]; exact hlimit)
      (by rw [hw, Nat.zero_add]; exact hr)
  have hafter : after.buffer.supply { reader with readIndex } = .ok 0 :=
    supply_of_read (ht.geometry_eq ▸ hflat) (by rw [hwritten, Nat.zero_add]; exact hlimit)
      (by rw [hwritten, Nat.zero_add]; exact hr)
  have hstays : ¬ site.Uproots lookBack reader := fun hu => Nat.not_le_of_lt hu.unread hr
  refine ⟨⟨_, rfl⟩, iff_of_true ((shows_of_none hafter).trans (shows_of_none hbefore).symm) hstays,
    uproots_iff_read, fun supply hs hcount => ⟨0, hafter, iff_of_true ?_ fun hu => hstays hu.1⟩⟩
  obtain rfl : supply = 0 := Except.ok.inj (hs.symm.trans hbefore)
  rw [hwritten.trans hw.symm]
  exact hcount

include hl

/-- A reader that has not is put behind the writer by all of it. -/
theorem Turns.reserves_unread (hle : reader.lookBack ≤ lookBack)
    (hr : reader.itemsRead < reader.lookBack) :
    site.Outlasts after lookBack reader
      { reader with readIndex := lookBack - reader.lookBack } := by
  have hwritten := (ht.written_declared hd).trans hw
  have hplace : after.buffer.cursors.writeIndex = lookBack := by
    rw [ht.cursors_eq, hd.writeIndex_eq, Cursors.raised_of_reserved hl hw]
    exact Nat.max_eq_right (Nat.le_of_lt hl)
  have hmore : after.buffer.supply { reader with readIndex := lookBack - reader.lookBack } =
      .ok reader.lookBack := by
    rw [supply_flat (ht.geometry_eq ▸ hflat)]
    exact Cursors.flatSupply_of_back hwritten hlimit
      (by rw [hplace]; exact Nat.sub_add_cancel hle) hr
  have hshows := shows_of_supply hmore
  rw [ht.peek_eq] at hshows
  refine ⟨⟨_, rfl⟩, ?_, uproots_iff_read, fun supply hs hcount => ⟨_, hmore, ?_⟩⟩
  · rw [hshows, eq_comm, shows_eq_iff]
    constructor
    · rintro ⟨hsupply, hbytes⟩ hu
      exact hu.moves.elim (fun hn => hn hsupply) fun hn => hn hbytes
    · intro hn
      constructor
      · exact Decidable.byContradiction fun hs => hn ⟨hl, hw, hr, .inl hs⟩
      · exact Decidable.byContradiction fun hb => hn ⟨hl, hw, hr, .inr hb⟩
  · rw [hwritten]
    constructor
    · rintro hle ⟨_, hpos⟩
      omega
    · intro hn
      refine Nat.le_of_not_lt fun hlt => hn ⟨⟨hl, hw, hr, .inl fun he => ?_⟩, by omega⟩
      obtain rfl : supply = reader.lookBack := Except.ok.inj (hs.symm.trans he)
      omega

end Reserved

theorem Turns.outlasts (ht : site.Turns others after)
    (hflat : site.buffer.geometry.mapping = .single)
    (hd : site.buffer.cursors.Declared lookBack delay others) (hknown : site.buffer.cursors.Known)
    (hlimit : site.buffer.cursors.maxLookBack < Word.limit) {id : Nat}
    (hr : site.buffer.cursors.reader? id = some reader) :
    ∃ other, after.buffer.cursors.reader? id = some other ∧
    site.Outlasts after lookBack reader other := by
  have hlookBack := hknown reader (Cursors.mem_of_reader? hr).1
  rw [ht.cursors_eq]
  by_cases hg : site.buffer.cursors.maxLookBack < lookBack ∧ site.buffer.cursors.written = 0
  · obtain ⟨hl, hw⟩ := hg
    have hraised : (site.buffer.cursors.raised lookBack delay).readers =
        site.buffer.cursors.readers.map fun reader =>
        { reader with readIndex := lookBack - reader.lookBack } := by
      rw [Cursors.raised_of_reserved hl hw]
      simp only [Cursors.reserved, Cursors.withMaxima, Nat.max_eq_right (Nat.le_of_lt hl)]
    refine ⟨_, hd.kept id _ (Cursors.reader?_map hraised hr), ?_⟩
    rcases Nat.lt_or_ge reader.itemsRead reader.lookBack with hunread | hread
    · exact ht.reserves_unread hflat hd (Nat.lt_of_le_of_lt hlookBack hlimit) hl hw
        (by omega) hunread
    · exact ht.reserves_read hflat hd (Nat.lt_of_le_of_lt hlookBack hlimit) hw hread _
  · refine ⟨reader, hd.kept id reader ?_, ht.spares_reader hflat hd hg⟩
    rw [Cursors.raised_of_not_reserved hg]
    exact hr

namespace Enclosed

variable {geometry : Geometry} {context : Context}

theorem housed (h : site.Enclosed geometry context) (hk : site.buffer.cursors.Known) :
    site.buffer.cursors.Housed site.buffer.geometry.capacity := by
  rw [h.geometry_eq]
  exact ⟨h.bounded.writeIndex_lt, hk, h.bounded.maxLookBack_lt⟩

theorem maxLookBack_lt (h : site.Enclosed geometry context) :
    site.buffer.cursors.maxLookBack < Word.limit := by
  have hmeasured := h.measured
  rw [h.geometry_eq] at hmeasured
  have := hmeasured.twice_le
  have := h.bounded.maxLookBack_lt
  omega

/-- An action that only declares look-back finishes, and the readers outlast it. -/
theorem outlasted {α : Type} {action : Action Site α} (h : site.Enclosed geometry context)
    (hk : site.buffer.cursors.Known) (hflat : site.buffer.geometry.mapping = .single)
    (hd : site.buffer.cursors.Declared lookBack delay others)
    (ht : action.Ensures site (fun _ after => site.Turns others after) fun _ _ => False) :
    ∃ a after, action site = .ok a after ∧
    ∀ id reader, site.buffer.cursors.reader? id = some reader →
      ∃ other, after.buffer.cursors.reader? id = some other ∧
      site.Outlasts after lookBack reader other := by
  obtain ⟨a, after, he, ht⟩ := ht.finishes
  exact ⟨a, after, he, fun id reader hr => ht.outlasts hflat hd hk h.maxLookBack_lt hr⟩

end Enclosed

end Site

/-! ## Plays -/

variable {allows : Nat → Site → Act → Prop} {start site : Site} {granted : Nat}

theorem Act.within_any (act : Act) (site : Site) : act.Within .any site := by
  cases act with
  | call call =>
    cases call <;> first | trivial | exact fun _ _ _ => trivial | exact fun _ _ => trivial
  | _ => trivial

theorem Play.known (h : start.buffer.cursors.Known) (hplay : Play allows start granted site) :
    site.buffer.cursors.Known := by
  induction hplay with
  | refl => exact h
  | @tail granted site act _ _ ih =>
    have hpasses := act.passes (act.within_any site)
    exact hpasses.keeps (fun _ hr => hr.known ih) fun _ _ hm => hm.known

variable {backend : Backend} {request : Request} {id history : Nat} {machine allocated : Machine}
variable {buffer : Buffer}

/-- **Declarations.** Whatever was called before, a stage that comes or asks for more look-back
leaves every other reader its count, and what it finds unless it is uprooted. Its count stays right
unless it is uprooted after it took some look-back. -/
theorem declarations_spare_readers_unless_uprooted (hr : backend.Ready machine.devices)
    (hflat : request.mapping = .single)
    (ha : Buffer.allocate backend request id machine = .ok buffer allocated)
    (hplay : Play (fun _ site act => act.InRegion site) ⟨allocated, buffer⟩ granted site)
    (hh : history ≤ buffer.geometry.capacity) (delay : Nat) :
    (site.buffer.cursors.nextReader + 1 < Word.limit →
      ∃ new after, Site.attach history delay site = .ok new after ∧
      ∀ id reader, site.buffer.cursors.reader? id = some reader →
        ∃ other, after.buffer.cursors.reader? id = some other ∧
        site.Outlasts after (history - 1) reader other) ∧
    ∃ after, Site.raiseHistory history delay site = .ok ⟨⟩ after ∧
      ∀ id reader, site.buffer.cursors.reader? id = some reader →
        ∃ other, after.buffer.cursors.reader? id = some other ∧
        site.Outlasts after (history - 1) reader other := by
  have hdelivers := Buffer.allocate_delivers hr ha
  have henclosed := hdelivers.enclosed.play hplay
  have hknown : site.buffer.cursors.Known := by
    refine hplay.known ?_
    change buffer.cursors.Known
    rw [hdelivers.cursors_eq]
    exact nofun
  have hsingle : site.buffer.geometry.mapping = .single := by
    rw [henclosed.geometry_eq]
    exact hdelivers.gives.mapping_eq.trans hflat
  rw [← henclosed.geometry_eq] at hh
  have hhoused := henclosed.housed hknown
  refine ⟨fun hid => ?_, ?_⟩
  · exact henclosed.outlasted hknown hsingle Cursors.declared_joined
      (Site.attach_turns hhoused hsingle hh hid delay)
  · obtain ⟨_, after, he, houtlasts⟩ := henclosed.outlasted hknown hsingle Cursors.declared_raised
      (Site.raiseHistory_turns hhoused hsingle hh delay)
    exact ⟨after, he, houtlasts⟩

def Site.seated : Site := (Call.attach 3 0).after (Site.onHeap 8 1)

/-- Its two items are two places on, and the same. -/
theorem declarations_spare_readers_unless_uprooted_heap :
    Play (fun _ site act => act.InRegion site) (Site.onHeap 8 1) 0 .seated ∧
      Site.seated.shows ⟨0, 0, 0, 2, 0⟩ = .ok (2, #[0, 0]) ∧
      ∃ after other, Site.raiseHistory 5 0 .seated = .ok ⟨⟩ after ∧
      after.buffer.cursors.reader? 0 = some other ∧ after.shows other = .ok (2, #[0, 0]) := by
  have hready : Backend.Ready .heap ({} : Machine).devices := trivial
  have hallocate := Buffer.allocate_onHeap 8 1 1 (by decide)
  have hplay : Play (fun _ site act => act.InRegion site) (Site.onHeap 8 1) 0 .seated :=
    .tail (.call (.attach 3 0)) .refl trivial
  obtain ⟨_, after, he, hkept⟩ :=
    declarations_spare_readers_unless_uprooted hready rfl hallocate hplay (show 5 ≤ 8 by decide) 0
  obtain ⟨other, hother, houtlasts⟩ := hkept 0 ⟨0, 0, 0, 2, 0⟩ rfl
  have hshows : Site.seated.shows ⟨0, 0, 0, 2, 0⟩ = .ok (2, #[0, 0]) := rfl
  have hstays : ¬ Site.seated.Uproots 4 ⟨0, 0, 0, 2, 0⟩ :=
    fun hu => hu.moves.elim (fun hn => hn rfl) fun hn => hn rfl
  exact ⟨hplay, hshows, after, other, he, hother, (houtlasts.shows_iff.mpr hstays).trans hshows⟩

def Site.tasted : Site := (Call.read 0 1).after .seated

/-- Longer look-back, asked for or brought by another reader, gives the reader two items where one
is left. -/
theorem declaration_gives_look_back_again :
    Play (Act.Respects .early) (Site.onHeap 8 1) 0 .tasted ∧
      Site.tasted.buffer.cursors.reader? 0 = some ⟨0, 1, 1, 2, 0⟩ ∧
      Site.tasted.buffer.supply ⟨0, 1, 1, 2, 0⟩ = .ok 1 ∧
      (∃ told after, Site.raiseHistory 5 0 .tasted = .ok told after ∧
        after.buffer.cursors.written = 0 ∧
        after.buffer.cursors.reader? 0 = some ⟨0, 2, 1, 2, 0⟩ ∧
        after.buffer.supply ⟨0, 2, 1, 2, 0⟩ = .ok 2) ∧
      ∃ new after, Site.attach 5 0 .tasted = .ok new after ∧ after.buffer.cursors.written = 0 ∧
        after.buffer.cursors.reader? 0 = some ⟨0, 2, 1, 2, 0⟩ ∧
        after.buffer.supply ⟨0, 2, 1, 2, 0⟩ = .ok 2 := by
  have hstart : Play (Act.Respects .early) (Site.onHeap 8 1) 0 _ := .refl
  have hseated := hstart.tail (.call (.attach 3 0))
    ⟨⟨by decide, by decide, by decide⟩, by decide, rfl, nofun⟩
  have htasted := hseated.tail (.call (.read 0 1)) ⟨_, 2, rfl, rfl, by decide⟩
  exact ⟨htasted, rfl, rfl, Action.Ensures.finishes (by decide +kernel),
    Action.Ensures.finishes (by decide +kernel)⟩

end StreamBuffer
