import StreamBuffer.Proofs.Deeds

/-!
# Buffers and readers as they are noted

From the notes follows which identities were given out, which readers are left of a buffer, and how
many buffers are live. `Platform.Counted` says that a platform agrees with its notes in all this,
and `swept` keeps to it: the table of readers is empty when a buffer is released, and the count of
live buffers is not zero.
-/

namespace StreamBuffer

namespace Machine

variable {machine : Machine}

def tally (machine : Machine) : Nat × Nat := (machine.journal.live, machine.journal.count .released)

theorem Gains.tally_eq {runs : List DeviceRun} {after : Machine} (h : machine.Gains runs after) :
    after.tally = machine.tally := Prod.ext h.journal.live_eq (h.journal.count_eq .released rfl)

theorem tally_free (device address : Nat) :
    (machine.free device address).tally = machine.tally := by
  unfold free
  dsimp only
  split
  · rfl
  · exact Prod.ext rfl (Journal.count_log none _)

theorem tally_release (region : Region) : (machine.release region).tally = machine.tally := by
  cases region with
  | host segment => rfl
  | device run => exact tally_free run.device run.address

end Machine

theorem Storage.tally_release (storage : Storage) (machine : Machine) :
    (storage.release machine).tally = machine.tally := by
  unfold release
  split
  · exact Machine.tally_release _
  · exact Machine.tally_release _

namespace Platform

/-! ## What was noted of buffers -/

def Note.allocation : Note → Option (Nat × Nat)
  | allocated slot id => some (slot, id)
  | _ => none

def Note.attachment (slot : Nat) : Note → Option (Nat × Nat)
  | attached reader place id => if place = slot then some (reader, id) else none
  | _ => none

def allocated (notes : List Note) : List (Nat × Nat) := notes.filterMap Note.allocation

def attached (notes : List Note) (slot : Nat) : List (Nat × Nat) :=
  notes.filterMap (Note.attachment slot)

def remaining (notes : List Note) (slot : Nat) : List (Nat × Nat) :=
  (attached notes slot).filter fun reader => .readerDropped reader.1 ∉ notes

def Referred (notes : List Note) (slot : Nat) : Prop :=
  (∃ id, .allocated slot id ∈ notes) ∧ .handleDropped slot ∉ notes ∨ remaining notes slot ≠ []

section Notes

variable {notes more : List Note} {slot other reader id : Nat}

theorem allocated_append : allocated (notes ++ more) = allocated notes ++ allocated more :=
  List.filterMap_append

theorem allocated_append_of_nil (h : allocated more = []) :
    allocated (notes ++ more) = allocated notes := by
  rw [allocated_append, h, List.append_nil]

theorem attached_append :
    attached (notes ++ more) slot = attached notes slot ++ attached more slot :=
  List.filterMap_append

theorem attached_append_attached : attached (notes ++ [.attached reader other id]) slot =
    attached notes slot ++ if other = slot then [(reader, id)] else [] := by
  rw [attached_append]
  by_cases h : other = slot <;> simp [attached, Note.attachment, h]

theorem remaining_append_attached (h : .readerDropped reader ∉ notes) :
    remaining (notes ++ [.attached reader other id]) slot =
      remaining notes slot ++ if other = slot then [(reader, id)] else [] := by
  have hsame : ∀ p : Nat × Nat,
      Note.readerDropped p.1 ∉ notes ++ [.attached reader other id] ↔
      .readerDropped p.1 ∉ notes := by simp
  simp only [remaining, attached_append_attached, List.filter_append, hsame]
  by_cases hs : other = slot <;> simp [hs, h]

theorem remaining_append_readerDropped : remaining (notes ++ [.readerDropped reader]) slot =
    (remaining notes slot).filter (·.1 != reader) := by
  have hnone : attached [.readerDropped reader] slot = [] := rfl
  simp only [remaining, attached_append, hnone, List.append_nil, List.filter_filter]
  refine List.filter_congr fun p _ => ?_
  by_cases hp : p.1 = reader <;> simp [hp]

def Unread (more : List Note) : Prop :=
  (∀ slot, attached more slot = []) ∧ ∀ reader, .readerDropped reader ∉ more

theorem attached_append_unread (h : Unread more) :
    attached (notes ++ more) slot = attached notes slot := by
  simp [attached_append, h.1]

theorem remaining_append_unread (h : Unread more) :
    remaining (notes ++ more) slot = remaining notes slot := by
  simp [remaining, attached_append, h.1, h.2]

end Notes

/-! ## What a platform keeps to -/

structure Tidy (notes : List Note) (slot : Nat) (live : LiveBuffer) : Prop where
  id_eq : live.buffer.id = slot
  held_iff : live.held = true ↔ .handleDropped slot ∉ notes
  table_eq : live.buffer.cursors.readers.map (·.id) = (remaining notes slot).map (·.2)
  nextReader_eq : live.buffer.cursors.nextReader = (attached notes slot).length
  tail_eq : live.buffer.cursors.tail = none

/-- Buffers, readers and counters are what follows from the notes. Nothing is said of which buffers
are live. -/
structure Counted (notes : List Note) (platform : Platform) : Prop where
  allocated_eq : allocated notes = (List.range platform.buffers.next).map
    fun number => (number, number)
  nextBuffer_eq : platform.nextBuffer = platform.buffers.next
  tidy : ∀ slot live, platform.buffers.get? slot = some live → Tidy notes slot live
  unborn : ∀ slot, platform.buffers.next ≤ slot →
    .handleDropped slot ∉ notes ∧ attached notes slot = []
  fresh : ∀ slot, (attached notes slot).map (·.2) = List.range (attached notes slot).length
  remaining_eq : ∀ slot, remaining notes slot =
    (platform.readers.toList.filter (·.2.buffer == slot)).map fun p => (p.1, p.2.id)
  dropped_lt : ∀ reader, .readerDropped reader ∈ notes → reader < platform.readers.next
  live_eq : platform.machine.journal.live = platform.buffers.things.length
  releases_eq : platform.machine.journal.count .released + platform.buffers.things.length =
    platform.buffers.next

variable {notes more : List Note} {platform after : Platform} {slot : Nat} {live : LiveBuffer}

namespace Counted

/-- What is done elsewhere does not matter. -/
theorem of_same (h : Counted notes platform) (hb : after.buffers = platform.buffers)
    (hr : after.readers = platform.readers) (hn : after.nextBuffer = platform.nextBuffer)
    (ht : after.machine.tally = platform.machine.tally) : Counted notes after := by
  obtain ⟨hlive, hreleases⟩ := Prod.ext_iff.mp ht
  constructor
  case allocated_eq => exact hb ▸ h.allocated_eq
  case nextBuffer_eq => rw [hn, hb, h.nextBuffer_eq]
  case tidy => exact hb ▸ h.tidy
  case unborn => exact hb ▸ h.unborn
  case remaining_eq => exact hr ▸ h.remaining_eq
  case dropped_lt => exact hr ▸ h.dropped_lt
  case fresh => exact h.fresh
  case live_eq => exact hlive.trans (hb ▸ h.live_eq)
  case releases_eq =>
    rw [hb, ← h.releases_eq]
    exact congrArg (· + _) hreleases

/-- A buffer is referred to if its handle or a reader was not dropped. -/
theorem isReferred_iff (h : Counted notes platform) (hg : platform.buffers.get? slot = some live) :
    platform.isReferred slot live = true ↔
    .handleDropped slot ∉ notes ∨ remaining notes slot ≠ [] := by
  rw [isReferred, Bool.or_eq_true, (h.tidy slot live hg).held_iff, h.remaining_eq]
  refine or_congr_right ?_
  simp [List.filter_eq_nil_iff]

theorem mem_allocated_iff (h : Counted notes platform) :
    (∃ id, .allocated slot id ∈ notes) ↔ slot < platform.buffers.next := by
  have hmem : (∃ id, .allocated slot id ∈ notes) ↔ ∃ id, (slot, id) ∈ allocated notes := by
    refine exists_congr fun id => ?_
    rw [allocated, List.mem_filterMap]
    constructor
    · intro hm
      exact ⟨_, hm, rfl⟩
    · rintro ⟨note, hm, hnote⟩
      cases note <;> cases hnote
      exact hm
  rw [hmem, h.allocated_eq]
  simp

theorem referred_iff_isReferred (h : Counted notes platform)
    (hg : platform.buffers.get? slot = some live) :
    Referred notes slot ↔ platform.isReferred slot live = true := by
  rw [h.isReferred_iff hg, Referred, h.mem_allocated_iff]
  simp [Table.lt_next hg]

theorem readers_eq_nil (h : Counted notes platform) (hg : platform.buffers.get? slot = some live)
    (hu : platform.isReferred slot live = false) : live.buffer.cursors.readers = [] := by
  have hnone : ¬ (.handleDropped slot ∉ notes ∨ remaining notes slot ≠ []) := by
    rw [← h.isReferred_iff hg, hu]
    exact Bool.false_ne_true
  have htable := (h.tidy slot live hg).table_eq
  rw [not_not.mp (not_or.mp hnone).2] at htable
  exact List.map_eq_nil_iff.mp htable

theorem live_pos (h : Counted notes platform) (hg : platform.buffers.get? slot = some live) :
    1 ≤ platform.machine.journal.live := by
  rw [h.live_eq]
  exact List.length_pos_of_mem (Table.mem_things hg)

/-- The assertion on readers holds and the counter does not underflow. -/
theorem releaseUnused_eq (h : Counted notes platform) (slot : Nat) :
    releaseUnused slot platform = .ok ⟨⟩ (platform.swept slot) := by
  unfold releaseUnused swept
  rw [Action.get_run]
  cases hg : platform.buffers.get? slot with
  | none => rfl
  | some live =>
    dsimp only
    cases hu : platform.isReferred slot live with
    | true => rfl
    | false =>
      -- Only here is anything asserted or counted down.
      have hcount : platform.machine.journal.countReleased = .ok { platform.machine.journal with
          live := platform.machine.journal.live - 1, gauge :=
          some (platform.machine.journal.live - 1) } :=
        bind_ok (Word.sub_eq_ok (h.live_pos hg))
      simp only [h.readers_eq_nil hg hu, List.isEmpty_nil, hcount]
      rfl

theorem tally_released (platform : Platform) (slot : Nat) (live : LiveBuffer) :
    (platform.released slot live).machine.tally =
      (platform.machine.journal.live - 1, platform.machine.journal.count .released + 1) := by
  rw [released, Storage.tally_release]
  exact Prod.ext rfl (Journal.count_log _ _)

theorem released_counted (h : Counted notes platform)
    (hg : platform.buffers.get? slot = some live) :
    Counted notes (platform.released slot live) := by
  obtain ⟨hlive, hreleases⟩ := Prod.ext_iff.mp (tally_released platform slot live)
  have hlength := Table.length_things_remove hg
  have hnext : (platform.released slot live).buffers.next = platform.buffers.next :=
    Table.next_remove
  constructor
  case allocated_eq => rw [hnext, h.allocated_eq]
  case nextBuffer_eq => rw [hnext, ← h.nextBuffer_eq]; rfl
  case tidy => exact fun other kept hk => h.tidy other kept (Table.of_get?_remove hk)
  case unborn => exact fun other hle => h.unborn other (hnext ▸ hle)
  case remaining_eq => exact h.remaining_eq
  case dropped_lt => exact h.dropped_lt
  case fresh => exact h.fresh
  case live_eq =>
    have hbefore := h.live_eq
    have hafter : (platform.released slot live).machine.journal.live = _ := hlive
    change _ = (platform.buffers.remove slot).things.length
    omega
  case releases_eq =>
    have hbefore := h.releases_eq
    have hafter : (platform.released slot live).machine.journal.count .released = _ := hreleases
    change _ + (platform.buffers.remove slot).things.length = _
    omega

end Counted

theorem Tidy.append_unread (h : Tidy notes slot live) (hu : Unread more)
    (hd : .handleDropped slot ∉ more) :
    Tidy (notes ++ more) slot live where
  id_eq := h.id_eq
  held_iff := by simpa [hd] using h.held_iff
  table_eq := by rw [remaining_append_unread hu, h.table_eq]
  nextReader_eq := by rw [attached_append_unread hu, h.nextReader_eq]
  tail_eq := h.tail_eq

namespace Counted

theorem returns (h : Counted notes platform) (place : Nat) :
    Counted (notes ++ [.returned place]) platform := by
  have hu : Unread [.returned place] := ⟨fun _ => rfl, by simp⟩
  constructor
  case allocated_eq => rw [allocated_append_of_nil rfl, h.allocated_eq]
  case nextBuffer_eq => exact h.nextBuffer_eq
  case tidy => exact fun slot live hg => (h.tidy slot live hg).append_unread hu (by simp)
  case unborn => simpa [attached_append_unread hu] using h.unborn
  case fresh => simpa only [attached_append_unread hu] using h.fresh
  case remaining_eq => simpa only [remaining_append_unread hu] using h.remaining_eq
  case dropped_lt => simpa using h.dropped_lt
  case live_eq => exact h.live_eq
  case releases_eq => exact h.releases_eq

/-- A new buffer gets the next number, which is its identity as well. -/
theorem allocates (h : Counted notes platform) {buffer : Buffer} {machine : Machine}
    (hg : platform.machine.Gains buffer.storage.runs machine)
    (hid : buffer.id = platform.nextBuffer) (hc : buffer.cursors = {}) :
    Counted (notes ++ [.allocated platform.buffers.next buffer.id]) { platform with
      machine := { machine with journal := machine.journal.countAllocated }
      buffers := platform.buffers.push { buffer, held := true }
      nextBuffer := platform.nextBuffer + 1 } := by
  -- identities are given out by number
  have hnumber : buffer.id = platform.buffers.next := hid.trans h.nextBuffer_eq
  have hu : Unread [.allocated platform.buffers.next buffer.id] := ⟨fun _ => rfl, by simp⟩
  obtain ⟨hunheld, hunread⟩ := h.unborn platform.buffers.next le_rfl
  constructor
  case allocated_eq =>
    rw [allocated_append, h.allocated_eq]
    simp [Platform.allocated, Note.allocation, hnumber, List.range_succ]
  case nextBuffer_eq => simp [h.nextBuffer_eq]
  case tidy =>
    intro other kept hk
    rcases Table.of_get?_push hk with ⟨rfl, rfl⟩ | hk
    · refine Tidy.append_unread ⟨hnumber, iff_of_true rfl hunheld, ?_, ?_, ?_⟩ hu (by simp)
      · simp [hc, remaining, hunread]
      · simp [hc, hunread]
      · simp [hc]
    · exact (h.tidy other kept hk).append_unread hu (by simp)
  case unborn =>
    intro other hle
    have hle : platform.buffers.next + 1 ≤ other := Table.next_push ▸ hle
    simpa [attached_append_unread hu] using h.unborn other (Nat.le_of_succ_le hle)
  case fresh => simpa only [attached_append_unread hu] using h.fresh
  case remaining_eq => simpa only [remaining_append_unread hu] using h.remaining_eq
  case dropped_lt => simpa using h.dropped_lt
  case live_eq =>
    rw [Table.things_push, List.length_append, List.length_singleton, ← h.live_eq]
    exact congrArg (· + 1) hg.journal.live_eq
  case releases_eq =>
    rw [Table.things_push, List.length_append, List.length_singleton, Table.next_push,
      ← h.releases_eq, ← Nat.add_assoc]
    exact congrArg (· + _ + 1) (hg.journal.count_eq .released rfl)

theorem dropsHandle (h : Counted notes platform) (hg : platform.buffers.get? slot = some live) :
    Counted (notes ++ [.handleDropped slot])
      { platform with buffers := platform.buffers.set slot { live with held := false } } := by
  have hu : Unread [.handleDropped slot] := ⟨fun _ => rfl, by simp⟩
  have hlength := Table.length_things_set hg { live with held := false }
  constructor
  case allocated_eq => rw [allocated_append_of_nil rfl, h.allocated_eq, Table.next_set]
  case nextBuffer_eq => simpa using h.nextBuffer_eq
  case tidy =>
    intro other kept hk
    rcases Table.of_get?_set hk with ⟨rfl, rfl⟩ | ⟨hne, hk⟩
    · have htidy := h.tidy other live hg
      refine ⟨htidy.id_eq, by simp, ?_, ?_, htidy.tail_eq⟩
      · rw [remaining_append_unread hu, htidy.table_eq]
      · rw [attached_append_unread hu, htidy.nextReader_eq]
    · exact (h.tidy other kept hk).append_unread hu (by simpa using hne)
  case unborn =>
    intro other hle
    have hle : platform.buffers.next ≤ other := Table.next_set ▸ hle
    have hne : other ≠ slot := fun heq => absurd (Table.lt_next hg) (heq ▸ hle).not_gt
    simpa [attached_append_unread hu, hne] using h.unborn other hle
  case fresh => simpa only [attached_append_unread hu] using h.fresh
  case remaining_eq => simpa only [remaining_append_unread hu] using h.remaining_eq
  case dropped_lt => simpa using h.dropped_lt
  case live_eq => exact h.live_eq.trans hlength.symm
  case releases_eq => rw [Table.next_set, ← h.releases_eq, hlength]

/-- A new reader gets the next identity of its buffer, and stands last in its table. -/
theorem attaches (h : Counted notes platform) {cursors : Cursors} {site : Site}
    (hg : platform.buffers.get? slot = some live) (hj : live.buffer.cursors.Joined cursors)
    (ht : Site.Turned ⟨platform.machine, live.buffer⟩ cursors site) :
    Counted (notes ++ [.attached platform.readers.next slot live.buffer.cursors.nextReader])
      { platform with
        machine := site.machine
        buffers := platform.buffers.set slot { live with buffer := site.buffer }
        readers := platform.readers.push ⟨slot, live.buffer.cursors.nextReader⟩ } := by
  -- a number that was never given cannot have been dropped
  have hundropped : .readerDropped platform.readers.next ∉ notes := fun hm =>
    absurd (h.dropped_lt _ hm) (Nat.lt_irrefl _)
  have htidy := h.tidy slot live hg
  have hlength := Table.length_things_set hg { live with buffer := site.buffer }
  constructor
  case allocated_eq => rw [allocated_append_of_nil rfl, h.allocated_eq, Table.next_set]
  case nextBuffer_eq => simpa using h.nextBuffer_eq
  case tidy =>
    intro other kept hk
    rcases Table.of_get?_set hk with ⟨rfl, rfl⟩ | ⟨hne, hk⟩
    · -- the buffer that got the reader
      constructor
      · simpa [ht.buffer_eq] using htidy.id_eq
      · simpa using htidy.held_iff
      · simp [ht.buffer_eq, hj.ids_eq, remaining_append_attached hundropped, htidy.table_eq]
      · simp [ht.buffer_eq, hj.nextReader_eq, attached_append_attached, htidy.nextReader_eq]
      · simp [ht.buffer_eq, hj.tail_eq, htidy.tail_eq]
    · -- of any other buffer the new note says nothing
      have hkept := h.tidy other kept hk
      refine ⟨hkept.id_eq, by simpa using hkept.held_iff, ?_, ?_, hkept.tail_eq⟩
      · simp [remaining_append_attached hundropped, hne.symm, hkept.table_eq]
      · simp [attached_append_attached, hne.symm, hkept.nextReader_eq]
  case unborn =>
    intro other hle
    have hle : platform.buffers.next ≤ other := Table.next_set ▸ hle
    have hne : slot ≠ other := fun heq => absurd (Table.lt_next hg) (heq ▸ hle).not_gt
    simpa [attached_append_attached, hne] using h.unborn other hle
  case fresh =>
    intro other
    rw [attached_append_attached]
    by_cases hs : slot = other
    · subst hs
      simp [h.fresh, htidy.nextReader_eq, List.range_succ]
    · simpa [hs] using h.fresh other
  case remaining_eq =>
    intro other
    rw [remaining_append_attached hundropped, Table.toList_push, List.filter_append,
      List.map_append, h.remaining_eq]
    by_cases hs : slot = other <;> simp [hs]
  case dropped_lt =>
    intro reader hm
    rw [Table.next_push]
    exact Nat.lt_succ_of_lt (h.dropped_lt reader (by simpa using hm))
  case live_eq => exact (ht.journal.live_eq.trans h.live_eq).trans hlength.symm
  case releases_eq =>
    rw [Table.next_set, ← h.releases_eq, hlength]
    exact congrArg (· + _) (ht.journal.count_eq .released rfl)

/-! ### A reader that is dropped -/

/-- A reader that is there was attached and not dropped. -/
theorem mem_remaining_iff (h : Counted notes platform) {reader : Nat} {id : Nat} :
    (reader, id) ∈ remaining notes slot ↔ platform.readers.get? reader = some ⟨slot, id⟩ := by
  rw [h.remaining_eq, List.mem_map]
  constructor
  · rintro ⟨⟨number, place, other⟩, hm, heq⟩
    obtain ⟨hthere, hplace⟩ := List.mem_filter.mp hm
    have hplace : place = slot := eq_of_beq hplace
    cases heq
    exact hplace ▸ Table.mem_toList.mp hthere
  · intro hg
    exact ⟨(reader, ⟨slot, id⟩), List.mem_filter.mpr ⟨Table.mem_toList.mpr hg, beq_self_eq_true _⟩,
      rfl⟩

theorem nodup_remaining (h : Counted notes platform) (slot : Nat) :
    ((remaining notes slot).map (·.2)).Nodup := by
  have hall : ((attached notes slot).map (·.2)).Nodup := h.fresh slot ▸ List.nodup_range
  exact hall.sublist (List.filter_sublist.map _)

variable {reader : Nat} {handle : ReaderHandle}

theorem remaining_elsewhere (h : Counted notes platform)
    (hr : platform.readers.get? reader = some handle) (hne : slot ≠ handle.buffer) :
    remaining (notes ++ [.readerDropped reader]) slot = remaining notes slot := by
  rw [remaining_append_readerDropped, List.filter_eq_self]
  intro p hp
  refine bne_iff_ne.mpr fun heq => hne ?_
  have hthere := h.mem_remaining_iff.mp (heq ▸ hp : (reader, p.2) ∈ remaining notes slot)
  cases hr.symm.trans hthere
  rfl

/-- What is left of the table of readers is what is left of the notes on them. -/
theorem table_without (h : Counted notes platform) (hr : platform.readers.get? reader = some handle)
    (hg : platform.buffers.get? handle.buffer = some live) :
    (live.buffer.cursors.without handle.id).readers.map (·.id) =
      (remaining (notes ++ [.readerDropped reader]) handle.buffer).map (·.2) := by
  have hthere : (reader, handle.id) ∈ remaining notes handle.buffer := h.mem_remaining_iff.mpr hr
  have hnodup := h.nodup_remaining handle.buffer
  -- In one buffer, a reader is told apart by its identity as well as by its number.
  have hboth : ∀ p ∈ remaining notes handle.buffer, (p.2 != handle.id) = (p.1 != reader) := by
    intro p hp
    have hiff : p.2 = handle.id ↔ p.1 = reader := by
      constructor
      · intro hid
        exact congrArg Prod.fst (List.inj_on_of_nodup_map hnodup hp hthere hid)
      · intro hnumber
        have hsame := h.mem_remaining_iff.mp
          (hnumber ▸ hp : (reader, p.2) ∈ remaining notes handle.buffer)
        exact (congrArg ReaderHandle.id (Option.some.inj (hr.symm.trans hsame))).symm
    simp [bne, hiff]
  calc (live.buffer.cursors.without handle.id).readers.map (·.id)
      = (live.buffer.cursors.readers.map (·.id)).erase handle.id := by
        rw [List.erase_eq_eraseP', List.eraseP_map]
        rfl
    _ = ((remaining notes handle.buffer).map (·.2)).filter (· != handle.id) := by
        rw [(h.tidy _ live hg).table_eq, hnodup.erase_eq_filter]
    _ = ((remaining notes handle.buffer).filter (·.2 != handle.id)).map (·.2) := List.filter_map
    _ = (remaining (notes ++ [.readerDropped reader]) handle.buffer).map (·.2) := by
        rw [remaining_append_readerDropped, List.filter_congr hboth]

theorem dropsReader (h : Counted notes platform) {site : Site}
    (hr : platform.readers.get? reader = some handle)
    (hg : platform.buffers.get? handle.buffer = some live)
    (ht : Site.Turned ⟨platform.machine, live.buffer⟩
      (live.buffer.cursors.without handle.id) site) :
    Counted (notes ++ [.readerDropped reader]) { platform with
      machine := site.machine
      buffers := platform.buffers.set handle.buffer { live with buffer := site.buffer }
      readers := platform.readers.remove reader } := by
  have htidy := h.tidy _ live hg
  have hlength := Table.length_things_set hg { live with buffer := site.buffer }
  -- who was attached is history, and stays
  have hattached : ∀ slot,
      Platform.attached (notes ++ [.readerDropped reader]) slot = Platform.attached notes slot := by
    intro slot
    have hnone : Platform.attached [.readerDropped reader] slot = [] := rfl
    rw [attached_append, hnone, List.append_nil]
  constructor
  case allocated_eq => rw [allocated_append_of_nil rfl, h.allocated_eq, Table.next_set]
  case nextBuffer_eq => simpa using h.nextBuffer_eq
  case tidy =>
    intro other kept hk
    rcases Table.of_get?_set hk with ⟨rfl, rfl⟩ | ⟨hne, hk⟩
    · refine ⟨?_, by simpa using htidy.held_iff, ?_, ?_, ?_⟩
      · rw [ht.buffer_eq, ← htidy.id_eq]
      · rw [ht.buffer_eq, h.table_without hr hg]
      · rw [ht.buffer_eq, hattached, ← htidy.nextReader_eq]; rfl
      · rw [ht.buffer_eq, ← htidy.tail_eq]; rfl
    · have hkept := h.tidy other kept hk
      refine ⟨hkept.id_eq, by simpa using hkept.held_iff, ?_, ?_, hkept.tail_eq⟩
      · rw [h.remaining_elsewhere hr hne, hkept.table_eq]
      · rw [hattached, hkept.nextReader_eq]
  case unborn =>
    intro other hle
    simpa [hattached] using h.unborn other (Table.next_set ▸ hle)
  case fresh => simpa only [hattached] using h.fresh
  case remaining_eq =>
    intro other
    rw [remaining_append_readerDropped, h.remaining_eq, Table.toList_remove, List.filter_map,
      List.filter_filter, List.filter_filter]
    refine congrArg (List.map _) (List.filter_congr fun p _ => ?_)
    exact Bool.and_comm _ _
  case dropped_lt =>
    intro other hm
    rw [Table.next_remove]
    rcases List.mem_append.mp hm with hm | hm
    · exact h.dropped_lt other hm
    · cases List.mem_singleton.mp hm
      exact Table.lt_next hr
  case live_eq => exact (ht.journal.live_eq.trans h.live_eq).trans hlength.symm
  case releases_eq =>
    rw [Table.next_set, ← h.releases_eq, hlength]
    exact congrArg (· + _) (ht.journal.count_eq .released rfl)

end Counted

end Platform

end StreamBuffer
