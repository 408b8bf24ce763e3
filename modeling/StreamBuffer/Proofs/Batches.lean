import StreamBuffer.Proofs.Asides

/-!
# Batches

Once room was asked for, the writer may go as far as that and every reader as far as its supply. In
how many strides they do, and in which order, is of no consequence.
-/

namespace StreamBuffer

inductive Stride where
  | write (items : Nat)
  | read (id items : Nat)

namespace Stride

def perform : Stride → Action Site Unit
  | write items => Site.advance items
  | read id items => Site.read id items

def written : Stride → Nat
  | write items => items
  | read .. => 0

def consumed (id : Nat) : Stride → Nat
  | write _ => 0
  | read other items => if other = id then items else 0

end Stride

def totalWritten (strides : List Stride) : Nat := (strides.map Stride.written).sum

def totalConsumed (strides : List Stride) (id : Nat) : Nat := (strides.map (Stride.consumed id)).sum

theorem totalWritten_cons (stride : Stride) (strides : List Stride) :
    totalWritten (stride :: strides) = stride.written + totalWritten strides := List.sum_cons

theorem totalConsumed_cons (stride : Stride) (strides : List Stride) (id : Nat) :
    totalConsumed (stride :: strides) id = stride.consumed id + totalConsumed strides id :=
    List.sum_cons

namespace Cursors

variable {cursors : Cursors} {capacity items id : Nat} {reader : Reader} {share : Nat → Nat}

theorem reader?_partway (hr : cursors.reader? id = some reader) :
    (cursors.partway capacity items share).reader? id =
      some (cursors.consumed capacity reader (share reader.id)) := by
  unfold reader? at hr ⊢
  simp only [partway, List.find?_map]
  exact Option.map_eq_some_iff.mpr ⟨reader, hr, rfl⟩

end Cursors

namespace Site

variable {site after : Site} {cursors : Cursors} {capacity items : Nat} {share : Nat → Nat}

structure Partway (cursors : Cursors) (items : Nat) (share : Nat → Nat) (site : Site) : Prop where
  cursors_eq : site.buffer.cursors = cursors.partway site.buffer.geometry.capacity items share
  coherent : site.buffer.cursors.Coherent site.buffer.geometry.capacity
  twice_le : 2 * site.buffer.geometry.capacity ≤ Word.limit

/-- What is ahead of the writer and the readers can be done, and no counter outgrows a word. -/
structure Ahead (cursors : Cursors) (capacity items : Nat) (share : Nat → Nat) : Prop extends
    Cursors.Within cursors capacity items share where
  items_le : items ≤ capacity
  counted : cursors.written + items + cursors.maxLookBack < Word.limit

variable {count : Nat} {more : Nat → Nat} {strides : List Stride}

theorem Ahead.mono (h : Ahead cursors capacity (items + count) fun id => share id + more id) :
    Ahead cursors capacity items share := by
  refine ⟨⟨h.coherent, ?_, fun reader hr => ?_⟩, ?_, ?_⟩
  · exact h.room.imp_left fun hroom => hroom.mono (Nat.le_add_right ..)
  · exact Nat.le_trans (Nat.le_add_right ..) (h.supply reader hr)
  · exact Nat.le_trans (Nat.le_add_right ..) h.items_le
  · have := h.counted
    omega

namespace Partway

theorem counted (h : site.Partway cursors items share)
    (ha : Ahead cursors site.buffer.geometry.capacity items share) :
    site.buffer.cursors.Counted := by
  rw [h.cursors_eq]
  exact ha.counted

theorem stride (h : site.Partway cursors items share) (stride : Stride)
    (ha : Ahead cursors site.buffer.geometry.capacity (items + stride.written)
      fun id => share id + stride.consumed id)
    (hid : ∀ id count, stride = .read id count → ∃ reader, cursors.reader? id = some reader) :
    stride.perform.Ensures site
      (fun _ after => after.Partway cursors (items + stride.written)
        (fun id => share id + stride.consumed id) ∧ after.buffer.geometry = site.buffer.geometry)
      fun _ _ => False := by
  have hlt := h.coherent.writeIndex_lt
  have htwice := h.twice_le
  have hitems := ha.items_le
  have hcounted := ha.counted
  cases stride with
  | write count =>
    have hwritten : site.buffer.cursors.written = cursors.written + items :=
      congrArg Cursors.written h.cursors_eq
    simp only [Stride.written] at hitems hcounted
    apply (advance_turns (Nat.zero_lt_of_lt hlt) (by omega) (by omega)).mono
    · intro _ after ht
      have hcursors := ht.cursors_eq
      rw [h.cursors_eq, Cursors.wrote_partway, ← ht.geometry_eq] at hcursors
      refine ⟨⟨hcursors, ?_, ht.geometry_eq ▸ htwice⟩, ht.geometry_eq⟩
      rw [hcursors, ht.geometry_eq]
      exact ha.toWithin.wrote (h.cursors_eq ▸ h.coherent)
    · exact fun _ _ hf => hf
  | read id count =>
    obtain ⟨reader, hr⟩ := hid id count rfl
    obtain ⟨hm, rfl⟩ := Cursors.mem_of_reader? hr
    -- the reader can go all the way, so it can go the part that is behind it
    have hbefore : Ahead cursors site.buffer.geometry.capacity items share := ha.mono
    have hgrown : share reader.id + (Stride.read reader.id count).consumed reader.id =
        share reader.id + count := by
      simp [Stride.consumed]
    have hsame : ∀ id, id ≠ reader.id →
        share id + (Stride.read reader.id count).consumed id = share id := by
      intro id hid
      simp [Stride.consumed, Ne.symm hid]
    have hsupply : share reader.id + count ≤
        cursors.available site.buffer.geometry.capacity reader :=
      hgrown ▸ ha.supply reader hm
    have hmoved : (cursors.partway site.buffer.geometry.capacity items share).reader? reader.id =
        some (cursors.consumed site.buffer.geometry.capacity reader (share reader.id)) :=
      Cursors.reader?_partway hr
    have havailable := hbefore.available_partway hm hsupply
    -- from here on the cursors of the site stand for those partway
    rw [← h.cursors_eq] at hmoved havailable
    obtain ⟨hmem, _⟩ := Cursors.mem_of_reader? hmoved
    have hconsumed := h.coherent.consume hmem havailable
    have hcount := h.counted hbefore
    obtain ⟨event, he⟩ := h.coherent.advanceReader_eq hcount (by omega) hmem havailable
    have hcountable :
        (site.buffer.cursors.replace (site.buffer.cursors.consumed site.buffer.geometry.capacity
        (cursors.consumed site.buffer.geometry.capacity reader (share reader.id)) count)).Counted :=
        hcount
    apply (read_turns hmoved he (hcountable.countable hconsumed)).mono
    · intro _ after ht
      have hcoherent := hconsumed.refreshed
      rw [← ht.cursors_eq, ← ht.geometry_eq] at hcoherent
      refine ⟨⟨?_, hcoherent, ht.geometry_eq ▸ htwice⟩, ht.geometry_eq⟩
      rw [ht.cursors_eq, ht.geometry_eq, h.cursors_eq]
      exact hbefore.refreshed_replace ha.toWithin hm hgrown hsame
    · exact fun _ _ hf => hf

/-- Wherever the strides are cut, and in whichever order they are made, they lead to one place. -/
theorem run (h : site.Partway cursors items share)
    (ha : Ahead cursors site.buffer.geometry.capacity (items + totalWritten strides)
      fun id => share id + totalConsumed strides id)
    (hid : ∀ id count, .read id count ∈ strides → ∃ reader, cursors.reader? id = some reader) :
    (strides.forM Stride.perform).Ensures site
      (fun _ after => after.Partway cursors (items + totalWritten strides)
        (fun id => share id + totalConsumed strides id) ∧
        after.buffer.geometry = site.buffer.geometry)
      fun _ _ => False := by
  induction strides generalizing site items share with
  | nil => exact Action.Ensures.pure ⟨h, rfl⟩
  | cons stride rest ih =>
    have htotal : ∀ id, share id + totalConsumed (stride :: rest) id =
        share id + stride.consumed id + totalConsumed rest id := fun id => by
      rw [totalConsumed_cons, Nat.add_assoc]
    simp only [htotal, totalWritten_cons, ← Nat.add_assoc] at ha ⊢
    have hstride := h.stride stride ha.mono
      fun id count he => hid id count (he ▸ List.mem_cons_self ..)
    apply hstride.sure_bind
    rintro _ mid ⟨hmid, hg⟩
    rw [← hg] at ha ⊢
    exact ih hmid ha fun id count he => hid id count (List.mem_cons_of_mem _ he)

end Partway

end Site

variable {backend : Backend} {request : Request} {id granted room : Nat}
variable {machine allocated : Machine}
variable {buffer : Buffer} {site mid : Site} {strides : List Stride}

/-- **Batches.** From where room was asked for last, strides that lead the writer no further than
its room and no reader further than its supply can be made in any order and cut in any way: where
the cursors are in the end is told by how far each has gone in all. -/
theorem strides_lead_to_one_place (hr : backend.Ready machine.devices)
    (hflat : request.mapping = .single)
    (ha : Buffer.allocate backend request id machine = .ok buffer allocated)
    (hplay : Play (Act.Respects .early) ⟨allocated, buffer⟩ granted site)
    (hs : Site.space site = .ok room mid) (hroom : totalWritten strides ≤ room)
    (hsupply : ∀ reader ∈ mid.buffer.cursors.readers, ∃ supply,
      mid.buffer.supply reader = .ok supply ∧ totalConsumed strides reader.id ≤ supply)
    (hid : ∀ id items, .read id items ∈ strides →
      ∃ reader, mid.buffer.cursors.reader? id = some reader)
    (hcount : mid.buffer.cursors.written + totalWritten strides + mid.buffer.cursors.maxLookBack <
      Word.limit) :
    ∃ last, strides.forM Stride.perform mid = .ok ⟨⟩ last ∧
      last.buffer.cursors =
        mid.buffer.cursors.partway buffer.geometry.capacity (totalWritten strides)
        (totalConsumed strides) := by
  obtain ⟨hsound, _, _⟩ := Buffer.allocate_sound hr hflat ha
  have hsite := hplay.poised Terms.early_places hsound
  have hspace : site.Takes .early Site.space _ := Site.space_spec hsite.toSound
  obtain ⟨sent, hm, _, hc, hfree, hle⟩ := hspace.of_ok hs
  have hmid := hm.sound hsite.toSound
  have hgeometry : mid.buffer.geometry = buffer.geometry := hm.geometry_eq.trans hsite.geometry_eq
  rw [← hm.geometry_eq] at hfree hle
  rw [← hgeometry]
  -- what is ahead of each is within what it was told, tail window included
  have hwithin : mid.buffer.cursors.Within mid.buffer.geometry.capacity (totalWritten strides)
      (totalConsumed strides) := by
    refine ⟨hmid.coherent, ?_, fun reader hm => ?_⟩
    · by_cases hn : mid.buffer.cursors.readers = []
      · exact .inr hn
      · exact .inl ((hfree fun h => hn (hc.readers_eq_nil_iff.mpr h)).mono hroom)
    · obtain ⟨supply, he, hle⟩ := hsupply reader hm
      cases he.symm.trans (Site.supply_eq hmid hm)
      exact hle
  have hstart : mid.Partway mid.buffer.cursors 0 fun _ => 0 :=
    ⟨(Cursors.partway_zero hmid.coherent).symm, hmid.coherent, hmid.measured.twice_le⟩
  have hahead : Site.Ahead mid.buffer.cursors mid.buffer.geometry.capacity
      (0 + totalWritten strides)
      fun id => 0 + totalConsumed strides id := by
    simp only [Nat.zero_add]
    exact ⟨hwithin, Nat.le_trans hroom hle, hcount⟩
  obtain ⟨_, last, he, hlast, hg⟩ := (hstart.run hahead hid).finishes
  refine ⟨last, he, ?_⟩
  simp only [hlast.cursors_eq, hg, Nat.zero_add]

def Site.rounded : Site :=
  [.call (.attach 2 0), .call .space, .move 3, .call (.read 0 3), .move 4].foldl
    (fun site act => Act.after act site)
    (Site.onHeap 8 1)

/-- To make room, an item is copied to the front; the reader walks through the tail window. -/
theorem strides_lead_to_one_place_heap :
    ∃ mid last, Play (Act.Respects .early) (Site.onHeap 8 1) 0 .rounded ∧
      Site.space .rounded = .ok 2 mid ∧ mid.buffer.cursors.tail = some ⟨7, 8⟩ ∧
      [Stride.write 1, .read 0 4, .write 1, .read 0 1].forM Stride.perform mid = .ok ⟨⟩ last ∧
      last.buffer.cursors = mid.buffer.cursors.partway 8 2
        (totalConsumed [.write 1, .read 0 4, .write 1, .read 0 1]) := by
  have hready : Backend.Ready .heap ({} : Machine).devices := trivial
  have hallocate := Buffer.allocate_onHeap 8 1 1 (by decide)
  have hstart : Play (Act.Respects .early) (Site.onHeap 8 1) 0 _ := .refl
  have hattached := hstart.tail (.call (.attach 2 0))
    ⟨⟨by decide, by decide, by decide⟩, by decide, rfl, nofun⟩
  have hasked := hattached.tail (.call .space) trivial
  have hthree := hasked.tail (.move 3) ⟨.inl (by decide), by decide⟩
  have hread := hthree.tail (.call (.read 0 3)) ⟨_, 4, rfl, rfl, by decide⟩
  have hplay : Play (Act.Respects .early) (Site.onHeap 8 1) 0 .rounded :=
    hread.tail (.move 4) ⟨.inl (by decide), by decide⟩
  have hspace : Site.space .rounded = .ok 2 ((Act.call .space).after .rounded) := rfl
  have hcursors : ((Act.call .space).after .rounded).buffer.cursors =
      { writeIndex := 1, written := 7, readers := [⟨0, 3, 3, 1, 0⟩], nextReader := 1,
        maxLookBack := 1,
        tail := some ⟨7, 8⟩ } := by decide
  have hsupply : ∀ reader ∈ ((Act.call .space).after .rounded).buffer.cursors.readers, ∃ supply,
      ((Act.call .space).after .rounded).buffer.supply reader = .ok supply ∧
        totalConsumed [.write 1, .read 0 4, .write 1, .read 0 1] reader.id ≤ supply := by
    rw [hcursors]
    intro reader hm
    cases List.mem_singleton.mp hm
    exact ⟨5, rfl, by decide⟩
  have hattached : ∀ id items,
      Stride.read id items ∈ [Stride.write 1, .read 0 4, .write 1, .read 0 1] →
      ∃ reader, ((Act.call .space).after .rounded).buffer.cursors.reader? id = some reader := by
    intro id items hm
    have hid : id = 0 := by
      simp at hm
      omega
    rw [hcursors, hid]
    exact ⟨_, rfl⟩
  obtain ⟨last, he, hlast⟩ := strides_lead_to_one_place hready rfl hallocate hplay hspace
    (show totalWritten [.write 1, .read 0 4, .write 1, .read 0 1] ≤ 2 by decide) hsupply hattached
    (by rw [hcursors]; decide)
  exact ⟨_, last, hplay, hspace, by rw [hcursors], he, hlast⟩

end StreamBuffer
